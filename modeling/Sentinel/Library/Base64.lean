import Mathlib.Tactic.Common
import Mathlib.Tactic.IntervalCases

/-!
# Library — Base64

The base64 encodings, on the codes of characters. Three bytes are four sextets (`sextets`); a
sextet is written as a letter, a digit or one of two more characters, which are `+` and `/` in the
standard alphabet and `-` and `_` in the one for URLs (`digit`); and a text may be padded with `=`
to a multiple of four (`pad`).

`forgivingDecode` is the reading that browsers give a text: white space is dropped, the padding
may be there or not, and the spare bits of the last digit are ignored. It undoes the encoding in
the standard alphabet, padded (`forgivingDecode_pad`).
-/

namespace Base64

/-! ### Sextets -/

/-- The sextets of a list of bytes. The last group is filled up with zero bits. -/
def sextets : List UInt8 → List Nat
  | a :: b :: c :: bs =>
      a.toNat / 4 :: (a.toNat % 4 * 16 + b.toNat / 16) :: (b.toNat % 16 * 4 + c.toNat / 64) ::
        c.toNat % 64 :: sextets bs
  | [a, b] => [a.toNat / 4, a.toNat % 4 * 16 + b.toNat / 16, b.toNat % 16 * 4]
  | [a] => [a.toNat / 4, a.toNat % 4 * 16]
  | [] => []

/-- The bytes of a list of sextets. Spare bits at the end are dropped. -/
def octets : List Nat → List UInt8
  | w :: x :: y :: z :: ss =>
      UInt8.ofNat (w * 4 + x / 16) :: UInt8.ofNat (x % 16 * 16 + y / 4) ::
        UInt8.ofNat (y % 4 * 64 + z) :: octets ss
  | [w, x, y] => [UInt8.ofNat (w * 4 + x / 16), UInt8.ofNat (x % 16 * 16 + y / 4)]
  | [w, x] => [UInt8.ofNat (w * 4 + x / 16)]
  | _ => []

/-- A byte from its number. -/
theorem ofNat_eq {b : UInt8} {n : Nat} (h : n = b.toNat) : UInt8.ofNat n = b := by
  rw [h, UInt8.ofNat_toNat]

/-- The bytes of the sextets of some bytes are these. -/
theorem octets_sextets : ∀ bs : List UInt8, octets (sextets bs) = bs
  | a :: b :: c :: bs => by
      have hb := b.toNat_lt
      have hc := c.toNat_lt
      have ha : UInt8.ofNat (a.toNat / 4 * 4 + (a.toNat % 4 * 16 + b.toNat / 16) / 16) = a :=
        ofNat_eq (by omega)
      have hb : UInt8.ofNat ((a.toNat % 4 * 16 + b.toNat / 16) % 16 * 16 +
          (b.toNat % 16 * 4 + c.toNat / 64) / 4) = b := ofNat_eq (by omega)
      have hc : UInt8.ofNat ((b.toNat % 16 * 4 + c.toNat / 64) % 4 * 64 + c.toNat % 64) = c :=
        ofNat_eq (by omega)
      simp only [sextets, octets, ha, hb, hc, octets_sextets bs]
  | [a, b] => by
      have hb := b.toNat_lt
      have ha : UInt8.ofNat (a.toNat / 4 * 4 + (a.toNat % 4 * 16 + b.toNat / 16) / 16) = a :=
        ofNat_eq (by omega)
      have hb : UInt8.ofNat ((a.toNat % 4 * 16 + b.toNat / 16) % 16 * 16 +
          b.toNat % 16 * 4 / 4) = b := ofNat_eq (by omega)
      simp only [sextets, octets, ha, hb]
  | [a] => by
      have ha : UInt8.ofNat (a.toNat / 4 * 4 + a.toNat % 4 * 16 / 16) = a := ofNat_eq (by omega)
      simp only [sextets, octets, ha]
  | [] => rfl

theorem sextets_lt : ∀ {bs : List UInt8}, ∀ s ∈ sextets bs, s < 64
  | a :: b :: c :: bs, s, hs => by
      have ha := a.toNat_lt
      have hb := b.toNat_lt
      have hc := c.toNat_lt
      simp only [sextets, List.mem_cons] at hs
      rcases hs with rfl | rfl | rfl | rfl | hs
      · omega
      · omega
      · omega
      · omega
      · exact sextets_lt s hs
  | [a, b], s, hs => by
      have ha := a.toNat_lt
      have hb := b.toNat_lt
      simp only [sextets, List.mem_cons, List.not_mem_nil, or_false] at hs
      omega
  | [a], s, hs => by
      have ha := a.toNat_lt
      simp only [sextets, List.mem_cons, List.not_mem_nil, or_false] at hs
      omega
  | [], s, hs => by simp [sextets] at hs

/-- No list of bytes leaves a single sextet over. -/
theorem length_sextets : ∀ bs : List UInt8, (sextets bs).length % 4 ≠ 1
  | _ :: _ :: _ :: bs => by
      have ih := length_sextets bs
      simp only [sextets, List.length_cons]
      omega
  | [_, _] => by simp [sextets]
  | [_] => by simp [sextets]
  | [] => by simp [sextets]

theorem sextets_eq_nil : ∀ {bs : List UInt8}, sextets bs = [] ↔ bs = []
  | _ :: _ :: _ :: _ => by simp [sextets]
  | [_, _] => by simp [sextets]
  | [_] => by simp [sextets]
  | [] => by simp [sextets]

/-! ### Digits -/

/-- The digit of a sextet: `A`–`Z`, `a`–`z`, `0`–`9` and the last two of the alphabet. -/
def digit (d₆₂ d₆₃ s : Nat) : Nat :=
  if s < 26 then 65 + s
  else if s < 52 then 71 + s
  else if s < 62 then s - 4
  else if s = 62 then d₆₂
  else d₆₃

/-- The standard alphabet ends in `+` and `/`. -/
def standard : Nat → Nat := digit 43 47

/-- The alphabet for URLs ends in `-` and `_`. -/
def urlSafe : Nat → Nat := digit 45 95

/-- The sextet of a digit of the standard alphabet. -/
def sextet (code : Nat) : Option Nat :=
  if 65 ≤ code ∧ code ≤ 90 then some (code - 65)
  else if 97 ≤ code ∧ code ≤ 122 then some (code - 71)
  else if 48 ≤ code ∧ code ≤ 57 then some (code + 4)
  else if code = 43 then some 62
  else if code = 47 then some 63
  else none

theorem sextet_standard {s : Nat} (h : s < 64) : sextet (standard s) = some s := by
  unfold standard digit
  interval_cases s <;> rfl

theorem mapM_sextet_standard {ss : List Nat} (h : ∀ s ∈ ss, s < 64) :
    (ss.map standard).mapM sextet = some ss := by
  induction ss with
  | nil => rfl
  | cons s ss ih =>
      obtain ⟨hs, hss⟩ := List.forall_mem_cons.mp h
      simp [sextet_standard hs, ih hss]

/-! ### Texts -/

/-- The text in the alphabet for URLs, without padding. -/
def encodeUrl (bs : List UInt8) : List Nat := (sextets bs).map urlSafe

/-- A text with its padding: as many `=` as its length is short of a multiple of four. -/
def pad (text : List Nat) : List Nat :=
  text ++ List.replicate ((4 - text.length % 4) % 4) 61

/-- A list without the `=` it starts with, up to a number of them. -/
def dropPad : Nat → List Nat → List Nat
  | n + 1, 61 :: r => dropPad n r
  | _, r => r

/-- A text without one or two `=` at its end. -/
def stripPad (text : List Nat) : List Nat := (dropPad 2 text.reverse).reverse

/-- White space of ASCII. -/
def isSpace (code : Nat) : Bool := code ∈ [9, 10, 12, 13, 32]

/-- The forgiving reading of a text. -/
def forgivingDecode (text : List Nat) : Option (List UInt8) :=
  let data := text.filter (!isSpace ·)
  let data := if data.length % 4 = 0 then stripPad data else data
  if data.length % 4 = 1 then none else (data.mapM sextet).map octets

theorem length_pad (text : List Nat) : (pad text).length % 4 = 0 := by
  simp only [pad, List.length_append, List.length_replicate]
  omega

/-- A text that is padded has no more padding to come. -/
theorem pad_pad (text : List Nat) : pad (pad text) = pad text := by
  rw [pad, length_pad]
  simp

theorem dropPad_replicate {r : List Nat} (h : 61 ∉ r) :
    ∀ {k n : Nat}, k ≤ n → dropPad n (List.replicate k 61 ++ r) = r
  | 0, n, _ => by
      match n, r with
      | 0, _ => rfl
      | n + 1, [] => rfl
      | n + 1, c :: r =>
          have hc : c ≠ 61 := fun hc => h (hc ▸ List.mem_cons_self)
          simp [dropPad, hc]
  | k + 1, n + 1, hk => by
      have ih : dropPad n (List.replicate k 61 ++ r) = r := dropPad_replicate h (by omega)
      exact ih

theorem stripPad_append {text : List Nat} (h : 61 ∉ text) {k : Nat} (hk : k ≤ 2) :
    stripPad (text ++ List.replicate k 61) = text := by
  rw [stripPad, List.reverse_append, List.reverse_replicate,
    dropPad_replicate (by simpa using h) hk, List.reverse_reverse]

/-- A digit is neither white space nor padding. -/
theorem standard_printable {s : Nat} (h : s < 64) :
    isSpace (standard s) = false ∧ standard s ≠ 61 := by
  unfold standard digit
  interval_cases s <;> decide

/-- The codes of a padded text are those of ASCII. -/
theorem pad_lt {ss : List Nat} (h : ∀ s ∈ ss, s < 64) :
    ∀ c ∈ pad (ss.map standard), c < 128 := by
  intro c hc
  rcases List.mem_append.mp hc with hdigit | hpad
  · obtain ⟨s, hs, rfl⟩ := List.mem_map.mp hdigit
    have hs64 := h s hs
    unfold standard digit
    split_ifs <;> omega
  · rw [List.eq_of_mem_replicate hpad]
    decide

theorem filter_pad {ss : List Nat} (h : ∀ s ∈ ss, s < 64) :
    (pad (ss.map standard)).filter (!isSpace ·) = pad (ss.map standard) := by
  rw [List.filter_eq_self]
  intro c hc
  rcases List.mem_append.mp hc with hdigit | hpad
  · obtain ⟨s, hs, rfl⟩ := List.mem_map.mp hdigit
    rw [(standard_printable (h s hs)).1]
    rfl
  · rw [List.eq_of_mem_replicate hpad]
    rfl

/-- **The reading undoes the encoding**: the padded text of some bytes, in the standard alphabet,
reads as these bytes. -/
theorem forgivingDecode_pad (bs : List UInt8) :
    forgivingDecode (pad ((sextets bs).map standard)) = some bs := by
  have hlt : ∀ s ∈ sextets bs, s < 64 := sextets_lt
  have hlen := length_sextets bs
  have hnopad : 61 ∉ (sextets bs).map standard := by
    intro hmem
    obtain ⟨s, hs, h61⟩ := List.mem_map.mp hmem
    exact (standard_printable (hlt s hs)).2 h61
  have hstrip : stripPad (pad ((sextets bs).map standard)) = (sextets bs).map standard :=
    stripPad_append hnopad (by rw [List.length_map]; omega)
  simp only [forgivingDecode, filter_pad hlt, length_pad, if_true, hstrip, List.length_map,
    if_neg hlen, mapM_sextet_standard hlt, Option.map_some, octets_sextets]

end Base64
