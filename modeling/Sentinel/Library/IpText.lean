import Mathlib.Data.List.TakeWhile
import Mathlib.Tactic.Common
import Mathlib.Tactic.IntervalCases

/-!
# Library — IpText

IP addresses and the texts that a network library reads and writes for them.

* An address is 4 or 16 bytes (`IP`); `to4` unwraps a 4-byte address or an IPv4-mapped one, and
  `to16` is the 16-byte form.
* `IP.text` writes dotted decimal for what `to4` unwraps, and otherwise hexadecimal groups with
  the first longest run of at least two zero groups written `::`.
* `parseIP` reads either form into 16 bytes, without a zone.
* `splitHostPort` and `joinHostPort` take apart and put together `host:port`, with brackets
  around a host that has a colon.

The results are the two round trips: `parseIP_text`, and `split_join` for hosts and ports that
have none of the separators.
-/

namespace IpText

/-! ### Addresses -/

/-- An IP address: 4 or 16 bytes. -/
structure IP where
  bytes : List UInt8
  length_eq : bytes.length = 4 ∨ bytes.length = 16
deriving DecidableEq, Repr

/-- The first 12 bytes of an IPv4-mapped address. -/
def mappedPrefix : List UInt8 := [0, 0, 0, 0, 0, 0, 0, 0, 0, 0, 0xff, 0xff]

/-- The four bytes of an IPv4 address in either form. -/
def IP.to4 (ip : IP) : Option (List UInt8) :=
  if ip.bytes.length = 4 then some ip.bytes
  else if ip.bytes.take 12 = mappedPrefix then some (ip.bytes.drop 12)
  else none

/-- The 16-byte form. -/
def IP.to16 (ip : IP) : List UInt8 :=
  if ip.bytes.length = 4 then mappedPrefix ++ ip.bytes else ip.bytes

theorem IP.length_to16 (ip : IP) : ip.to16.length = 16 := by
  unfold to16
  split
  · simp_all [mappedPrefix]
  · exact ip.length_eq.resolve_left ‹_›

/-- A 16-byte address. -/
def IP.of16 (bs : List UInt8) (h : bs.length = 16) : IP := ⟨bs, Or.inr h⟩

/-- A 4-byte address. -/
def IP.of4 (bs : List UInt8) (h : bs.length = 4) : IP := ⟨bs, Or.inl h⟩

theorem IP.to4_length {ip : IP} {bs : List UInt8} (h : ip.to4 = some bs) : bs.length = 4 := by
  unfold to4 at h
  split at h
  · cases h; assumption
  · split at h
    · cases h
      have := ip.length_eq.resolve_left ‹_›
      simp [this]
    · cases h

/-- The 16-byte form of an address that `to4` unwraps is the mapped one. -/
theorem IP.to16_of_to4 {ip : IP} {bs : List UInt8} (h : ip.to4 = some bs) :
    ip.to16 = mappedPrefix ++ bs := by
  unfold to4 at h
  unfold to16
  split at h
  · cases h
    simp [*]
  · split at h
    · rename_i h4 hm
      cases h
      rw [if_neg h4, ← hm, List.take_append_drop]
    · cases h

/-- Both forms of an address unwrap alike. -/
theorem IP.to4_of16 (ip : IP) : (IP.of16 ip.to16 ip.length_to16).to4 = ip.to4 := by
  cases h : ip.to4 with
  | some bs => simp [of16, to4, IP.to16_of_to4 h, mappedPrefix]
  | none =>
      unfold to4 at h
      split at h
      · cases h
      · rename_i h4
        split at h
        · cases h
        · rename_i hm
          have h16 := ip.length_eq.resolve_left h4
          simp [of16, to4, to16, h16, hm]

/-! ### Digits -/

/-- The digit `d < 16`, in lower case. -/
def digitChar (d : Nat) : Char :=
  ['0', '1', '2', '3', '4', '5', '6', '7', '8', '9', 'a', 'b', 'c', 'd', 'e', 'f'].getD d '0'

def decVal (c : Char) : Option Nat :=
  if '0' ≤ c ∧ c ≤ '9' then some (c.toNat - '0'.toNat) else none

def hexVal (c : Char) : Option Nat :=
  if '0' ≤ c ∧ c ≤ '9' then some (c.toNat - '0'.toNat)
  else if 'a' ≤ c ∧ c ≤ 'f' then some (c.toNat - 'a'.toNat + 10)
  else if 'A' ≤ c ∧ c ≤ 'F' then some (c.toNat - 'A'.toNat + 10)
  else none

theorem decVal_digitChar {d : Nat} (h : d < 10) : decVal (digitChar d) = some d := by
  interval_cases d <;> decide

theorem hexVal_digitChar {d : Nat} (h : d < 16) : hexVal (digitChar d) = some d := by
  interval_cases d <;> decide

/-- The characters that are no digit and separate numbers, hosts and ports. -/
def Separator (c : Char) : Prop := c = '.' ∨ c = ':' ∨ c = '%' ∨ c = '[' ∨ c = ']'

theorem not_separator_digitChar {d : Nat} (h : d < 16) : ¬ Separator (digitChar d) := by
  unfold Separator
  interval_cases d <;> decide

/-- A byte in decimal, without leading zeros. -/
def decimal (x : Nat) : List Char :=
  (if 100 ≤ x then [digitChar (x / 100)] else []) ++
    (if 10 ≤ x then [digitChar (x / 10 % 10)] else []) ++ [digitChar (x % 10)]

/-- A 16-bit group in hexadecimal, without leading zeros. -/
def hex (x : Nat) : List Char :=
  (if 0x1000 ≤ x then [digitChar (x / 0x1000)] else []) ++
    (if 0x100 ≤ x then [digitChar (x / 0x100 % 16)] else []) ++
    (if 0x10 ≤ x then [digitChar (x / 0x10 % 16)] else []) ++ [digitChar (x % 16)]

theorem decimal_digits {x : Nat} (h : x < 256) : ∀ c ∈ decimal x, ∃ d < 10, c = digitChar d := by
  intro c hc
  simp only [decimal, List.mem_append, List.mem_singleton] at hc
  rcases hc with (hc | hc) | rfl
  · split at hc
    · exact ⟨x / 100, by omega, List.mem_singleton.mp hc⟩
    · cases hc
  · split at hc
    · exact ⟨x / 10 % 10, by omega, List.mem_singleton.mp hc⟩
    · cases hc
  · exact ⟨x % 10, by omega, rfl⟩

theorem hex_digits {x : Nat} (h : x < 65536) : ∀ c ∈ hex x, ∃ d < 16, c = digitChar d := by
  intro c hc
  simp only [hex, List.mem_append, List.mem_singleton] at hc
  rcases hc with ((hc | hc) | hc) | rfl
  · split at hc
    · exact ⟨x / 0x1000, by omega, List.mem_singleton.mp hc⟩
    · cases hc
  · split at hc
    · exact ⟨x / 0x100 % 16, by omega, List.mem_singleton.mp hc⟩
    · cases hc
  · split at hc
    · exact ⟨x / 0x10 % 16, by omega, List.mem_singleton.mp hc⟩
    · cases hc
  · exact ⟨x % 16, by omega, rfl⟩

theorem isDigit_decimal {x : Nat} (h : x < 256) : ∀ c ∈ decimal x, c.isDigit = true := by
  intro c hc
  obtain ⟨d, hd, rfl⟩ := decimal_digits h c hc
  interval_cases d <;> rfl

theorem length_decimal (x : Nat) : 1 ≤ (decimal x).length ∧ (decimal x).length ≤ 3 := by
  unfold decimal
  split <;> split <;> simp

/-- The value of a byte is that of its digits. -/
theorem ofDigitChars_decimal {x : Nat} (h : x < 256) : Nat.ofDigitChars 10 (decimal x) 0 = x := by
  have hvalue : ∀ {d : Nat}, d < 10 → (digitChar d).toNat - '0'.toNat = d := by
    intro d hd
    interval_cases d <;> rfl
  have hhundreds := hvalue (show x / 100 < 10 by omega)
  have htens := hvalue (show x / 10 % 10 < 10 by omega)
  have hones := hvalue (show x % 10 < 10 by omega)
  unfold decimal
  split <;> split <;>
    simp only [List.append_nil, List.nil_append, List.cons_append, Nat.ofDigitChars_cons,
      Nat.ofDigitChars_nil, hhundreds, htens, hones] <;> omega

theorem decimal_ne_nil (x : Nat) : decimal x ≠ [] := by simp [decimal]

theorem hex_ne_nil (x : Nat) : hex x ≠ [] := by simp [hex]

/-! ### IPv4 text -/

/-- Reads dotted decimal: `fields` are the octets before the current one, `val` and `digits` its
value and its number of digits so far. -/
def parseV4Fields : List Char → List Nat → Nat → Nat → Option (List Nat)
  | [], fields, val, _ => if fields.length < 3 then none else some (fields ++ [val])
  | c :: s, fields, val, digits =>
      match decVal c with
      | some d =>
          -- an octet has no leading zero and fits a byte
          if digits = 1 ∧ val = 0 then none
          else if val * 10 + d > 255 then none
          else parseV4Fields s fields (val * 10 + d) (digits + 1)
      | none =>
          if c = '.' then
            if digits = 0 ∨ s = [] then none
            else if fields.length = 3 then none
            else parseV4Fields s (fields ++ [val]) 0 0
          else none

/-- Dotted decimal. -/
def dotted : List Nat → List Char
  | [] => []
  | [x] => decimal x
  | x :: xs => decimal x ++ '.' :: dotted xs

theorem dotted_cons (x y : Nat) (xs : List Nat) :
    dotted (x :: y :: xs) = decimal x ++ '.' :: dotted (y :: xs) := rfl

theorem decVal_dot : decVal '.' = none := by decide

/-- Reading one octet, up to the end or a dot. -/
theorem parseV4Fields_decimal {x : Nat} (h : x < 256) (s : List Char) (fields : List Nat) :
    parseV4Fields (decimal x ++ s) fields 0 0 =
      parseV4Fields s fields x (decimal x).length := by
  have hd : ∀ d, d < 10 → ∀ (s : List Char) (fields : List Nat) (v n : Nat),
      ¬ (n = 1 ∧ v = 0) → v * 10 + d ≤ 255 →
      parseV4Fields (digitChar d :: s) fields v n =
        parseV4Fields s fields (v * 10 + d) (n + 1) := by
    intro d hd s fields v n h₁ h₂
    rw [parseV4Fields, decVal_digitChar hd]
    simp only [if_neg h₁, if_neg (show ¬ v * 10 + d > 255 by omega)]
  unfold decimal
  by_cases h100 : 100 ≤ x
  · have h10 : 10 ≤ x := by omega
    simp only [if_pos h100, if_pos h10, List.cons_append, List.nil_append]
    rw [hd _ (by omega) _ _ _ _ (by omega) (by omega),
      hd _ (by omega) _ _ _ _ (by omega) (by omega),
      hd _ (by omega) _ _ _ _ (by omega) (by omega)]
    congr 1
    omega
  · by_cases h10 : 10 ≤ x
    · simp only [if_neg h100, if_pos h10, List.cons_append, List.nil_append]
      rw [hd _ (by omega) _ _ _ _ (by omega) (by omega),
        hd _ (by omega) _ _ _ _ (by omega) (by omega)]
      congr 1
      omega
    · simp only [if_neg h100, if_neg h10, List.cons_append, List.nil_append]
      rw [hd _ (by omega) _ _ _ _ (by omega) (by omega)]
      congr 1
      omega

theorem dotted_ne_nil {xs : List Nat} (h : xs ≠ []) : dotted xs ≠ [] := by
  match xs with
  | [] => exact absurd rfl h
  | [x] => simpa [dotted] using decimal_ne_nil x
  | x :: y :: xs => simp [dotted]

/-- No two bytes have the same text. -/
theorem decimal_injective {x y : Nat} (hx : x < 256) (hy : y < 256) (h : decimal x = decimal y) :
    x = y := by
  have hread : ∀ {x}, x < 256 → parseV4Fields (decimal x) [0, 0, 0] 0 0 = some [0, 0, 0, x] := by
    intro x hx
    have hfields := parseV4Fields_decimal hx [] [0, 0, 0]
    rw [List.append_nil] at hfields
    exact hfields
  have heq := hread hx
  rw [h, hread hy] at heq
  simpa using heq.symm

theorem dot_not_mem_decimal {x : Nat} (h : x < 256) : '.' ∉ decimal x := by
  intro hmem
  obtain ⟨d, hd, heq⟩ := decimal_digits h _ hmem
  exact not_separator_digitChar (Nat.lt_trans hd (by decide)) (.inl heq.symm)

/-- Texts with the same beginning have the same first field. -/
theorem field_prefix_iff : ∀ {x y s t : List Char}, '.' ∉ x → '.' ∉ y →
    (x ++ '.' :: s <+: y ++ '.' :: t ↔ x = y ∧ s <+: t)
  | [], [], _, _, _, _ => by simp
  | [], c :: y, _, _, _, hy => by
      have hc : '.' ≠ c := fun h => hy (h ▸ List.mem_cons_self)
      simp [hc]
  | c :: x, [], _, _, hx, _ => by
      have hc : c ≠ '.' := fun h => hx (h ▸ List.mem_cons_self)
      simp [hc]
  | c :: x, c' :: y, s, t, hx, hy => by
      have ih := field_prefix_iff (s := s) (t := t) (fun h => hx (List.mem_cons_of_mem _ h))
        fun h => hy (List.mem_cons_of_mem _ h)
      rw [List.cons_append, List.cons_append, List.cons_prefix_cons, ih, List.cons.injEq, and_assoc]

theorem parseV4Fields_dotted :
    ∀ {xs : List Nat}, (∀ x ∈ xs, x < 256) → xs ≠ [] → ∀ {fields : List Nat},
      fields.length + xs.length = 4 → parseV4Fields (dotted xs) fields 0 0 = some (fields ++ xs)
  | [], _, h, _, _ => absurd rfl h
  | [x], hx, _, fields, hl => by
      have h := parseV4Fields_decimal (hx x (by simp)) [] fields
      have h3 : ¬ fields.length < 3 := by simp at hl; omega
      rw [List.append_nil] at h
      rw [dotted, h, parseV4Fields, if_neg h3]
  | x :: y :: xs, hx, _, fields, hl => by
      have hpos : ¬ ((decimal x).length = 0 ∨ dotted (y :: xs) = []) := by
        simp [decimal_ne_nil, dotted_ne_nil]
      have h3 : ¬ fields.length = 3 := by simp at hl; omega
      rw [dotted_cons, parseV4Fields_decimal (hx x (by simp)), parseV4Fields, decVal_dot]
      simp only [if_true, if_neg hpos, if_neg h3]
      rw [parseV4Fields_dotted (fun z hz => hx z (List.mem_cons_of_mem _ hz)) (by simp)
        (by simp at hl ⊢; omega)]
      simp

/-! ### IPv6 text -/

/-- Reads a run of hexadecimal digits: how many there are, their value and the rest. A group has
at most four digits. -/
def readHex : List Char → Nat → Nat → Option (Nat × Nat × List Char)
  | [], off, acc => some (off, acc, [])
  | c :: s, off, acc =>
      match hexVal c with
      | some d =>
          if off > 3 then none
          else if acc * 16 + d > 0xffff then none
          else readHex s (off + 1) (acc * 16 + d)
      | none => some (off, acc, c :: s)

/-- Reads groups separated by colons: `gs` are the groups so far and `ellipsis` the place of the
`::` among them. The count is the number of groups there is room for. -/
def parseGroups : Nat → List Char → List Nat → Option Nat →
    Option (List Nat × Option Nat × List Char)
  | 0, s, gs, ellipsis => some (gs, ellipsis, s)
  | n + 1, s, gs, ellipsis =>
      match readHex s 0 0 with
      | none => none
      | some (0, _, _) => none
      | some (_, _, '.' :: _) =>
          -- the last two groups may be an IPv4 address
          if ellipsis = none ∧ gs.length ≠ 6 then none
          else if gs.length + 2 > 8 then none
          else
            match parseV4Fields s [] 0 0 with
            | some [a, b, c, d] => some (gs ++ [a * 256 + b, c * 256 + d], ellipsis, [])
            | _ => none
      | some (_, acc, []) => some (gs ++ [acc], ellipsis, [])
      | some (_, acc, ':' :: ':' :: s') =>
          if ellipsis.isSome then none
          else if s' = [] then some (gs ++ [acc], some (gs.length + 1), [])
          else parseGroups n s' (gs ++ [acc]) (some (gs.length + 1))
      | some (_, acc, ':' :: c :: s') => parseGroups n (c :: s') (gs ++ [acc]) ellipsis
      | some (_, _, _ :: _) => none

/-- Fills the place of the `::` with zero groups, up to eight. -/
def expandEllipsis (gs : List Nat) (ellipsis : Option Nat) : Option (List Nat) :=
  match ellipsis with
  | none => if gs.length < 8 then none else some gs
  | some k =>
      if gs.length < 8 then some (gs.take k ++ List.replicate (8 - gs.length) 0 ++ gs.drop k)
      else none

/-- The eight groups of an IPv6 text without a zone. -/
def parseV6 (s : List Char) : Option (List Nat) :=
  match s with
  | [':', ':'] => some (List.replicate 8 0)
  | ':' :: ':' :: s' => finish (parseGroups 8 s' [] (some 0))
  | s => finish (parseGroups 8 s [] none)
where
  finish : Option (List Nat × Option Nat × List Char) → Option (List Nat)
    | some (gs, ellipsis, []) => expandEllipsis gs ellipsis
    | _ => none

/-- Groups separated by colons. -/
def colon : List Nat → List Char
  | [] => []
  | [x] => hex x
  | x :: xs => hex x ++ ':' :: colon xs

/-- The number of zero groups from the `i`-th on. -/
def zerosAt (gs : List Nat) (i : Nat) : Nat := ((gs.drop i).takeWhile (· = 0)).length

/-- The run of zero groups at `i`, if there are at least two and it is longer than the best. -/
def longerRun (gs : List Nat) (best : Option (Nat × Nat)) (i : Nat) : Option (Nat × Nat) :=
  if 2 ≤ zerosAt gs i ∧ (best.elim 0 fun p => p.2 - p.1) < zerosAt gs i then
    some (i, i + zerosAt gs i)
  else best

/-- The first longest run of at least two zero groups: its start and its end. -/
def zeroRun (gs : List Nat) : Option (Nat × Nat) :=
  (List.range gs.length).foldl (longerRun gs) none

/-- The text of eight groups. -/
def textV6 (gs : List Nat) : List Char :=
  match zeroRun gs with
  | none => colon gs
  | some (i, j) => colon (gs.take i) ++ ':' :: ':' :: colon (gs.drop j)

theorem colon_cons (x y : Nat) (xs : List Nat) :
    colon (x :: y :: xs) = hex x ++ ':' :: colon (y :: xs) := rfl

theorem hexVal_colon : hexVal ':' = none := by decide

theorem colon_ne_nil {xs : List Nat} (h : xs ≠ []) : colon xs ≠ [] := by
  match xs with
  | [] => exact absurd rfl h
  | [x] => simpa [colon] using hex_ne_nil x
  | x :: y :: xs => simp [colon]

/-- Reading one group, up to the end or a character that is no digit. -/
theorem readHex_hex {x : Nat} (h : x < 65536) {s : List Char}
    (hs : s.head?.bind hexVal = none) :
    readHex (hex x ++ s) 0 0 = some ((hex x).length, x, s) := by
  have hd : ∀ d, d < 16 → ∀ (s : List Char) (n v : Nat), n ≤ 3 → v * 16 + d ≤ 0xffff →
      readHex (digitChar d :: s) n v = readHex s (n + 1) (v * 16 + d) := by
    intro d hd s n v hn hv
    rw [readHex, hexVal_digitChar hd]
    simp only [if_neg (show ¬ n > 3 by omega), if_neg (show ¬ v * 16 + d > 0xffff by omega)]
  have hend : ∀ n v, readHex s n v = some (n, v, s) := by
    intro n v
    match s, hs with
    | [], _ => rfl
    | c :: s, hs =>
        have hc : hexVal c = none := by simpa using hs
        rw [readHex, hc]
  unfold hex
  -- one case for each number of digits: no group has a leading zero
  by_cases h3 : 0x1000 ≤ x
  · have h2 : 0x100 ≤ x := by omega
    have h1 : 0x10 ≤ x := by omega
    simp only [if_pos h3, if_pos h2, if_pos h1, List.cons_append, List.nil_append]
    rw [hd _ (by omega) _ _ _ (by omega) (by omega), hd _ (by omega) _ _ _ (by omega) (by omega),
      hd _ (by omega) _ _ _ (by omega) (by omega), hd _ (by omega) _ _ _ (by omega) (by omega),
      hend]
    simp only [List.length_cons, List.length_nil, Option.some.injEq, Prod.mk.injEq, true_and,
      and_true]
    omega
  · by_cases h2 : 0x100 ≤ x
    · have h1 : 0x10 ≤ x := by omega
      simp only [if_neg h3, if_pos h2, if_pos h1, List.cons_append, List.nil_append]
      rw [hd _ (by omega) _ _ _ (by omega) (by omega),
        hd _ (by omega) _ _ _ (by omega) (by omega),
        hd _ (by omega) _ _ _ (by omega) (by omega), hend]
      simp only [List.length_cons, List.length_nil, Option.some.injEq, Prod.mk.injEq, true_and,
        and_true]
      omega
    · by_cases h1 : 0x10 ≤ x
      · simp only [if_neg h3, if_neg h2, if_pos h1, List.cons_append, List.nil_append]
        rw [hd _ (by omega) _ _ _ (by omega) (by omega),
          hd _ (by omega) _ _ _ (by omega) (by omega), hend]
        simp only [List.length_cons, List.length_nil, Option.some.injEq, Prod.mk.injEq, true_and,
          and_true]
        omega
      · simp only [if_neg h3, if_neg h2, if_neg h1, List.cons_append, List.nil_append]
        rw [hd _ (by omega) _ _ _ (by omega) (by omega), hend]
        simp only [List.length_cons, List.length_nil, Option.some.injEq, Prod.mk.injEq, true_and,
          and_true]
        omega

/-- The first character of a list of groups is a digit. -/
theorem colon_head {y : Nat} (hy : y < 65536) (xs : List Nat) :
    ∃ c s, colon (y :: xs) = c :: s ∧ c ≠ ':' := by
  have hc : ∀ c ∈ hex y, c ≠ ':' := by
    rintro c hc rfl
    obtain ⟨d, hd, hcd⟩ := hex_digits hy _ hc
    exact not_separator_digitChar hd (by simp [Separator, ← hcd])
  obtain ⟨c, s, hcs⟩ := List.exists_cons_of_ne_nil (hex_ne_nil y)
  rw [hcs] at hc
  match xs with
  | [] => exact ⟨c, s, hcs, hc c List.mem_cons_self⟩
  | z :: zs =>
      refine ⟨c, s ++ ':' :: colon (z :: zs), ?_, hc c List.mem_cons_self⟩
      rw [colon_cons, hcs, List.cons_append]

theorem hex_length_ne_zero (x : Nat) : (hex x).length ≠ 0 := by simp [hex_ne_nil]

/-- The last group. -/
theorem parseGroups_last {x : Nat} (h : x < 65536) (n : Nat) (gs : List Nat) (e : Option Nat) :
    parseGroups (n + 1) (hex x) gs e = some (gs ++ [x], e, []) := by
  have hr := readHex_hex h (s := []) rfl
  obtain ⟨l, hl⟩ := Nat.exists_eq_succ_of_ne_zero (hex_length_ne_zero x)
  rw [List.append_nil, hl] at hr
  rw [parseGroups, hr]
  rfl

/-- A group before a single colon. -/
theorem parseGroups_group {x : Nat} (h : x < 65536) (n : Nat) {c : Char} (hc : c ≠ ':')
    (s : List Char) (gs : List Nat) (e : Option Nat) :
    parseGroups (n + 1) (hex x ++ ':' :: c :: s) gs e = parseGroups n (c :: s) (gs ++ [x]) e := by
  have hr := readHex_hex h (s := ':' :: c :: s) hexVal_colon
  obtain ⟨l, hl⟩ := Nat.exists_eq_succ_of_ne_zero (hex_length_ne_zero x)
  rw [hl] at hr
  rw [parseGroups, hr]
  simp

/-- A group before the `::`. -/
theorem parseGroups_ellipsis {x : Nat} (h : x < 65536) (n : Nat) (s : List Char)
    (gs : List Nat) :
    parseGroups (n + 1) (hex x ++ ':' :: ':' :: s) gs none =
      if s = [] then some (gs ++ [x], some (gs.length + 1), [])
      else parseGroups n s (gs ++ [x]) (some (gs.length + 1)) := by
  have hr := readHex_hex h (s := ':' :: ':' :: s) hexVal_colon
  obtain ⟨l, hl⟩ := Nat.exists_eq_succ_of_ne_zero (hex_length_ne_zero x)
  rw [hl] at hr
  rw [parseGroups, hr]
  simp

/-- Groups up to the end of the text. -/
theorem parseGroups_colon : ∀ {xs : List Nat}, (∀ x ∈ xs, x < 65536) → xs ≠ [] →
    ∀ {n : Nat}, xs.length ≤ n → ∀ (gs : List Nat) (e : Option Nat),
      parseGroups n (colon xs) gs e = some (gs ++ xs, e, [])
  | [], _, h, _, _, _, _ => absurd rfl h
  | [x], hx, _, n + 1, _, gs, e => parseGroups_last (hx x (by simp)) n gs e
  | x :: y :: xs, hx, _, n + 1, hn, gs, e => by
      have hys : ∀ z ∈ y :: xs, z < 65536 := fun z hz => hx z (List.mem_cons_of_mem _ hz)
      obtain ⟨c, s, hcs, hc⟩ := colon_head (hys y (by simp)) xs
      have ih := parseGroups_colon hys (by simp) (Nat.le_of_succ_le_succ hn) (gs ++ [x]) e
      rw [colon_cons, hcs, parseGroups_group (hx x (by simp)) n hc, ← hcs, ih]
      simp

/-- Groups up to the `::`. -/
theorem parseGroups_colon_ellipsis : ∀ {xs : List Nat}, (∀ x ∈ xs, x < 65536) → xs ≠ [] →
    ∀ {n : Nat}, xs.length ≤ n → ∀ (s : List Char) (gs : List Nat),
      parseGroups n (colon xs ++ ':' :: ':' :: s) gs none =
        if s = [] then some (gs ++ xs, some (gs.length + xs.length), [])
        else parseGroups (n - xs.length) s (gs ++ xs) (some (gs.length + xs.length))
  | [], _, h, _, _, _, _ => absurd rfl h
  | [x], hx, _, n + 1, _, s, gs => parseGroups_ellipsis (hx x (by simp)) n s gs
  | x :: y :: xs, hx, _, n + 1, hn, s, gs => by
      have hys : ∀ z ∈ y :: xs, z < 65536 := fun z hz => hx z (List.mem_cons_of_mem _ hz)
      obtain ⟨c, t, hct, hc⟩ := colon_head (hys y (by simp)) xs
      have ih := parseGroups_colon_ellipsis hys (by simp) (Nat.le_of_succ_le_succ hn) s (gs ++ [x])
      have hlen : (gs ++ [x]).length + (y :: xs).length = gs.length + (x :: y :: xs).length := by
        simp; omega
      have hsub : n - (y :: xs).length = n + 1 - (x :: y :: xs).length := by simp
      rw [colon_cons, List.append_assoc, List.cons_append, hct, List.cons_append,
        parseGroups_group (hx x (by simp)) n hc, ← List.cons_append, ← hct, ih, hlen, hsub]
      simp

/-- `p` bounds a run of at least two zero groups. -/
def IsZeroRun (gs : List Nat) (p : Nat × Nat) : Prop :=
  p.1 + 2 ≤ p.2 ∧ p.2 ≤ gs.length ∧
    gs = gs.take p.1 ++ List.replicate (p.2 - p.1) 0 ++ gs.drop p.2

theorem isZeroRun_zerosAt {gs : List Nat} {i : Nat} (h : 2 ≤ zerosAt gs i) :
    IsZeroRun gs (i, i + zerosAt gs i) := by
  have hzero : (gs.drop i).takeWhile (· = 0) = List.replicate (zerosAt gs i) 0 := by
    refine List.eq_replicate_iff.mpr ⟨rfl, fun x hx => ?_⟩
    simpa using List.mem_takeWhile_imp hx
  have hle : zerosAt gs i ≤ (gs.drop i).length := (List.takeWhile_prefix _).length_le
  have hdrop : (gs.drop i).dropWhile (· = 0) = gs.drop (i + zerosAt gs i) := by
    have h₁ := congrArg (List.drop (zerosAt gs i))
      (List.takeWhile_append_dropWhile (p := (· = 0)) (l := gs.drop i))
    rwa [zerosAt, List.drop_left, ← zerosAt, List.drop_drop] at h₁
  refine ⟨Nat.add_le_add_left h i, ?_, ?_⟩
  · rw [List.length_drop] at hle
    show i + zerosAt gs i ≤ gs.length
    omega
  · rw [Nat.add_sub_cancel_left, ← hzero, ← hdrop, List.append_assoc,
      List.takeWhile_append_dropWhile, List.take_append_drop]

/-- What `zeroRun` picks is a run of zero groups. -/
theorem zeroRun_spec {gs : List Nat} {p : Nat × Nat} (h : zeroRun gs = some p) :
    IsZeroRun gs p := by
  have hinv : ∀ (is : List Nat) (best : Option (Nat × Nat)), (∀ p ∈ best, IsZeroRun gs p) →
      ∀ p ∈ is.foldl (longerRun gs) best, IsZeroRun gs p := by
    intro is
    induction is with
    | nil => exact fun _ hb => hb
    | cons i is ih =>
        intro best hb
        refine ih _ fun p hp => ?_
        by_cases hl : 2 ≤ zerosAt gs i ∧ (best.elim 0 fun p => p.2 - p.1) < zerosAt gs i
        · rw [longerRun, if_pos hl] at hp
          cases hp
          exact isZeroRun_zerosAt hl.1
        · rw [longerRun, if_neg hl] at hp
          exact hb p hp
  exact hinv _ none (fun _ h => nomatch h) p h

theorem colon_eq_nil {xs : List Nat} : colon xs = [] ↔ xs = [] :=
  ⟨fun h => not_not.mp fun hx => colon_ne_nil hx h, fun h => h ▸ rfl⟩

/-- A text that does not begin with a colon has no leading `::`. -/
theorem parseV6_of_head {c : Char} (h : c ≠ ':') (s : List Char) :
    parseV6 (c :: s) = parseV6.finish (parseGroups 8 (c :: s) [] none) := by
  rw [parseV6]
  · rintro ⟨⟩; exact h rfl
  · rintro s' ⟨⟩; exact h rfl

theorem expandEllipsis_gap {l r : List Nat} (h : l.length + r.length < 8) :
    expandEllipsis (l ++ r) (some l.length) =
      some (l ++ List.replicate (8 - (l.length + r.length)) 0 ++ r) := by
  simp [expandEllipsis, h]

/-- **Reading the text of eight groups gives the groups back.** -/
theorem parseV6_textV6 {gs : List Nat} (hlen : gs.length = 8) (h16 : ∀ g ∈ gs, g < 65536) :
    parseV6 (textV6 gs) = some gs := by
  have hne : gs ≠ [] := fun h => by simp [h] at hlen
  cases hz : zeroRun gs with
  | none =>
      obtain ⟨y, ys, rfl⟩ := List.exists_cons_of_ne_nil hne
      obtain ⟨c, s, hcs, hc⟩ := colon_head (h16 y (by simp)) ys
      have hp := parseGroups_colon h16 hne (Nat.le_of_eq hlen) [] none
      rw [textV6, hz]
      show parseV6 (colon (y :: ys)) = _
      rw [hcs, parseV6_of_head hc, ← hcs, hp]
      simp [parseV6.finish, expandEllipsis, hlen]
  | some p =>
      obtain ⟨i, j⟩ := p
      obtain ⟨hij, hj, hgs⟩ := zeroRun_spec hz
      simp only at hij hj hgs
      have hL : ∀ g ∈ gs.take i, g < 65536 := fun g hg => h16 g (List.mem_of_mem_take hg)
      have hR : ∀ g ∈ gs.drop j, g < 65536 := fun g hg => h16 g (List.mem_of_mem_drop hg)
      have hLlen : (gs.take i).length = i := by simp; omega
      have hRlen : (gs.drop j).length = 8 - j := by simp [hlen]
      have hgap : 8 - ((gs.take i).length + (gs.drop j).length) = j - i := by omega
      have hlt : (gs.take i).length + (gs.drop j).length < 8 := by omega
      have hexp := expandEllipsis_gap hlt
      rw [hgap, ← hgs] at hexp
      have htext : textV6 gs = colon (gs.take i) ++ ':' :: ':' :: colon (gs.drop j) := by
        rw [textV6, hz]
      rw [htext]
      generalize gs.take i = L at *
      generalize gs.drop j = R at *
      match L, R with
      | [], [] =>
          -- all groups are zero
          have hji : j - i = 8 := by simp at hgap; omega
          rw [hgs, hji]
          rfl
      | [], r :: rs =>
          obtain ⟨c, s, hcs, hc⟩ := colon_head (hR r (by simp)) rs
          have hp := parseGroups_colon hR (by simp) (n := 8) (by omega) [] (some 0)
          have hread : parseV6 (colon [] ++ ':' :: ':' :: colon (r :: rs)) =
              parseV6.finish (parseGroups 8 (colon (r :: rs)) [] (some 0)) := by
            rw [hcs]
            rfl
          rw [hread, hp]
          exact hexp
      | l :: ls, R =>
          obtain ⟨c, s, hcs, hc⟩ := colon_head (hL l (by simp)) ls
          have hp := parseGroups_colon_ellipsis hL (by simp) (n := 8) (by omega) (colon R) []
          have hread : parseV6 (colon (l :: ls) ++ ':' :: ':' :: colon R) =
              parseV6.finish
                (parseGroups 8 (colon (l :: ls) ++ ':' :: ':' :: colon R) [] none) := by
            rw [hcs, List.cons_append, parseV6_of_head hc]
          rw [hread, hp]
          simp only [colon_eq_nil, List.nil_append, List.length_nil, Nat.zero_add]
          match R with
          | [] =>
              rw [if_pos rfl]
              simpa [parseV6.finish] using hexp
          | r :: rs =>
              rw [if_neg (by simp), parseGroups_colon hR (by simp) (by omega)]
              exact hexp

/-! ### Addresses as text -/

/-- The 16-bit groups of a list of bytes. -/
def groups : List UInt8 → List Nat
  | a :: b :: s => (a.toNat * 256 + b.toNat) :: groups s
  | _ => []

def ofGroups (gs : List Nat) : List UInt8 :=
  gs.flatMap fun g => [UInt8.ofNat (g / 256), UInt8.ofNat (g % 256)]

/-- The text of an address. -/
def IP.text (ip : IP) : List Char :=
  match ip.to4 with
  | some bs => dotted (bs.map UInt8.toNat)
  | none => textV6 (groups ip.bytes)

/-- The address in 16 bytes, when there are as many. -/
def IP.ofBytes (bs : List UInt8) : Option IP :=
  if h : bs.length = 16 then some (IP.of16 bs h) else none

/-- The address a text denotes, in 16 bytes. The first of `.`, `:` and `%` decides how the text
is read, and an address with a zone is refused. -/
def parseIP (s : List Char) : Option IP :=
  match s.find? fun c => c = '.' ∨ c = ':' ∨ c = '%' with
  | some '.' =>
      (parseV4Fields s [] 0 0).bind fun fs => IP.ofBytes (mappedPrefix ++ fs.map UInt8.ofNat)
  | some ':' => if '%' ∈ s then none else (parseV6 s).bind fun gs => IP.ofBytes (ofGroups gs)
  | _ => none

theorem length_groups : ∀ {n : Nat} {bs : List UInt8}, bs.length = 2 * n →
    (groups bs).length = n
  | 0, [], _ => rfl
  | n + 1, a :: b :: s, h => by
      have hs : s.length = 2 * n := by simp at h; omega
      simp [groups, length_groups hs]

theorem groups_lt : ∀ {bs : List UInt8}, ∀ g ∈ groups bs, g < 65536
  | [], _, h => nomatch h
  | [_], _, h => nomatch h
  | a :: b :: s, g, h => by
      rcases List.mem_cons.mp h with rfl | h
      · have := a.toNat_lt
        have := b.toNat_lt
        omega
      · exact groups_lt g h

theorem ofGroups_groups : ∀ {n : Nat} {bs : List UInt8}, bs.length = 2 * n →
    ofGroups (groups bs) = bs
  | 0, [], _ => rfl
  | n + 1, a :: b :: s, h => by
      have hs : s.length = 2 * n := by simp at h; omega
      have ha : (a.toNat * 256 + b.toNat) / 256 = a.toNat := by
        have := b.toNat_lt
        omega
      have hb : (a.toNat * 256 + b.toNat) % 256 = b.toNat := by
        have := b.toNat_lt
        omega
      have ih := ofGroups_groups hs
      rw [ofGroups] at ih ⊢
      rw [groups, List.flatMap_cons, ih, ha, hb]
      simp

theorem mem_dotted : ∀ {xs : List Nat}, (∀ x ∈ xs, x < 256) → ∀ c ∈ dotted xs,
    c = '.' ∨ ∃ d < 16, c = digitChar d
  | [], _, _, h => nomatch h
  | [x], hx, c, h => by
      obtain ⟨d, hd, hc⟩ := decimal_digits (hx x (by simp)) c h
      exact .inr ⟨d, by omega, hc⟩
  | x :: y :: xs, hx, c, h => by
      rw [dotted_cons, List.mem_append, List.mem_cons] at h
      rcases h with h | h | h
      · obtain ⟨d, hd, hc⟩ := decimal_digits (hx x (by simp)) c h
        exact .inr ⟨d, by omega, hc⟩
      · exact .inl h
      · exact mem_dotted (fun z hz => hx z (List.mem_cons_of_mem _ hz)) c h

theorem mem_colon : ∀ {xs : List Nat}, (∀ x ∈ xs, x < 65536) → ∀ c ∈ colon xs,
    c = ':' ∨ ∃ d < 16, c = digitChar d
  | [], _, _, h => nomatch h
  | [x], hx, c, h => .inr (hex_digits (hx x (by simp)) c h)
  | x :: y :: xs, hx, c, h => by
      rw [colon_cons, List.mem_append, List.mem_cons] at h
      rcases h with h | h | h
      · exact .inr (hex_digits (hx x (by simp)) c h)
      · exact .inl h
      · exact mem_colon (fun z hz => hx z (List.mem_cons_of_mem _ hz)) c h

theorem mem_textV6 {gs : List Nat} (h : ∀ g ∈ gs, g < 65536) :
    ∀ c ∈ textV6 gs, c = ':' ∨ ∃ d < 16, c = digitChar d := by
  intro c hc
  unfold textV6 at hc
  split at hc
  · exact mem_colon h c hc
  · simp only [List.mem_append, List.mem_cons] at hc
    rcases hc with hc | hc | hc | hc
    · exact mem_colon (fun g hg => h g (List.mem_of_mem_take hg)) c hc
    · exact .inl hc
    · exact .inl hc
    · exact mem_colon (fun g hg => h g (List.mem_of_mem_drop hg)) c hc

/-- A text of digits and one separator, which it has, is read the way the separator says. -/
theorem find_mark {sep : Char} {s : List Char} (hsep : sep = '.' ∨ sep = ':')
    (h : ∀ c ∈ s, c = sep ∨ ∃ d < 16, c = digitChar d) (hmem : sep ∈ s) :
    (s.find? fun c => c = '.' ∨ c = ':' ∨ c = '%') = some sep := by
  cases hf : s.find? fun c => c = '.' ∨ c = ':' ∨ c = '%' with
  | none =>
      have := List.find?_eq_none.mp hf sep hmem
      rcases hsep with rfl | rfl <;> simp at this
  | some c =>
      have hc := List.find?_some hf
      rcases h c (List.mem_of_find?_eq_some hf) with rfl | ⟨d, hd, rfl⟩
      · rfl
      · refine absurd ?_ (not_separator_digitChar hd)
        simp only [decide_eq_true_eq] at hc
        unfold Separator
        tauto

theorem dot_mem_dotted (x y : Nat) (xs : List Nat) : '.' ∈ dotted (x :: y :: xs) := by
  simp [dotted_cons]

theorem colon_mem_textV6 {gs : List Nat} (h : gs.length = 8) : ':' ∈ textV6 gs := by
  unfold textV6
  split
  · match gs, h with
    | x :: y :: zs, _ => simp [colon_cons]
  · simp

theorem map_toNat_lt (bs : List UInt8) : ∀ x ∈ bs.map UInt8.toNat, x < 256 := by
  intro x hx
  obtain ⟨b, -, rfl⟩ := List.mem_map.mp hx
  exact b.toNat_lt

theorem map_toNat_ofNat (bs : List UInt8) : (bs.map UInt8.toNat).map UInt8.ofNat = bs := by
  simp [Function.comp_def]

/-- **Reading the text of an address gives the address back**, in its 16-byte form. -/
theorem parseIP_text (ip : IP) : parseIP ip.text = some (IP.of16 ip.to16 ip.length_to16) := by
  cases h4 : ip.to4 with
  | some bs =>
      have hlen := IP.to4_length h4
      have hlt := map_toNat_lt bs
      have hmark : '.' ∈ dotted (bs.map UInt8.toNat) := by
        match bs, hlen with
        | a :: b :: cs, _ => exact dot_mem_dotted a.toNat b.toNat _
      have hne : bs.map UInt8.toNat ≠ [] := fun h => by simp [List.map_eq_nil_iff.mp h] at hlen
      have hparse : parseV4Fields (dotted (bs.map UInt8.toNat)) [] 0 0 =
          some (bs.map UInt8.toNat) := parseV4Fields_dotted hlt hne (by simp [hlen])
      have h16 := IP.to16_of_to4 h4
      have htext : ip.text = dotted (bs.map UInt8.toNat) := by rw [IP.text, h4]
      rw [htext, parseIP, find_mark (.inl rfl) (mem_dotted hlt) hmark]
      simp only [hparse, Option.bind_some, map_toNat_ofNat, ← h16]
      rw [IP.ofBytes, dif_pos ip.length_to16]
  | none =>
      have hbytes : ip.to16 = ip.bytes := by
        rw [IP.to16, if_neg]
        intro hl
        simp [IP.to4, hl] at h4
      have hlen : ip.bytes.length = 2 * 8 := by rw [← hbytes, ip.length_to16]
      have hmem : ∀ c ∈ textV6 (groups ip.bytes), c = ':' ∨ ∃ d < 16, c = digitChar d :=
        mem_textV6 groups_lt
      have hpct : '%' ∉ textV6 (groups ip.bytes) := by
        intro hc
        rcases hmem _ hc with hc | ⟨d, hd, hc⟩
        · exact absurd hc (by decide)
        · exact not_separator_digitChar hd (by simp [Separator, ← hc])
      have htext : ip.text = textV6 (groups ip.bytes) := by rw [IP.text, h4]
      rw [htext, parseIP, find_mark (.inr rfl) hmem (colon_mem_textV6 (length_groups hlen))]
      show (if '%' ∈ textV6 (groups ip.bytes) then none
        else (parseV6 (textV6 (groups ip.bytes))).bind fun gs => IP.ofBytes (ofGroups gs)) = _
      rw [if_neg hpct, parseV6_textV6 (length_groups hlen) groups_lt, Option.bind_some,
        ofGroups_groups hlen, IP.ofBytes, dif_pos (hbytes ▸ ip.length_to16)]
      simp only [hbytes]

/-! ### Host and port -/

/-- Joins a host and a port, with brackets around a host that has a colon. -/
def joinHostPort (host port : List Char) : List Char :=
  if ':' ∈ host then '[' :: (host ++ ']' :: ':' :: port) else host ++ ':' :: port

/-- Why an address is not `host:port`. -/
inductive AddrError where
  | missingPort
  | tooManyColons
  | missingBracket
  | unexpectedLeft
  | unexpectedRight
deriving DecidableEq, Repr

def AddrError.reason : AddrError → String
  | missingPort => "missing port in address"
  | tooManyColons => "too many colons in address"
  | missingBracket => "missing ']' in address"
  | unexpectedLeft => "unexpected '[' in address"
  | unexpectedRight => "unexpected ']' in address"

/-- What stands before and after the last colon. -/
def splitLast : List Char → Option (List Char × List Char)
  | [] => none
  | c :: s =>
      match splitLast s with
      | some (l, r) => some (c :: l, r)
      | none => if c = ':' then some ([], s) else none

/-- The host of `[host]:port`, after its opening bracket: the first closing bracket ends it, and
the last colon of the text comes right after. -/
def bracketHost (inner port : List Char) : Except AddrError (List Char) :=
  match inner.dropWhile (· ≠ ']') with
  | [] => .error .missingBracket
  | [_] => .error .missingPort
  | _ :: rest =>
      if rest = ':' :: port then
        if '[' ∈ inner then .error .unexpectedLeft
        else if ']' ∈ rest then .error .unexpectedRight
        else .ok (inner.takeWhile (· ≠ ']'))
      else if rest.head? = some ':' then .error .tooManyColons
      else .error .missingPort

/-- Takes apart `host:port` or `[host]:port`. -/
def splitHostPort (s : List Char) : Except AddrError (List Char × List Char) :=
  match splitLast s with
  | none => .error .missingPort
  | some (before, port) =>
      if s.head? = some '[' then (bracketHost s.tail port).map (·, port)
      else if ':' ∈ before then .error .tooManyColons
      else if '[' ∈ s then .error .unexpectedLeft
      else if ']' ∈ s then .error .unexpectedRight
      else .ok (before, port)

theorem splitLast_eq_none : ∀ {p : List Char}, splitLast p = none ↔ ':' ∉ p
  | [] => by simp [splitLast]
  | c :: p => by
      cases hp : splitLast p with
      | some lr =>
          have hmem : ':' ∈ p := not_not.mp fun h => by simp [splitLast_eq_none.mpr h] at hp
          simp [splitLast, hp, hmem]
      | none => simp [splitLast, hp, splitLast_eq_none.mp hp, eq_comm]

theorem splitLast_append {p : List Char} (hp : ':' ∉ p) :
    ∀ xs : List Char, splitLast (xs ++ ':' :: p) = some (xs, p)
  | [] => by rw [List.nil_append, splitLast, splitLast_eq_none.mpr hp, if_pos rfl]
  | c :: xs => by rw [List.cons_append, splitLast, splitLast_append hp xs]

theorem splitLast_spec : ∀ {s before port : List Char}, splitLast s = some (before, port) →
    s = before ++ ':' :: port ∧ ':' ∉ port
  | [], _, _, h => nomatch h
  | c :: s, before, port, h => by
      rw [splitLast] at h
      cases hs : splitLast s with
      | some lr =>
          rw [hs] at h
          obtain ⟨rfl, rfl⟩ : c :: lr.1 = before ∧ lr.2 = port := by simpa using h
          obtain ⟨hs', hp⟩ := splitLast_spec hs
          exact ⟨by rw [hs']; rfl, hp⟩
      | none =>
          rw [hs] at h
          by_cases hc : c = ':'
          · rw [if_pos hc] at h
            obtain ⟨rfl, rfl⟩ : [] = before ∧ s = port := by simpa using h
            exact ⟨by rw [hc]; rfl, splitLast_eq_none.mp hs⟩
          · rw [if_neg hc] at h
            cases h

/-- **Taking apart what was put together**, for a host without brackets and a port without any
separator. -/
theorem split_join {host port : List Char} (hl : '[' ∉ host) (hr : ']' ∉ host)
    (hc : ':' ∉ port) (hpl : '[' ∉ port) (hpr : ']' ∉ port) :
    splitHostPort (joinHostPort host port) = .ok (host, port) := by
  by_cases hcolon : ':' ∈ host
  · -- the host stands in brackets
    have hlast : splitLast ('[' :: (host ++ ']' :: ':' :: port)) =
        some ('[' :: (host ++ [']']), port) := by
      rw [← splitLast_append hc]
      simp
    have hall : ∀ c ∈ host, decide (c ≠ ']') = true :=
      fun c hc => decide_eq_true fun h' => hr (h' ▸ hc)
    have hdrop : (host ++ ']' :: ':' :: port).dropWhile (· ≠ ']') = ']' :: ':' :: port := by
      rw [List.dropWhile_append_of_pos hall]
      simp
    have htake : (host ++ ']' :: ':' :: port).takeWhile (· ≠ ']') = host := by
      rw [List.takeWhile_append_of_pos hall]
      simp
    have hhost : bracketHost (host ++ ']' :: ':' :: port) port = .ok host := by
      have hleft : '[' ∉ host ++ ']' :: ':' :: port := by simp [hl, hpl]
      have hright : ']' ∉ ':' :: port := by simp [hpr]
      rw [bracketHost, hdrop]
      show (if ':' :: port = ':' :: port then _ else _) = _
      rw [if_pos rfl, if_neg hleft, if_neg hright, htake]
    rw [joinHostPort, if_pos hcolon, splitHostPort, hlast]
    show (if some '[' = some '[' then _ else _) = _
    rw [if_pos rfl, List.tail_cons, hhost]
    rfl
  · have hhead : (host ++ ':' :: port).head? ≠ some '[' := by
      cases host with
      | nil => simp
      | cons c host =>
          intro h
          exact hl (Option.some.inj h ▸ List.mem_cons_self)
    have hleft : '[' ∉ host ++ ':' :: port := by simp [hl, hpl]
    have hright : ']' ∉ host ++ ':' :: port := by simp [hr, hpr]
    rw [joinHostPort, if_neg hcolon, splitHostPort, splitLast_append hc]
    show (if (host ++ ':' :: port).head? = some '[' then _ else _) = _
    rw [if_neg hhead, if_neg hcolon, if_neg hleft, if_neg hright]

/-- A bracketed host is followed by a port without brackets. -/
theorem bracketHost_port {inner port host : List Char} (h : bracketHost inner port = .ok host) :
    '[' ∉ port ∧ ']' ∉ port := by
  unfold bracketHost at h
  split at h
  · cases h
  · cases h
  · rename_i rest _ hdrop
    by_cases hrest : rest = ':' :: port
    · subst hrest
      by_cases hleft : '[' ∈ inner
      · simp [hleft] at h
      · by_cases hright : ']' ∈ ':' :: port
        · simp [hleft, hright] at h
        · have hsub : ∀ x ∈ port, x ∈ inner := by
            intro x hx
            have hx' : x ∈ inner.dropWhile (· ≠ ']') := by
              rw [hdrop]
              exact List.mem_cons_of_mem _ (List.mem_cons_of_mem _ hx)
            exact (List.dropWhile_suffix _).mem hx'
          exact ⟨fun hx => hleft (hsub _ hx), fun hx => hright (List.mem_cons_of_mem _ hx)⟩
    · rw [if_neg hrest] at h
      split at h <;> cases h

/-- The port of what is taken apart has no separator. -/
theorem splitHostPort_port {s host port : List Char} (h : splitHostPort s = .ok (host, port)) :
    ':' ∉ port ∧ '[' ∉ port ∧ ']' ∉ port := by
  unfold splitHostPort at h
  split at h
  · cases h
  · rename_i before q hlast
    obtain ⟨rfl, hcolon⟩ := splitLast_spec hlast
    split at h
    · cases hb : bracketHost (before ++ ':' :: q).tail q with
      | error e => rw [hb] at h; cases h
      | ok host' =>
          rw [hb] at h
          obtain ⟨rfl, rfl⟩ : host' = host ∧ q = port := by simpa [Except.map] using h
          exact ⟨hcolon, bracketHost_port hb⟩
    · by_cases hcol : ':' ∈ before
      · simp [hcol] at h
      · by_cases hleft : '[' ∈ before ++ ':' :: q
        · rw [if_neg hcol, if_pos hleft] at h; cases h
        · by_cases hright : ']' ∈ before ++ ':' :: q
          · rw [if_neg hcol, if_neg hleft, if_pos hright] at h; cases h
          · rw [if_neg hcol, if_neg hleft, if_neg hright] at h
            obtain ⟨rfl, rfl⟩ : before = host ∧ q = port := by simpa using h
            exact ⟨hcolon, fun hx => hleft (by simp [hx]), fun hx => hright (by simp [hx])⟩

/-- The text of an address has no brackets. -/
theorem text_no_brackets (ip : IP) : '[' ∉ ip.text ∧ ']' ∉ ip.text := by
  have hmem : ∀ c ∈ ip.text, c = '.' ∨ c = ':' ∨ ∃ d < 16, c = digitChar d := by
    intro c hc
    unfold IP.text at hc
    split at hc
    · rename_i bs _
      exact (mem_dotted (map_toNat_lt bs) c hc).imp_right .inr
    · exact .inr (mem_textV6 groups_lt c hc)
  have hnot : ∀ c, c = '[' ∨ c = ']' → c ∉ ip.text := by
    intro c hc hin
    rcases hmem c hin with rfl | rfl | ⟨d, hd, rfl⟩
    · revert hc; decide
    · revert hc; decide
    · exact not_separator_digitChar hd (by unfold Separator; tauto)
  exact ⟨hnot _ (.inl rfl), hnot _ (.inr rfl)⟩

end IpText
