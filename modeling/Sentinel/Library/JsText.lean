import Mathlib.Tactic.Common
import Mathlib.Tactic.IntervalCases

/-!
# Library — JsText

The strings of JavaScript, as lists of UTF-16 code units, which need not be well formed; the
encoding of characters in them (`utf16`); and the percent escapes of bytes.

`decodeURIComponent` is the `Decode` operation of ECMAScript: an escape starts the UTF-8 encoding
of one character, read strictly, and every other code unit stands for itself. Escaping each byte
of a UTF-8 encoding and decoding gives the characters back (`decodeURIComponent_escape`).
-/

namespace JsText

/-- A string: its code units. -/
abbrev Str := List UInt16

/-- The code unit of a character of the basic plane. -/
def unit (c : Char) : UInt16 := UInt16.ofNat c.toNat

/-- The code units of a literal of the basic plane. -/
def lit (s : String) : Str := s.toList.map unit

/-- The code units of a character. -/
def utf16Char (c : Char) : Str :=
  if c.toNat < 0x10000 then [unit c]
  else [UInt16.ofNat (0xd800 + (c.toNat - 0x10000) / 0x400),
    UInt16.ofNat (0xdc00 + (c.toNat - 0x10000) % 0x400)]

def utf16 (s : List Char) : Str := s.flatMap utf16Char

def utf8 (s : List Char) : List UInt8 := s.flatMap String.utf8EncodeChar

/-! ### Escapes -/

/-- `padStart`, with a filler of one code unit. -/
def padStart (s : Str) (n : Nat) (fill : UInt16) : Str := List.replicate (n - s.length) fill ++ s

/-- `toString(16)` of a number. -/
def toString16 (n : Nat) : Str := (Nat.toDigits 16 n).map unit

/-- A code unit as an escape: a percent sign and its number in hexadecimal. -/
def escape (c : UInt16) : Str := unit '%' :: padStart (toString16 c.toNat) 2 (unit '0')

/-- The value of a hexadecimal digit, of either case. -/
def hexVal (u : UInt16) : Option Nat :=
  if 48 ≤ u.toNat ∧ u.toNat ≤ 57 then some (u.toNat - 48)
  else if 97 ≤ u.toNat ∧ u.toNat ≤ 102 then some (u.toNat - 87)
  else if 65 ≤ u.toNat ∧ u.toNat ≤ 70 then some (u.toNat - 55)
  else none

/-- The byte of two hexadecimal digits. -/
def hexOctet (x y : UInt16) : Option UInt8 := do
  let hi ← hexVal x
  let lo ← hexVal y
  return UInt8.ofNat (hi * 16 + lo)

theorem hexVal_digitChar {d : Nat} (h : d < 16) : hexVal (unit d.digitChar) = some d := by
  interval_cases d <;> rfl

/-- The escape of a byte has two digits. -/
theorem escape_byte (b : UInt8) :
    escape (UInt16.ofNat b.toNat) =
      [unit '%', unit (b.toNat / 16).digitChar, unit (b.toNat % 16).digitChar] := by
  have hb := b.toNat_lt
  have hto : (UInt16.ofNat b.toNat).toNat = b.toNat :=
    UInt16.toNat_ofNat_of_lt' (by simp only [UInt16.size]; omega)
  rw [escape, hto, toString16]
  rcases Nat.lt_or_ge b.toNat 16 with hlt | hge
  · rw [Nat.toDigits_of_lt_base hlt, Nat.div_eq_of_lt hlt, Nat.mod_eq_of_lt hlt]
    rfl
  · rw [Nat.toDigits_of_base_le (by decide) hge, Nat.toDigits_of_lt_base (by omega)]
    rfl

theorem hexOctet_byte (b : UInt8) :
    hexOctet (unit (b.toNat / 16).digitChar) (unit (b.toNat % 16).digitChar) = some b := by
  have hb := b.toNat_lt
  have hval : b.toNat / 16 * 16 + b.toNat % 16 = b.toNat := Nat.div_add_mod' _ _
  rw [hexOctet, hexVal_digitChar (show b.toNat / 16 < 16 by omega),
    hexVal_digitChar (Nat.mod_lt b.toNat (show 0 < 16 by decide))]
  simp only [Option.bind_eq_bind, Option.bind_some, hval, UInt8.ofNat_toNat, Option.pure_def]

/-! ### `decodeURIComponent` -/

/-- The bytes of `n` escapes, and the rest. -/
def readOctets : Nat → Str → Option (List UInt8 × Str)
  | 0, s => some ([], s)
  | n + 1, p :: x :: y :: s =>
      if p = unit '%' then
        match hexOctet x y, readOctets n s with
        | some b, some (bs, rest) => some (b :: bs, rest)
        | _, _ => none
      else none
  | _ + 1, _ => none

/-- How many bytes an encoding has whose first one this is. -/
def octetCount (b : UInt8) : Option Nat :=
  if b.toNat < 0x80 then some 1
  else if b.toNat < 0xc0 then none
  else if b.toNat < 0xe0 then some 2
  else if b.toNat < 0xf0 then some 3
  else if b.toNat < 0xf8 then some 4
  else none

/-- The character that escapes stand for, and the rest. -/
def readChar (s : Str) : Option (Char × Str) :=
  match readOctets 1 s with
  | some ([b], _) =>
      match octetCount b with
      | some n =>
          match readOctets n s with
          | some (bs, rest) => (bs.toByteArray.utf8DecodeChar? 0).map fun c => (c, rest)
          | none => none
      | none => none
  | _ => none

theorem readOctets_length : ∀ {n : Nat} {s rest : Str} {bs : List UInt8},
    readOctets n s = some (bs, rest) → s.length = 3 * n + rest.length
  | 0, s, rest, bs, h => by
      cases h
      simp
  | n + 1, p :: x :: y :: s, rest, bs, h => by
      simp only [readOctets] at h
      split at h
      · split at h
        · rename_i b bs' rest' hb hrest
          cases h
          have ih := readOctets_length hrest
          simp only [List.length_cons]
          omega
        · cases h
      · cases h
  | n + 1, [], _, _, h => by simp [readOctets] at h
  | n + 1, [_], _, _, h => by simp [readOctets] at h
  | n + 1, [_, _], _, _, h => by simp [readOctets] at h

theorem octetCount_pos {b : UInt8} {n : Nat} (h : octetCount b = some n) : 0 < n := by
  unfold octetCount at h
  split_ifs at h <;> cases h <;> decide

theorem readChar_length {s rest : Str} {c : Char} (h : readChar s = some (c, rest)) :
    rest.length < s.length := by
  unfold readChar at h
  split at h
  · split at h
    · rename_i n hn
      split at h
      · rename_i bs rest' hread
        obtain ⟨c', -, hc⟩ := Option.map_eq_some_iff.mp h
        cases hc
        have hlen := readOctets_length hread
        have hpos := octetCount_pos hn
        omega
      · cases h
    · cases h
  · cases h

/-- `decodeURIComponent`, or `none` where it throws. -/
def decodeURIComponent (s : Str) : Option Str :=
  match s with
  | [] => some []
  | u :: s' =>
      if u = unit '%' then
        match _h : readChar (u :: s') with
        | some (c, rest) => (decodeURIComponent rest).map (utf16Char c ++ ·)
        | none => none
      else (decodeURIComponent s').map (u :: ·)
termination_by s.length
decreasing_by
  · exact readChar_length ‹_›
  · exact Nat.lt_succ_self _

/-- The escapes of some bytes. -/
def escapeBytes (bs : List UInt8) : Str := bs.flatMap fun b => escape (UInt16.ofNat b.toNat)

theorem escapeBytes_append (bs cs : List UInt8) :
    escapeBytes (bs ++ cs) = escapeBytes bs ++ escapeBytes cs := List.flatMap_append

theorem readOctets_escapeBytes : ∀ (bs : List UInt8) (rest : Str),
    readOctets bs.length (escapeBytes bs ++ rest) = some (bs, rest)
  | [], rest => rfl
  | b :: bs, rest => by
      have ih := readOctets_escapeBytes bs rest
      rw [escapeBytes, List.flatMap_cons, escape_byte, List.append_assoc]
      simp only [List.cons_append, List.nil_append, List.length_cons, readOctets, if_true,
        hexOctet_byte]
      rw [← escapeBytes, ih]

/-- The first byte of an encoding says how long it is. -/
theorem utf8EncodeChar_first (c : Char) : ∃ b bs, String.utf8EncodeChar c = b :: bs ∧
    octetCount b = some (bs.length + 1) := by
  have hlead : ∀ a m k : Nat, m + k ≤ 256 → 0 < m →
      (UInt8.ofNat (a % m + k)).toNat = a % m + k := fun a m k hmk hm => by
    have hlt := Nat.mod_lt a hm
    exact UInt8.toNat_ofNat_of_lt' (by simp only [UInt8.size]; omega)
  unfold String.utf8EncodeChar
  simp only
  split
  · rename_i h
    refine ⟨_, _, rfl, ?_⟩
    rw [octetCount, UInt8.toNat_ofNat_of_lt' (by simp only [UInt8.size]; omega), if_pos (by omega)]
    rfl
  · split
    · refine ⟨_, _, rfl, ?_⟩
      have hlt := Nat.mod_lt (c.val.toNat / 64) (show 0 < 0x20 by decide)
      rw [octetCount, hlead _ _ _ (by decide) (by decide), if_neg (by omega), if_neg (by omega),
        if_pos (by omega)]
      rfl
    · split
      · refine ⟨_, _, rfl, ?_⟩
        have hlt := Nat.mod_lt (c.val.toNat / 4096) (show 0 < 0x10 by decide)
        rw [octetCount, hlead _ _ _ (by decide) (by decide), if_neg (by omega),
          if_neg (by omega), if_neg (by omega), if_pos (by omega)]
        rfl
      · refine ⟨_, _, rfl, ?_⟩
        have hlt := Nat.mod_lt (c.val.toNat / 262144) (show 0 < 0x08 by decide)
        rw [octetCount, hlead _ _ _ (by decide) (by decide), if_neg (by omega),
          if_neg (by omega), if_neg (by omega), if_neg (by omega), if_pos (by omega)]
        rfl

/-- The escapes of a character's encoding read as this character. -/
theorem readChar_escapeBytes (c : Char) (rest : Str) :
    readChar (escapeBytes (String.utf8EncodeChar c) ++ rest) = some (c, rest) := by
  obtain ⟨b, bs, hbytes, hcount⟩ := utf8EncodeChar_first c
  have hone : readOctets 1 (escapeBytes (b :: bs) ++ rest) =
      some ([b], escapeBytes bs ++ rest) := by
    have happend : escapeBytes (b :: bs) ++ rest = escapeBytes [b] ++ (escapeBytes bs ++ rest) := by
      rw [← List.append_assoc, ← escapeBytes_append, List.singleton_append]
    rw [happend]
    exact readOctets_escapeBytes [b] _
  have hall : readOctets (bs.length + 1) (escapeBytes (b :: bs) ++ rest) = some (b :: bs, rest) :=
    readOctets_escapeBytes (b :: bs) rest
  have hchar : (b :: bs).toByteArray.utf8DecodeChar? 0 = some c := by
    rw [← hbytes, ← ByteArray.append_empty (b := (String.utf8EncodeChar c).toByteArray)]
    exact ByteArray.utf8DecodeChar?_utf8EncodeChar_append
  rw [hbytes, readChar, hone]
  simp only [hcount, hall, hchar, Option.map_some]

/-- **Escaping and decoding**: a text whose UTF-8 encoding is escaped byte by byte decodes to
its UTF-16 encoding. -/
theorem decodeURIComponent_escapeBytes : ∀ s : List Char,
    decodeURIComponent (escapeBytes (utf8 s)) = some (utf16 s)
  | [] => by simp [utf8, escapeBytes, decodeURIComponent, utf16]
  | c :: s => by
      have ih := decodeURIComponent_escapeBytes s
      have hread := readChar_escapeBytes c (escapeBytes (utf8 s))
      obtain ⟨b, bs, hbytes, -⟩ := utf8EncodeChar_first c
      have hsplit : escapeBytes (utf8 (c :: s)) =
          escapeBytes (String.utf8EncodeChar c) ++ escapeBytes (utf8 s) := by
        rw [utf8, List.flatMap_cons, escapeBytes_append, ← utf8]
      have hhead : escapeBytes (String.utf8EncodeChar c) ++ escapeBytes (utf8 s) =
          unit '%' :: (escapeBytes (String.utf8EncodeChar c) ++ escapeBytes (utf8 s)).tail := by
        rw [hbytes, escapeBytes, List.flatMap_cons, escape_byte]
        rfl
      rw [hsplit, hhead, decodeURIComponent, if_pos rfl]
      rw [← hhead, hread]
      simp only [ih, Option.map_some]
      rfl

end JsText
