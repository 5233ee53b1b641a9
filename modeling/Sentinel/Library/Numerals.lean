import Mathlib.Algebra.Ring.Nat
import Mathlib.Data.Char
import Mathlib.Data.List.Lex
import Mathlib.Order.Lattice
import Mathlib.Tactic.Common

/-!
# Library — Numerals

Decimal numerals of a fixed width, and the lexicographic order of texts that are put together
from parts of fixed widths: such texts compare as the lists of their parts do.
-/

namespace Numerals

/-- The last `w` decimal digits of a number. -/
def digits : Nat → Nat → List Char
  | 0, _ => []
  | w + 1, n => digits w (n / 10) ++ [(n % 10).digitChar]

@[simp] theorem length_digits (w n : Nat) : (digits w n).length = w := by
  induction w generalizing n with
  | zero => rfl
  | succ w ih => simp [digits, ih]

theorem digitChar_lt_iff {a b : Nat} (ha : a < 10) (hb : b < 10) :
    a.digitChar < b.digitChar ↔ a < b := by
  have hva : a.digitChar.val.toNat = 48 + a := Nat.toNat_digitChar_of_lt_ten ha
  have hvb : b.digitChar.val.toNat = 48 + b := Nat.toNat_digitChar_of_lt_ten hb
  rw [Char.lt_def, UInt32.lt_iff_toNat_lt, hva, hvb]
  omega

variable {α : Type} [LinearOrder α]

/-- Texts whose first parts are equally long compare by these, then by the rest. -/
theorem append_lt_append_iff : ∀ {a b : List α} (c d : List α), a.length = b.length →
    (a ++ c < b ++ d ↔ a < b ∨ a = b ∧ c < d)
  | [], [], c, d, _ => by simp
  | x :: a, y :: b, c, d, h => by
      have ih := append_lt_append_iff c d (Nat.succ.inj h)
      simp only [List.cons_append, List.cons_lt_cons_iff, ih, List.cons.injEq]
      tauto

/-- What is ordered alike is equal alike. -/
theorem eq_iff_of_lt_iff {β : Type} [LinearOrder β] {a b : α} {x y : β} (hxy : a < b ↔ x < y)
    (hyx : b < a ↔ y < x) : a = b ↔ x = y := by
  rw [eq_iff_le_not_lt, eq_iff_le_not_lt, ← not_lt, ← not_lt, hxy, hyx]

theorem digits_lt_iff {w : Nat} : ∀ {n m : Nat}, n < 10 ^ w → m < 10 ^ w →
    (digits w n < digits w m ↔ n < m) := by
  induction w with
  | zero =>
      intro n m hn hm
      rw [Nat.lt_one_iff.mp hn, Nat.lt_one_iff.mp hm]
      simp [digits]
  | succ w ih =>
      intro n m hn hm
      have hn' : n / 10 < 10 ^ w := by omega
      have hm' : m / 10 < 10 ^ w := by omega
      have hlast := digitChar_lt_iff (Nat.mod_lt n (by decide)) (Nat.mod_lt m (by decide))
      have heq := eq_iff_of_lt_iff (ih hn' hm') (ih hm' hn')
      rw [digits, digits, append_lt_append_iff _ _ (by simp), ih hn' hm', heq,
        List.cons_lt_cons_iff, hlast]
      simp only [List.not_lt_nil, and_false, or_false]
      omega

theorem digits_inj {w n m : Nat} (hn : n < 10 ^ w) (hm : m < 10 ^ w) :
    digits w n = digits w m ↔ n = m :=
  eq_iff_of_lt_iff (digits_lt_iff hn hm) (digits_lt_iff hm hn)

/-- Texts that start with numerals of one width compare by the numbers, then by the rest. -/
theorem digits_append_lt_iff {w m : Nat} (hw : m ≤ 10 ^ w) (i j : Fin m) (c d : List Char) :
    digits w i ++ c < digits w j ++ d ↔ i.1 < j.1 ∨ i.1 = j.1 ∧ c < d := by
  have hi := i.2.trans_le hw
  have hj := j.2.trans_le hw
  rw [append_lt_append_iff c d (by simp), digits_lt_iff hi hj, digits_inj hi hj]

end Numerals
