import Mathlib.Algebra.Group.Nat.Defs
import Mathlib.Tactic.Common

/-!
# Library — FixedWidth

Computations with 64-bit integers that may fail, over any type of errors.

The result of an operation is reduced modulo `2 ^ 64`. A computation keeps what its operations came
to before they were reduced, so that it can be said that none of them was changed by it (`Exact`).
-/

namespace FixedWidth

/-- The values of a 64-bit integer. -/
def IsInt64 (n : Int) : Prop := -9223372036854775808 ≤ n ∧ n ≤ 9223372036854775807

instance (n : Int) : Decidable (IsInt64 n) := inferInstanceAs (Decidable (_ ∧ _))

/-- The value with the same last 64 bits. -/
def toInt64 (n : Int) : Int := n.bmod (2 ^ 64)

theorem toInt64_eq {n : Int} (h : IsInt64 n) : toInt64 n = n := by
  obtain ⟨hlow, hhigh⟩ := h
  unfold toInt64
  rw [Int.bmod_eq_of_le] <;> omega

theorem isInt64_toInt64 (n : Int) : IsInt64 (toInt64 n) :=
  ⟨Int.le_bmod (by decide), Int.le_of_lt_add_one (Int.bmod_lt (by decide))⟩

/-- Only a value that fits is not changed. -/
theorem toInt64_eq_iff {n : Int} : toInt64 n = n ↔ IsInt64 n :=
  ⟨fun h => h ▸ isInt64_toInt64 n, toInt64_eq⟩

/-- A computation, with the results of its operations. -/
structure Calc (ε α : Type) where
  value : Except ε α
  results : List Int

variable {ε α β : Type}

namespace Calc

def pure (a : α) : Calc ε α := ⟨.ok a, []⟩

def bind (x : Calc ε α) (f : α → Calc ε β) : Calc ε β :=
  match x.value with
  | .error e => ⟨.error e, x.results⟩
  | .ok a => ⟨(f a).value, x.results ++ (f a).results⟩

instance : Monad (Calc ε) where
  pure := pure
  bind := bind

def fail (e : ε) : Calc ε α := ⟨.error e, []⟩

/-- An operation that comes to `n`. -/
def arith (n : Int) : Calc ε Int := ⟨.ok (toInt64 n), [n]⟩

/-- No operation leaves the range. -/
def Exact (x : Calc ε α) : Prop := ∀ n ∈ x.results, IsInt64 n

theorem bind_eq_ok {x : Calc ε α} {f : α → Calc ε β} {b : β} :
    (x >>= f).value = .ok b ↔ ∃ a, x.value = .ok a ∧ (f a).value = .ok b := by
  show (x.bind f).value = .ok b ↔ _
  unfold bind
  cases x.value <;> simp

theorem pure_eq_ok {a b : α} : (Pure.pure a : Calc ε α).value = .ok b ↔ a = b :=
  ⟨fun h => by cases h; rfl, fun h => by rw [h]; rfl⟩

theorem arith_eq_ok {n m : Int} (h : IsInt64 n) : (arith n : Calc ε Int).value = .ok m ↔ n = m := by
  rw [arith, toInt64_eq h, Except.ok.injEq]

theorem exact_pure {a : α} : (Pure.pure a : Calc ε α).Exact := fun _ hn => (nomatch hn)

theorem exact_fail {e : ε} : (fail e : Calc ε α).Exact := fun _ hn => (nomatch hn)

theorem exact_arith {n : Int} (h : IsInt64 n) : (arith n : Calc ε Int).Exact := by
  intro m hm
  rwa [List.mem_singleton.mp hm]

theorem exact_bind {x : Calc ε α} {f : α → Calc ε β} (hx : x.Exact)
    (hf : ∀ a, x.value = .ok a → (f a).Exact) : (x >>= f).Exact := by
  show (x.bind f).Exact
  unfold bind
  split
  · exact hx
  · rename_i a ha
    intro n hn
    rcases List.mem_append.mp hn with hn | hn
    · exact hx n hn
    · exact hf a ha n hn

end Calc

end FixedWidth
