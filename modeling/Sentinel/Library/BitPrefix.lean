import Mathlib.Algebra.Order.Ring.Nat
import Mathlib.Tactic.Common
import Mathlib.Tactic.Linarith
import Mathlib.Tactic.Ring

/-!
# Library — BitPrefix

Prefixes of bits of byte strings. `value` is the number a list of bytes stands for, most
significant byte first, and `prefixOf k bs` the number its first `k` bits stand for. A mask of
`k` leading ones is taken byte by byte (`highMask`); two strings of one length have the same
first `k` bits iff they agree byte by byte under the mask (`agree_iff`).
-/

namespace BitPrefix

/-- The number a list of bytes stands for. -/
def value : List UInt8 → Nat
  | [] => 0
  | b :: bs => b.toNat * 2 ^ (8 * bs.length) + value bs

/-- The number the first `k` bits stand for. -/
def prefixOf (k : Nat) (bs : List UInt8) : Nat := value bs / 2 ^ (8 * bs.length - k)

/-- The byte whose first `k` bits are ones. -/
def highMask (k : Nat) : UInt8 := UInt8.ofNat (256 - 2 ^ (8 - min 8 k))

theorem value_lt (bs : List UInt8) : value bs < 2 ^ (8 * bs.length) := by
  induction bs with
  | nil => simp [value]
  | cons b bs ih =>
      have hb : b.toNat + 1 ≤ 2 ^ 8 := b.toNat_lt
      calc b.toNat * 2 ^ (8 * bs.length) + value bs
          < b.toNat * 2 ^ (8 * bs.length) + 2 ^ (8 * bs.length) := by omega
        _ = (b.toNat + 1) * 2 ^ (8 * bs.length) := by ring
        _ ≤ 2 ^ 8 * 2 ^ (8 * bs.length) := Nat.mul_le_mul_right _ hb
        _ = 2 ^ (8 * (b :: bs).length) := by rw [← pow_add, List.length_cons]; congr 1; omega

theorem prefixOf_lt (k : Nat) (bs : List UInt8) :
    prefixOf k bs < 2 ^ min k (8 * bs.length) := by
  rw [prefixOf, Nat.div_lt_iff_lt_mul (Nat.two_pow_pos _), ← pow_add]
  have hexp : min k (8 * bs.length) + (8 * bs.length - k) = 8 * bs.length := by omega
  rw [hexp]
  exact value_lt bs

@[simp] theorem prefixOf_zero (bs : List UInt8) : prefixOf 0 bs = 0 :=
  Nat.div_eq_of_lt (value_lt bs)

theorem highMask_full {k : Nat} (h : 8 ≤ k) : highMask k = 255 := by
  rw [highMask, Nat.min_eq_left h]
  rfl

/-- A shorter prefix is a prefix of the longer one. -/
theorem prefixOf_prefixOf {j k : Nat} {bs : List UInt8} (hjk : j ≤ k)
    (hk : k ≤ 8 * bs.length) : prefixOf k bs / 2 ^ (k - j) = prefixOf j bs := by
  rw [prefixOf, prefixOf, Nat.div_div_eq_div_mul, ← pow_add]
  congr 2
  omega

/-- The first bits of a string are those of its first byte, then those of the rest. -/
theorem prefixOf_cons (k : Nat) (b : UInt8) (bs : List UInt8) :
    prefixOf k (b :: bs) =
      b.toNat / 2 ^ (8 - min 8 k) * 2 ^ min (k - 8) (8 * bs.length) + prefixOf (k - 8) bs := by
  have hv := value_lt bs
  rcases Nat.lt_or_ge k 8 with hk | hk
  · -- the prefix ends inside the first byte
    have hrest : prefixOf (k - 8) bs = 0 := by
      rw [prefixOf, show 8 * bs.length - (k - 8) = 8 * bs.length by omega, Nat.div_eq_of_lt hv]
    rw [hrest, prefixOf, value, show min (k - 8) (8 * bs.length) = 0 by omega,
      show 8 * (b :: bs).length - k = 8 * bs.length + (8 - min 8 k) by simp; omega, pow_add,
      ← Nat.div_div_eq_div_mul, Nat.add_comm (b.toNat * _),
      Nat.add_mul_div_right _ _ (Nat.two_pow_pos _), Nat.div_eq_of_lt hv]
    simp
  · have hexp : 8 * bs.length = min (k - 8) (8 * bs.length) + (8 * bs.length - (k - 8)) := by
      omega
    have hsplit : b.toNat * 2 ^ (8 * bs.length) =
        b.toNat * 2 ^ min (k - 8) (8 * bs.length) * 2 ^ (8 * bs.length - (k - 8)) := by
      rw [Nat.mul_assoc, ← pow_add, ← hexp]
    rw [prefixOf, value, show 8 * (b :: bs).length - k = 8 * bs.length - (k - 8) by simp; omega,
      hsplit, Nat.add_comm, Nat.add_mul_div_right _ _ (Nat.two_pow_pos _),
      show 8 - min 8 k = 0 by omega, prefixOf, pow_zero, Nat.div_one, Nat.add_comm]

/-- Masking all but the last `j` bits of a byte away. -/
theorem and_high {x j : Nat} (hx : x < 2 ^ 8) (hj : j ≤ 8) :
    x &&& (2 ^ 8 - 2 ^ j) = x / 2 ^ j * 2 ^ j := by
  apply Nat.eq_of_testBit_eq
  intro i
  have hmask : 2 ^ 8 - 2 ^ j = 2 ^ j * (2 ^ (8 - j) - 1) := by
    rw [Nat.mul_sub, ← pow_add, Nat.mul_one, Nat.add_sub_cancel' hj]
  rw [Nat.testBit_and, hmask, Nat.testBit_two_pow_mul, Nat.testBit_two_pow_sub_one,
    Nat.mul_comm (x / 2 ^ j), Nat.testBit_two_pow_mul, Nat.testBit_div_two_pow]
  rcases Nat.lt_or_ge i j with hij | hij
  · simp [Nat.not_le.mpr hij]
  · rw [Nat.sub_add_cancel hij]
    rcases Nat.lt_or_ge i 8 with hi | hi
    · simp [hij, Nat.sub_lt_sub_right hij hi]
    · simp [Nat.testBit_lt_two_pow (lt_of_lt_of_le hx (Nat.pow_le_pow_right (by decide) hi))]

theorem toNat_and_highMask (b : UInt8) (k : Nat) :
    (b &&& highMask k).toNat = b.toNat / 2 ^ (8 - min 8 k) * 2 ^ (8 - min 8 k) := by
  have hpos := Nat.two_pow_pos (8 - min 8 k)
  have hmask : (highMask k).toNat = 2 ^ 8 - 2 ^ (8 - min 8 k) := by
    exact UInt8.toNat_ofNat_of_lt' (by simp only [UInt8.size]; omega)
  rw [UInt8.toNat_and, hmask, and_high b.toNat_lt (by omega)]

@[simp] theorem and_full (b : UInt8) : b &&& 255 = b := by
  rw [← highMask_full (le_refl 8), ← UInt8.toNat_inj, toNat_and_highMask]
  simp

/-- Two bytes agree under the mask iff they have the same first bits. -/
theorem and_highMask_iff (x y : UInt8) (k : Nat) :
    x &&& highMask k = y &&& highMask k ↔
      x.toNat / 2 ^ (8 - min 8 k) = y.toNat / 2 ^ (8 - min 8 k) := by
  rw [← UInt8.toNat_inj, toNat_and_highMask, toNat_and_highMask]
  exact Nat.mul_left_inj (Nat.two_pow_pos _).ne'

/-- Comparing two strings byte by byte under the mask of `k` leading ones, of which the first
byte considered is the `i`-th. -/
def agree (k : Nat) (xs ys : List UInt8) (i : Nat) : Bool :=
  ((xs.zip ys).zipIdx i).all fun x =>
    x.1.1 &&& highMask (k - 8 * x.2) == x.1.2 &&& highMask (k - 8 * x.2)

theorem prefixOf_cons_iff {xs ys : List UInt8} (h : xs.length = ys.length) (k : Nat)
    (x y : UInt8) : prefixOf k (x :: xs) = prefixOf k (y :: ys) ↔
      x &&& highMask k = y &&& highMask k ∧ prefixOf (k - 8) xs = prefixOf (k - 8) ys := by
  have hx := prefixOf_lt (k - 8) xs
  have hy := prefixOf_lt (k - 8) ys
  rw [prefixOf_cons, prefixOf_cons, and_highMask_iff, h] at *
  generalize 2 ^ min (k - 8) (8 * ys.length) = m at *
  constructor
  · intro heq
    have hdiv := congrArg (· / m) heq
    have hmod := congrArg (· % m) heq
    have hm : 0 < m := by omega
    simp only [Nat.mul_comm _ m, Nat.mul_add_div hm, Nat.div_eq_of_lt hx, Nat.div_eq_of_lt hy,
      Nat.mul_add_mod, Nat.mod_eq_of_lt hx, Nat.mod_eq_of_lt hy, Nat.add_zero] at hdiv hmod
    exact ⟨hdiv, hmod⟩
  · rintro ⟨hxy, hrest⟩
    rw [hxy, hrest]

/-- Two strings of one length agree under the mask iff they have the same first bits. -/
theorem agree_iff (k : Nat) : ∀ {xs ys : List UInt8}, xs.length = ys.length → ∀ i,
    agree k xs ys i = true ↔ prefixOf (k - 8 * i) xs = prefixOf (k - 8 * i) ys
  | [], [], _, i => by simp [agree]
  | x :: xs, y :: ys, h, i => by
      have hlen : xs.length = ys.length := by simpa using h
      have ih := agree_iff k hlen (i + 1)
      rw [prefixOf_cons_iff hlen, show k - 8 * i - 8 = k - 8 * (i + 1) by omega, ← ih]
      simp [agree]

end BitPrefix
