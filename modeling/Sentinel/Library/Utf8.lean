import Mathlib.Tactic.Common

/-!
# Library — Utf8

Bytes, and which of them an encoding in UTF-8 has.

* `zero_mem_utf8Encode`: a byte that is zero is there for a NUL.
-/

namespace Utf8

/-- The equality of bytes that every module uses. -/
instance decidableEqBytes : DecidableEq ByteArray := ByteArray.instDecidableEq

theorem extract_of_size_le {b : ByteArray} {n : Nat} (h : b.size ≤ n) : b.extract 0 n = b := by
  rw [← Nat.max_eq_left h]
  exact ByteArray.extract_zero_max_size

/-- Only NUL is encoded with a byte that is zero. -/
theorem zero_mem_utf8EncodeChar {c : Char} :
    (0 : UInt8) ∈ String.utf8EncodeChar c ↔ c = '\x00' := by
  have hne : ∀ n, 0 < n → n < 256 → (0 : UInt8) ≠ UInt8.ofNat n := by
    intro n h₀ h h'
    have hnat := congrArg UInt8.toNat h'
    simp only [UInt8.toNat_ofNat', UInt8.toNat_zero] at hnat
    omega
  have hlead : ∀ a m k, 0 < m → m + k ≤ 256 → 0 < k → (0 : UInt8) ≠ UInt8.ofNat (a % m + k) := by
    intro a m k hm hk hk0
    have hlt := Nat.mod_lt a hm
    exact hne _ (by omega) (by omega)
  have hval : c = '\x00' ↔ c.val.toNat = 0 := by
    rw [← Char.toNat_inj]
    rfl
  rw [hval]
  unfold String.utf8EncodeChar
  simp only
  split
  · rename_i h
    constructor
    · intro h0
      by_contra hc
      exact hne _ (Nat.pos_of_ne_zero hc) (by omega) (List.mem_singleton.mp h0)
    · intro h0
      rw [h0]
      exact List.mem_singleton_self _
  · -- the bytes of a longer encoding all have their high bit set
    have hc : c.val.toNat ≠ 0 := by omega
    have hbyte := fun a m k h₁ h₂ h₃ => eq_false (hlead a m k h₁ h₂ h₃)
    split
    · simp only [List.mem_cons, List.not_mem_nil, hc, hbyte _ 0x20 0xc0 (by decide) (by decide)
        (by decide), hbyte _ 0x40 0x80 (by decide) (by decide) (by decide), or_false]
    · split
      · simp only [List.mem_cons, List.not_mem_nil, hc, hbyte _ 0x10 0xe0 (by decide) (by decide)
          (by decide), hbyte _ 0x40 0x80 (by decide) (by decide) (by decide), or_false]
      · simp only [List.mem_cons, List.not_mem_nil, hc, hbyte _ 0x08 0xf0 (by decide) (by decide)
          (by decide), hbyte _ 0x40 0x80 (by decide) (by decide) (by decide), or_false]

theorem zero_mem_utf8Encode {cs : List Char} :
    (0 : UInt8) ∈ cs.utf8Encode.data.toList ↔ '\x00' ∈ cs := by
  rw [List.utf8Encode, List.toList_data_toByteArray]
  simp [zero_mem_utf8EncodeChar]

end Utf8
