import Mathlib

/-!
# Lib/Flags — words of flags

A word whose unknown bits are clear is the union of its known bits, and a single bit is either set or
clear; so a decoder that refuses unknown bits and tests the known ones loses nothing.
-/

namespace Flags

variable {w : ℕ} {x m : BitVec w}

/-- No bit outside the mask is set. -/
theorem and_eq_self (h : x &&& ~~~ m = 0#w) : x &&& m = x := by
  calc x &&& m = (x &&& m) ||| (x &&& ~~~ m) := by rw [h, BitVec.or_zero]
    _ = x &&& (m ||| ~~~ m) := BitVec.and_or_distrib_left.symm
    _ = x := by rw [BitVec.or_not_self, BitVec.and_allOnes]

/-- **A single bit is set or clear.** -/
theorem and_bit_eq_ite (i : ℕ) (hm : m = BitVec.twoPow w i) (x : BitVec w) :
    x &&& m = if x &&& m ≠ 0#w then m else 0#w := by
  subst hm
  rw [BitVec.and_twoPow]
  split
  · next hbit =>
    split
    · rfl
    · next h => exact not_not.1 h
  · rw [if_neg (not_not.2 rfl)]

/-- A word with a single known bit. -/
theorem eq_zero_or_bit (i : ℕ) (hm : m = BitVec.twoPow w i) (h : x &&& ~~~ m = 0#w) :
    x = 0#w ∨ x = m := by
  have hbit := and_bit_eq_ite i hm x
  rw [and_eq_self h] at hbit
  split at hbit
  · exact .inr hbit
  · exact .inl hbit

theorem uint8_eq_zero_or_one {x : UInt8} (h : x &&& ~~~ 1 = 0) : x = 0 ∨ x = 1 :=
  (eq_zero_or_bit 0 (rfl : 1#8 = _) (congrArg UInt8.toBitVec h)).imp UInt8.toBitVec_inj.1
    UInt8.toBitVec_inj.1

theorem uint16_eq_zero_or_one {x : UInt16} (h : x &&& ~~~ 1 = 0) : x = 0 ∨ x = 1 :=
  (eq_zero_or_bit 0 (rfl : 1#16 = _) (congrArg UInt16.toBitVec h)).imp UInt16.toBitVec_inj.1
    UInt16.toBitVec_inj.1

/-! ## Words of 32 bits -/

variable {y : UInt32}

theorem uint32_and_eq_self {mask : UInt32} (h : y &&& ~~~ mask = 0) : y &&& mask = y :=
  UInt32.toBitVec_inj.1 (and_eq_self (congrArg UInt32.toBitVec h))

theorem uint32_and_or (a b : UInt32) : y &&& (a ||| b) = y &&& a ||| y &&& b :=
  UInt32.toBitVec_inj.1 BitVec.and_or_distrib_left

/-- A known bit, from its test. -/
theorem uint32_and_bit {bit : UInt32} (i : ℕ) (hbit : bit.toBitVec = BitVec.twoPow 32 i)
    (y : UInt32) : y &&& bit = if y &&& bit ≠ 0 then bit else 0 := by
  have h := and_bit_eq_ite i hbit y.toBitVec
  by_cases hy : y &&& bit = 0
  · rw [if_neg (not_not.2 hy), hy]
  · have hne : y.toBitVec &&& bit.toBitVec ≠ 0#32 := fun hz => hy (UInt32.toBitVec_inj.1 hz)
    rw [if_pos hne] at h
    rw [if_pos hy]
    exact UInt32.toBitVec_inj.1 h

end Flags
