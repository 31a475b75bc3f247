import Mathlib

/-!
# Lib/Binary32 — single precision by the bits

    sign ▪ exponent (8) ▪ fraction (23)        ±significand · 2 ^ (scale - 150)

Comparisons and the conversions from and to whole numbers, as the processor does them.  A whole
number below `2 ^ 24` is exact: `truncate_roundNat` gives it back.
-/

namespace Binary32

/-! ## Reading the bits -/

def exponent (x : UInt32) : ℕ := x.toNat / 2 ^ 23 % 2 ^ 8

def fraction (x : UInt32) : ℕ := x.toNat % 2 ^ 23

/-- The fraction with its leading bit, which subnormal numbers lack. -/
def significand (x : UInt32) : ℕ := if exponent x = 0 then fraction x else 2 ^ 23 + fraction x

def scale (x : UInt32) : ℕ := max (exponent x) 1

def isNaN (x : UInt32) : Bool := exponent x = 255 ∧ fraction x ≠ 0

/-- The place of a number in the order; both zeros are at the same one. -/
def rank (x : UInt32) : ℤ := if x.toNat < 2 ^ 31 then x.toNat else 2 ^ 31 - x.toNat

def lt (x y : UInt32) : Bool := !isNaN x && !isNaN y && rank x < rank y

def eq (x y : UInt32) : Bool := !isNaN x && !isNaN y && rank x = rank y

/-- The place of a number in the total order of `f32::total_cmp`: `-0` comes before `0`, and the
numbers that are none at both ends. -/
def totalRank (x : UInt32) : ℤ := if x.toNat < 2 ^ 31 then x.toNat else 2 ^ 31 - 1 - x.toNat

/-! ## Whole numbers -/

/-- The magnitude of a finite number without its fractional part. -/
def truncate (x : UInt32) : ℕ :=
  if 150 ≤ scale x then significand x * 2 ^ (scale x - 150)
  else significand x / 2 ^ (150 - scale x)

/-- A finite number has no fractional part. -/
def isWhole (x : UInt32) : Bool := 150 ≤ scale x ∨ significand x % 2 ^ (150 - scale x) = 0

/-- The whole number nearest to `n / 2 ^ drop`, the even one of two. -/
def nearest (n drop : ℕ) : ℕ :=
  if 2 ^ drop < 2 * (n % 2 ^ drop) ∨ (2 ^ drop = 2 * (n % 2 ^ drop) ∧ n / 2 ^ drop % 2 = 1)
  then n / 2 ^ drop + 1 else n / 2 ^ drop

/-- The number nearest to `n`; rounding up to a power of two carries into the exponent. -/
def roundNat (n : ℕ) : UInt32 :=
  if n = 0 then 0
  else if Nat.log2 n ≤ 23 then
    UInt32.ofNat ((Nat.log2 n + 126) * 2 ^ 23 + n * 2 ^ (23 - Nat.log2 n))
  else UInt32.ofNat ((Nat.log2 n + 126) * 2 ^ 23 + nearest n (Nat.log2 n - 23))

example : [0, 1, 10000, 2 ^ 24 + 1, 2 ^ 24 + 3].map roundNat =
    [0, 0x3F800000, 0x461C4000, 0x4B800000, 0x4B800002] := by decide

theorem nearest_le (n drop : ℕ) : nearest n drop ≤ n / 2 ^ drop + 1 := by
  unfold nearest
  split <;> omega

section Round

variable {n : ℕ}

/-- A number with its leading bit at `2 ^ 23`. -/
theorem normal_bounds (hpos : n ≠ 0) (hlt : n < 2 ^ 24) : Nat.log2 n ≤ 23 ∧
    2 ^ 23 ≤ n * 2 ^ (23 - Nat.log2 n) ∧ n * 2 ^ (23 - Nat.log2 n) < 2 ^ 24 := by
  have hlow : 2 ^ Nat.log2 n ≤ n := Nat.log2_self_le hpos
  have hhigh : n < 2 ^ (Nat.log2 n + 1) := Nat.lt_log2_self
  have htop : Nat.log2 n ≤ 23 := Nat.lt_succ_iff.1 ((Nat.log2_lt hpos).2 hlt)
  refine ⟨htop, ?_, ?_⟩
  · calc 2 ^ 23 = 2 ^ Nat.log2 n * 2 ^ (23 - Nat.log2 n) := by rw [← pow_add]; congr 1; omega
      _ ≤ n * 2 ^ (23 - Nat.log2 n) := Nat.mul_le_mul_right _ hlow
  · calc n * 2 ^ (23 - Nat.log2 n) < 2 ^ (Nat.log2 n + 1) * 2 ^ (23 - Nat.log2 n) :=
          Nat.mul_lt_mul_of_pos_right hhigh (Nat.two_pow_pos _)
      _ = 2 ^ 24 := by rw [← pow_add]; congr 1; omega

theorem toNat_roundNat (hpos : n ≠ 0) (hlt : n < 2 ^ 24) :
    (roundNat n).toNat = (Nat.log2 n + 126) * 2 ^ 23 + n * 2 ^ (23 - Nat.log2 n) := by
  obtain ⟨htop, -, hhigh⟩ := normal_bounds hpos hlt
  rw [roundNat, if_neg hpos, if_pos htop]
  exact UInt32.toNat_ofNat_of_lt' (by simp only [UInt32.size]; omega)

/-- Small whole numbers are read off the bits. -/
theorem fields_roundNat (hpos : n ≠ 0) (hlt : n < 2 ^ 24) :
    scale (roundNat n) = Nat.log2 n + 127 ∧
      significand (roundNat n) = n * 2 ^ (23 - Nat.log2 n) := by
  obtain ⟨htop, hlow, hhigh⟩ := normal_bounds hpos hlt
  have hbits := toNat_roundNat hpos hlt
  have hexponent : exponent (roundNat n) = Nat.log2 n + 127 := by
    rw [exponent, hbits]
    omega
  have hfraction : fraction (roundNat n) = n * 2 ^ (23 - Nat.log2 n) - 2 ^ 23 := by
    rw [fraction, hbits]
    omega
  refine ⟨by rw [scale, hexponent]; omega, ?_⟩
  rw [significand, hexponent, if_neg (by omega), hfraction]
  omega

/-- **Whole numbers below `2 ^ 24` are exact.** -/
theorem truncate_roundNat (hlt : n < 2 ^ 24) : truncate (roundNat n) = n := by
  by_cases hpos : n = 0
  · subst hpos
    decide
  · obtain ⟨htop, -, -⟩ := normal_bounds hpos hlt
    obtain ⟨hscale, hsignificand⟩ := fields_roundNat hpos hlt
    rw [truncate, hscale, hsignificand]
    split
    · next h =>
      have htop' : Nat.log2 n = 23 := by omega
      rw [htop']
      simp
    · rw [show 150 - (Nat.log2 n + 127) = 23 - Nat.log2 n by omega]
      exact Nat.mul_div_cancel _ (Nat.two_pow_pos _)

theorem isWhole_roundNat (hlt : n < 2 ^ 24) : isWhole (roundNat n) = true := by
  by_cases hpos : n = 0
  · subst hpos
    decide
  · obtain ⟨hscale, hsignificand⟩ := fields_roundNat hpos hlt
    rw [isWhole, hscale, hsignificand, decide_eq_true_eq,
      show 150 - (Nat.log2 n + 127) = 23 - Nat.log2 n by omega]
    exact .inr (Nat.mul_mod_left ..)

theorem roundNat_pos (hpos : n ≠ 0) (hlt : n < 2 ^ 24) : 0 < (roundNat n).toNat := by
  rw [toNat_roundNat hpos hlt]
  omega

/-- Every machine number is rounded to a finite one without a sign. -/
theorem toNat_roundNat_lt (hlt : n < 2 ^ 64) : (roundNat n).toNat < 0x7F800000 := by
  by_cases hpos : n = 0
  · subst hpos
    decide
  · by_cases htop : Nat.log2 n ≤ 23
    · have hsmall : n < 2 ^ 24 := Nat.lt_of_lt_of_le Nat.lt_log2_self
        (Nat.pow_le_pow_right (by decide) (by omega))
      obtain ⟨-, -, hhigh⟩ := normal_bounds hpos hsmall
      rw [toNat_roundNat hpos hsmall]
      omega
    · have hlog : Nat.log2 n ≤ 63 := Nat.lt_succ_iff.1 ((Nat.log2_lt hpos).2 hlt)
      have hkept : n / 2 ^ (Nat.log2 n - 23) < 2 ^ 24 := by
        rw [Nat.div_lt_iff_lt_mul (Nat.two_pow_pos _), ← pow_add]
        exact Nat.lt_of_lt_of_le Nat.lt_log2_self (Nat.pow_le_pow_right (by decide) (by omega))
      have hround := nearest_le n (Nat.log2 n - 23)
      rw [roundNat, if_neg hpos, if_neg htop,
        UInt32.toNat_ofNat_of_lt' (by simp only [UInt32.size]; omega)]
      omega

end Round

/-! ## Comparisons of numbers without a sign -/

section Compare

variable {x y : UInt32}

theorem isNaN_of_lt (hx : x.toNat < 0x7F800000) : isNaN x = false := by
  have h : ¬ (exponent x = 255 ∧ fraction x ≠ 0) := by
    rw [exponent]
    omega
  exact decide_eq_false h

theorem rank_of_lt (hx : x.toNat < 0x7F800000) : rank x = x.toNat := if_pos (by omega)

theorem lt_iff (hx : x.toNat < 0x7F800000) (hy : y.toNat < 0x7F800000) :
    lt x y = true ↔ x < y := by
  simp only [lt, isNaN_of_lt hx, isNaN_of_lt hy, rank_of_lt hx, rank_of_lt hy, Bool.not_false,
    Bool.true_and, decide_eq_true_eq, Nat.cast_lt, UInt32.lt_iff_toNat_lt]

theorem eq_iff (hx : x.toNat < 0x7F800000) (hy : y.toNat < 0x7F800000) :
    eq x y = true ↔ x = y := by
  simp only [eq, isNaN_of_lt hx, isNaN_of_lt hy, rank_of_lt hx, rank_of_lt hy, Bool.not_false,
    Bool.true_and, decide_eq_true_eq, Nat.cast_inj, UInt32.toNat_inj]

/-- A number below zero equals no number without a sign. -/
theorem eq_of_rank_neg (hx : x.toNat < 0x7F800000) (hy : rank y < 0) : eq x y = false := by
  have hne : ¬ rank x = rank y := by
    rw [rank_of_lt hx]
    omega
  rw [eq, decide_eq_false hne, Bool.and_false]

end Compare

end Binary32
