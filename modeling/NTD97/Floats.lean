import Mathlib
import NTD97.Core
import NTD97.Lib.Binary32

/-!
# Floats — the operations of the processor

Numbers are their bits.  What the kernels compute with them is a parameter, `F32Ops`; comparisons and
the conversions from and to whole numbers are those of `Lib/Binary32` where a result rests on them,
and `F32Ops.ieee` puts them in place.
-/

namespace NTD97

/-- A number of single precision, by its bits. -/
abbrev F32 := UInt32

namespace F32

def zero : F32 := 0
def one : F32 := 0x3F800000
def negOne : F32 := 0xBF800000
def tenThousand : F32 := 0x461C4000
def oneHundredth : F32 := 0x3C23D70A
def defaultEpsilon : F32 := 0x3727C5AC
def negInfinity : F32 := 0xFF800000

end F32

/-- The operations on numbers; `sum` is that of an iterator, `ofF64` and `ofInt` are casts. -/
structure F32Ops where
  add : F32 → F32 → F32
  sub : F32 → F32 → F32
  mul : F32 → F32 → F32
  div : F32 → F32 → F32
  max : F32 → F32 → F32
  powf : F32 → F32 → F32
  neg : F32 → F32
  abs : F32 → F32
  sqrt : F32 → F32
  exp : F32 → F32
  sin : F32 → F32
  cos : F32 → F32
  sum : List F32 → F32
  ofF64 : UInt64 → F32
  ofInt : ℤ → F32
  toUsize : F32 → ℕ
  isFinite : F32 → Bool
  isWhole : F32 → Bool
  lt : F32 → F32 → Bool
  eq : F32 → F32 → Bool

namespace F32Ops

variable (ops : F32Ops)

def le (x y : F32) : Bool := ops.lt x y || ops.eq x y

/-- `as f32` of an integer of up to 64 bits. -/
def castInt (i : ℤ) : F32 :=
  if i < 0 then Binary32.roundNat i.natAbs ||| 0x80000000 else Binary32.roundNat i.natAbs

/-- `as usize`, which saturates. -/
def castUsize (x : F32) : ℕ :=
  if x.toNat < 0x7F800000 then min (Binary32.truncate x) (2 ^ 64 - 1)
  else if x = 0x7F800000 then 2 ^ 64 - 1 else 0

/-- The same arithmetic, with the comparisons and the whole numbers of the standard. -/
def ieee : F32Ops where
  __ := ops
  ofInt := castInt
  toUsize := castUsize
  isFinite x := f32IsFinite x
  isWhole := Binary32.isWhole
  lt := Binary32.lt
  eq := Binary32.eq

/-- Machine words in place of numbers, for small runs. -/
def words : F32Ops where
  add x y := x + y
  sub x y := x - y
  mul x y := x * y
  div x y := x / y
  max x _ := x
  powf x _ := x
  neg x := x
  abs x := x
  sqrt x := x
  exp x := x
  sin x := x
  cos x := x
  sum l := l.sum
  ofF64 x := x.toUInt32
  ofInt i := UInt32.ofNat i.toNat
  toUsize x := x.toNat
  isFinite _ := true
  isWhole _ := true
  lt x y := x < y
  eq x y := x == y

@[simp] theorem isFinite_ieee (x : F32) : ops.ieee.isFinite x = decide (f32IsFinite x) := rfl

@[simp] theorem isWhole_ieee : ops.ieee.isWhole = Binary32.isWhole := rfl

@[simp] theorem lt_ieee : ops.ieee.lt = Binary32.lt := rfl

@[simp] theorem eq_ieee : ops.ieee.eq = Binary32.eq := rfl

theorem ofInt_ieee (n : ℕ) : ops.ieee.ofInt n = Binary32.roundNat n := by
  change castInt n = _
  rw [castInt, if_neg (Int.not_lt.2 (Int.natCast_nonneg n)), Int.natAbs_natCast]

theorem toUsize_ieee {x : F32} (hx : x.toNat < 0x7F800000) :
    ops.ieee.toUsize x = min (Binary32.truncate x) (2 ^ 64 - 1) := if_pos hx

end F32Ops

/-! ## Whole numbers in single precision -/

theorem f32IsFinite_of_lt {x : F32} (hx : x.toNat < 0x7F800000) : f32IsFinite x := by
  intro h
  have hle : x.toNat &&& 0x7F800000 ≤ x.toNat := Nat.and_le_left
  have hmask : x.toNat &&& 0x7F800000 = 0x7F800000 := by
    have hbits := congrArg UInt32.toNat h
    rwa [UInt32.toNat_and] at hbits
  omega

/-- The cast of a machine number is finite and not below zero. -/
structure IsIndex (ops : F32Ops) (x : F32) : Prop where
  finite : ops.isFinite x = true
  nonneg : ops.lt x F32.zero = false

/-- **The cast of a number that fits the significand is that number.** -/
structure IsNumber (ops : F32Ops) (x : F32) (n : ℕ) : Prop extends IsIndex ops x where
  whole : ops.isWhole x = true
  value : ops.toUsize x = n
  zero : ops.eq x F32.zero = decide (n = 0)
  positive : ops.lt F32.zero x = decide (n ≠ 0)
  negOne : ops.eq x F32.negOne = false

section Whole

variable {n : ℕ} (ops : F32Ops)

theorem toNat_zero_lt : F32.zero.toNat < 0x7F800000 := by decide

theorem isIndex_ofInt (hlt : n < 2 ^ 64) : IsIndex ops.ieee (ops.ieee.ofInt n) := by
  have hbits := Binary32.toNat_roundNat_lt hlt
  rw [F32Ops.ofInt_ieee]
  refine ⟨decide_eq_true (f32IsFinite_of_lt hbits), ?_⟩
  rw [F32Ops.lt_ieee, ← Bool.not_eq_true, Binary32.lt_iff hbits toNat_zero_lt, F32.zero,
    UInt32.lt_iff_toNat_lt]
  exact Nat.not_lt_zero _

theorem zero_lt_roundNat (hlt : n < 2 ^ 24) : F32.zero < Binary32.roundNat n ↔ n ≠ 0 := by
  rw [F32.zero, UInt32.lt_iff_toNat_lt]
  constructor
  · rintro h rfl
    exact absurd h (by decide)
  · intro hn
    exact Binary32.roundNat_pos hn hlt

theorem roundNat_eq_zero (hlt : n < 2 ^ 24) : Binary32.roundNat n = F32.zero ↔ n = 0 := by
  constructor
  · intro h
    by_contra hn
    have hpos := (zero_lt_roundNat hlt).2 hn
    rw [h] at hpos
    exact absurd hpos (by decide)
  · rintro rfl
    rfl

theorem isNumber_ofInt (hlt : n < 2 ^ 24) : IsNumber ops.ieee (ops.ieee.ofInt n) n := by
  have hlt' : n < 2 ^ 64 := by omega
  have hbits := Binary32.toNat_roundNat_lt hlt'
  refine ⟨isIndex_ofInt ops hlt', ?_, ?_, ?_, ?_, ?_⟩
  · rw [F32Ops.ofInt_ieee, F32Ops.isWhole_ieee, Binary32.isWhole_roundNat hlt]
  · rw [F32Ops.ofInt_ieee, F32Ops.toUsize_ieee ops hbits, Binary32.truncate_roundNat hlt]
    omega
  · rw [F32Ops.ofInt_ieee, F32Ops.eq_ieee, Bool.eq_iff_iff, Binary32.eq_iff hbits toNat_zero_lt,
      decide_eq_true_eq, roundNat_eq_zero hlt]
  · rw [F32Ops.ofInt_ieee, F32Ops.lt_ieee, Bool.eq_iff_iff, Binary32.lt_iff toNat_zero_lt hbits,
      decide_eq_true_eq, zero_lt_roundNat hlt]
  · rw [F32Ops.ofInt_ieee, F32Ops.eq_ieee]
    exact Binary32.eq_of_rank_neg hbits (by decide)

end Whole

end NTD97
