import Mathlib

/-!
# Core — the vocabulary every crate shares

The types of `ntd-core`: how deep to reason, what an action does to the world, and the task graph a
plan is made from.  `BTreeMap` is the ordered map of the standard library, whose equality is
equality of contents and whose entries are met in key order.
-/

namespace NTD97

/-- The ordered map of the source's standard library. -/
abbrev BTreeMap (κ β : Type) [Ord κ] := Std.ExtTreeMap κ β

/-- A byte vector. -/
abbrev Bytes := List UInt8

inductive ReasoningBudget where
  | reflex
  | standard
  | deep
  | recovery
  deriving DecidableEq, Repr

inductive SideEffectClass where
  | readOnly
  | reversible
  | externalWrite
  | irreversible
  deriving DecidableEq, Repr

structure Intent where
  objective : String
  completionCriteria : List String
  maxSteps : UInt32
  deriving DecidableEq, Repr

/-- The default intent is bounded to 32 steps. -/
def Intent.new (objective : String) : Intent where
  objective := objective
  completionCriteria := []
  maxSteps := 32

structure CapabilityId where
  val : String
  deriving DecidableEq, Repr

structure ActionNode where
  id : UInt32
  capability : CapabilityId
  sideEffect : SideEffectClass
  verificationRequired : Bool
  deriving DecidableEq, Repr

structure TaskGraph where
  actions : List ActionNode := []
  deriving DecidableEq, Repr

/-! ## Machine integers -/

/-- `u64::checked_add`. -/
def checkedAdd64 (a b : UInt64) : Option UInt64 :=
  if a.toNat + b.toNat < 2 ^ 64 then some (a + b) else none

theorem checkedAdd64_eq_some {a b c : UInt64} :
    checkedAdd64 a b = some c ↔ c.toNat = a.toNat + b.toNat := by
  unfold checkedAdd64
  split
  · next h =>
    rw [Option.some.injEq, ← UInt64.toNat_inj, UInt64.toNat_add, Nat.mod_eq_of_lt h, eq_comm]
  · next h =>
    refine ⟨fun hc => (nomatch hc), fun hc => absurd ?_ h⟩
    exact hc ▸ c.toNat_lt

theorem checkedAdd64_eq_none {a b : UInt64} :
    checkedAdd64 a b = none ↔ 2 ^ 64 ≤ a.toNat + b.toNat := by
  unfold checkedAdd64
  split
  · next h => exact ⟨fun hn => (nomatch hn), fun hn => absurd h (Nat.not_lt.2 hn)⟩
  · next h => exact ⟨fun _ => Nat.not_lt.1 h, fun _ => rfl⟩

theorem foldl_max_lt64 {c : UInt64} : ∀ {l : List UInt64} {m : UInt64},
    l.foldl max m < c ↔ m < c ∧ ∀ a ∈ l, a < c
  | [], m => by simp
  | a :: l, m => by
      have hmax : max m a < c ↔ m < c ∧ a < c := by
        rw [show max m a = if m ≤ a then a else m from rfl]
        split
        · next h => exact ⟨fun ha => ⟨UInt64.lt_of_le_of_lt h ha, ha⟩, fun h => h.2⟩
        · next h => exact ⟨fun hm => ⟨hm, UInt64.lt_trans (UInt64.not_le.1 h) hm⟩, fun h => h.1⟩
      rw [List.foldl_cons, foldl_max_lt64, hmax, List.forall_mem_cons, and_assoc]

/-- `u64::checked_mul`. -/
def checkedMul64 (a b : UInt64) : Option UInt64 :=
  if a.toNat * b.toNat < 2 ^ 64 then some (a * b) else none

/-- `u64::saturating_add`. -/
def saturatingAdd64 (a b : UInt64) : UInt64 :=
  if a.toNat + b.toNat < 2 ^ 64 then a + b else UInt64.ofNat (2 ^ 64 - 1)

/-- `u64::saturating_mul`. -/
def saturatingMul64 (a b : UInt64) : UInt64 :=
  if a.toNat * b.toNat < 2 ^ 64 then a * b else UInt64.ofNat (2 ^ 64 - 1)

/-- `u32::saturating_add(1)`. -/
def saturatingSucc32 (a : UInt32) : UInt32 := if a.toNat + 1 < 2 ^ 32 then a + 1 else a

/-- One more is at most `b` exactly if there was room below `b`, or `b` is the largest value. -/
theorem saturatingSucc32_le_iff {a b : UInt32} (hab : a ≤ b) :
    saturatingSucc32 a ≤ b ↔ a < b ∨ b.toNat = 2 ^ 32 - 1 := by
  have hb := b.toNat_lt
  rw [UInt32.le_iff_toNat_le] at hab
  unfold saturatingSucc32
  split
  · next h =>
    rw [UInt32.le_iff_toNat_le, UInt32.lt_iff_toNat_lt, UInt32.toNat_add, UInt32.toNat_one,
      Nat.mod_eq_of_lt h]
    omega
  · next h =>
    rw [UInt32.le_iff_toNat_le, UInt32.lt_iff_toNat_lt]
    omega

/-- One more is another value, except at the largest. -/
theorem saturatingSucc32_eq_self_iff {a : UInt32} :
    saturatingSucc32 a = a ↔ a.toNat = 2 ^ 32 - 1 := by
  have ha := a.toNat_lt
  unfold saturatingSucc32
  split
  · next h =>
    rw [← UInt32.toNat_inj, UInt32.toNat_add, UInt32.toNat_one, Nat.mod_eq_of_lt h]
    omega
  · next h =>
    simp only [true_iff]
    omega

/-- `u64::saturating_add(1)`. -/
def saturatingSucc64 (a : UInt64) : UInt64 := if a.toNat + 1 < 2 ^ 64 then a + 1 else a

theorem saturatingSucc64_ne_zero (a : UInt64) : saturatingSucc64 a ≠ 0 := by
  unfold saturatingSucc64
  split
  · next h =>
    intro h0
    have hn := congrArg UInt64.toNat h0
    rw [UInt64.toNat_add, UInt64.toNat_one, Nat.mod_eq_of_lt h] at hn
    exact Nat.succ_ne_zero _ hn
  · next h =>
    rintro rfl
    exact h (by decide)

/-! ## Floats, by their bits -/

/-- `f32::is_finite` of the number with these bits: its exponent is not all ones. -/
def f32IsFinite (bits : UInt32) : Prop := bits &&& 0x7F800000 ≠ 0x7F800000

instance (bits : UInt32) : Decidable (f32IsFinite bits) := inferInstanceAs (Decidable (_ ≠ _))

/-- The finite number with these bits is above `0.0`: its sign is clear and it is not zero. -/
def f32IsPositive (bits : UInt32) : Prop := 0 < bits ∧ bits < 0x80000000

instance (bits : UInt32) : Decidable (f32IsPositive bits) := inferInstanceAs (Decidable (_ ∧ _))

end NTD97
