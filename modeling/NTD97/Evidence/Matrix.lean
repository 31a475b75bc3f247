import Mathlib
import NTD97.Evidence
import NTD97.Lib.Choosing

/-!
# Evidence/Matrix — the evidence recorded for the targets

    record e₁, record e₂, …   ──▸   entries   ──meets_targets──▸   yes or no

`meets_targets` gives each required profile the first entry that qualifies, so it is the greedy
choice; whether the entries suffice is whether any choice exists.
-/

namespace NTD97

open Text Choosing

structure EvidenceMatrix where
  entries : List DeviceEvidence := []
  deriving DecidableEq

namespace EvidenceMatrix

def new : EvidenceMatrix := {}

def record (self : EvidenceMatrix) (evidence : DeviceEvidence) : EvidenceMatrix :=
  { self with entries := self.entries ++ [evidence] }

/-- The entry qualifies for the required profile. -/
def qualifies (targets : ValidationTargets) (required : String) (entry : DeviceEvidence) : Prop :=
  entry.evidenceClass = .physicalDevice ∧ entry.profile = required ∧
    ¬ isBlank entry.deviceFingerprint ∧ 0 < entry.p95LatencyNanos ∧
    entry.p95LatencyNanos ≤ targets.maxP95LatencyNanos ∧ 0 < entry.energyPerTaskMicrojoules ∧
    entry.energyPerTaskMicrojoules ≤ targets.maxEnergyPerTaskMicrojoules ∧
    targets.minReliabilityPermille ≤ entry.reliabilityPermille ∧
    targets.minRecoveryPermille ≤ entry.recoveryPermille ∧ entry.sovereigntyAuditPassed

instance (targets : ValidationTargets) (required : String) :
    DecidablePred (qualifies targets required) := fun entry =>
  inferInstanceAs (Decidable (entry.evidenceClass = .physicalDevice ∧ _))

/-- The loop of `meets_targets`, with the devices seen so far. -/
def meetsAll (self : EvidenceMatrix) (targets : ValidationTargets) :
    Std.ExtTreeSet String → List String → Bool
  | _, [] => true
  | fingerprints, required :: profiles =>
    match self.entries.find? fun entry => qualifies targets required entry with
    | none => false
    | some evidence =>
      if fingerprints.contains evidence.deviceFingerprint then false
      else meetsAll self targets (fingerprints.insert evidence.deviceFingerprint) profiles

def meetsTargets (self : EvidenceMatrix) (targets : ValidationTargets) : Bool :=
  if !targets.validate then false else meetsAll self targets ∅ targets.requiredPhysicalProfiles

/-- The matrix after a sequence of `record` calls. -/
def recordAll (evidence : List DeviceEvidence) : EvidenceMatrix := evidence.foldl record new

theorem foldl_record : ∀ (evidence : List DeviceEvidence) (self : EvidenceMatrix),
    (evidence.foldl record self).entries = self.entries ++ evidence
  | [], self => (List.append_nil _).symm
  | first :: rest, self => by
      rw [List.foldl_cons, foldl_record rest, record, List.append_assoc, List.singleton_append]

@[simp] theorem entries_recordAll (evidence : List DeviceEvidence) :
    (recordAll evidence).entries = evidence := foldl_record evidence new

/-! ## The greedy choice -/

/-- **The loop answers yes** exactly if the first qualifying entries are on distinct devices, none
of them seen before. -/
theorem meetsAll_eq_true {self : EvidenceMatrix} {targets : ValidationTargets} :
    ∀ {profiles : List String} {seen : Std.ExtTreeSet String},
      self.meetsAll targets seen profiles = true ↔
        ∃ chosen, firsts (qualifies targets) self.entries profiles = some chosen ∧
          Fresh DeviceEvidence.deviceFingerprint seen chosen
  | [], seen => iff_of_true rfl ⟨[], rfl, fresh_nil⟩
  | required :: profiles, seen => by
      rw [meetsAll]
      constructor
      · intro h
        split at h
        · exact absurd h Bool.false_ne_true
        · next evidence hfirst =>
          split at h
          · exact absurd h Bool.false_ne_true
          · next hnew =>
            rw [Std.ExtTreeSet.contains_iff_mem] at hnew
            obtain ⟨rest, hrest, hfresh⟩ := meetsAll_eq_true.1 h
            exact ⟨evidence :: rest, firsts_cons.2 ⟨evidence, rest, hfirst, hrest, rfl⟩,
              fresh_cons.2 ⟨hnew, hfresh⟩⟩
      · rintro ⟨chosen, hchosen, hfresh⟩
        obtain ⟨evidence, rest, hfirst, hrest, rfl⟩ := firsts_cons.1 hchosen
        obtain ⟨hnew, hfresh⟩ := fresh_cons.1 hfresh
        rw [← Std.ExtTreeSet.contains_iff_mem] at hnew
        rw [hfirst]
        dsimp only
        rw [if_neg hnew]
        exact meetsAll_eq_true.2 ⟨rest, hrest, hfresh⟩

/-- The matrix meets the targets exactly if they validate and the greedy choice is one. -/
theorem meetsTargets_eq_true {self : EvidenceMatrix} {targets : ValidationTargets} :
    self.meetsTargets targets = true ↔ targets.validate = true ∧
      Greedy (qualifies targets) DeviceEvidence.deviceFingerprint self.entries
        targets.requiredPhysicalProfiles := by
  unfold meetsTargets
  split
  · next h => exact iff_of_false Bool.false_ne_true fun hv => by simp [hv.1] at h
  · next h =>
    rw [and_iff_right (by simpa using h), meetsAll_eq_true]
    exact exists_congr fun chosen => and_congr_right fun _ => fresh_empty

theorem profile_of_qualifies {targets : ValidationTargets} (required required' : String)
    (entry : DeviceEvidence) (h : qualifies targets required entry)
    (h' : qualifies targets required' entry) : required = required' :=
  h.2.1.symm.trans h'.2.1

/-! ## The answer and the evidence -/

/-- The targets validate, and each required profile can be assigned a qualifying entry of its own
device. -/
def Assignable (evidence : List DeviceEvidence) (targets : ValidationTargets) : Prop :=
  targets.validate = true ∧ Choosable (qualifies targets) DeviceEvidence.deviceFingerprint evidence
    targets.requiredPhysicalProfiles

/-- Whatever the order of the `record` calls, the answer is whether the evidence suffices. -/
def DependsOnEvidence (evidence : List DeviceEvidence) (targets : ValidationTargets) : Prop :=
  ∀ evidence', evidence.Perm evidence' →
    ((recordAll evidence').meetsTargets targets = true ↔ Assignable evidence targets)

/-- **When the answer depends on the evidence only**: the targets do not validate, no assignment
exists, or no device qualifies for two of the required profiles. -/
theorem dependsOnEvidence_iff (evidence : List DeviceEvidence) (targets : ValidationTargets) :
    DependsOnEvidence evidence targets ↔ targets.validate = false ∨
      ¬ Choosable (qualifies targets) DeviceEvidence.deviceFingerprint evidence
        targets.requiredPhysicalProfiles ∨
      Clashless (qualifies targets) DeviceEvidence.deviceFingerprint evidence
        targets.requiredPhysicalProfiles := by
  unfold DependsOnEvidence Assignable
  simp only [meetsTargets_eq_true, entries_recordAll]
  cases hvalid : targets.validate with
  | false =>
    exact iff_of_true (fun _ _ => iff_of_false (fun h => Bool.false_ne_true h.1)
      fun h => Bool.false_ne_true h.1) (.inl rfl)
  | true =>
    simp only [true_and, Bool.true_eq_false, false_or]
    exact greedy_iff_choosable_perm profile_of_qualifies

/-- An entry of a profile that qualifies, on a device. -/
def sampleEntry (profile device : String) : DeviceEvidence where
  evidenceClass := .physicalDevice
  profile := profile
  deviceFingerprint := device
  p95LatencyNanos := 1
  energyPerTaskMicrojoules := 1
  reliabilityPermille := 1000
  recoveryPermille := 1000
  sovereigntyAuditPassed := true

def sampleTargets : ValidationTargets :=
  { ValidationTargets.m10Reference with requiredPhysicalProfiles := ["mobile-4gb", "mobile-8gb"] }

/-- A device that qualifies for two profiles, recorded before another of the first profile, is
taken for the first and missed for the second. -/
theorem not_dependsOnEvidence : ∃ targets evidence evidence', evidence.Perm evidence' ∧
    (recordAll evidence).meetsTargets targets ≠ (recordAll evidence').meetsTargets targets := by
  refine ⟨sampleTargets, [sampleEntry "mobile-4gb" "a", sampleEntry "mobile-4gb" "b",
    sampleEntry "mobile-8gb" "a"], [sampleEntry "mobile-4gb" "b", sampleEntry "mobile-4gb" "a",
    sampleEntry "mobile-8gb" "a"], .swap _ _ _, ?_⟩
  decide +kernel

end EvidenceMatrix

end NTD97
