import Mathlib
import NTD97.Core
import NTD97.Lib.Choosing
import NTD97.Lib.Text
import NTD97.Lib.Wire

/-!
# Evidence — the physical evidence gate

    required profiles ──▸ its one record ──▸ checks ──▸ failures, accepted profiles
                                  └─ fingerprint ─▸ the set of devices seen

`evaluate_physical_records` goes through the required profiles and reports every check that fails.
A profile without a record, with several or with an invalid one is reported once and left.
-/

namespace NTD97

open Text Wire Choosing

inductive EvidenceClass where
  | ciSurrogate
  | physicalDevice
  deriving DecidableEq

structure DeviceEvidence where
  evidenceClass : EvidenceClass
  profile : String
  deviceFingerprint : String
  p95LatencyNanos : UInt64
  energyPerTaskMicrojoules : UInt64
  reliabilityPermille : UInt16
  recoveryPermille : UInt16
  sovereigntyAuditPassed : Bool
  deriving DecidableEq

structure PhysicalEvidenceRecord where
  evidence : DeviceEvidence
  buildRevision : String
  totalRamBytes : UInt64
  sampleCount : UInt32
  energySource : String
  deriving DecidableEq

def PhysicalEvidenceRecord.validate (self : PhysicalEvidenceRecord) : Bool :=
  self.evidence.evidenceClass = .physicalDevice && !isBlank self.evidence.profile &&
    !isBlank self.evidence.deviceFingerprint && 0 < self.evidence.p95LatencyNanos &&
    0 < self.evidence.energyPerTaskMicrojoules && self.evidence.reliabilityPermille ≤ 1000 &&
    self.evidence.recoveryPermille ≤ 1000 && !isBlank self.buildRevision &&
    0 < self.totalRamBytes && 0 < self.sampleCount && !isBlank self.energySource

structure ValidationTargets where
  requiredPhysicalProfiles : List String
  maxP95LatencyNanos : UInt64
  maxEnergyPerTaskMicrojoules : UInt64
  minReliabilityPermille : UInt16
  minRecoveryPermille : UInt16
  deriving DecidableEq

namespace ValidationTargets

def m10Reference : ValidationTargets where
  requiredPhysicalProfiles := ["mobile-4gb", "mobile-8gb", "mobile-12gb"]
  maxP95LatencyNanos := 2000000000
  maxEnergyPerTaskMicrojoules := 5000000
  minReliabilityPermille := 990
  minRecoveryPermille := 990

def validate (self : ValidationTargets) : Bool :=
  !self.requiredPhysicalProfiles.isEmpty && 0 < self.maxP95LatencyNanos &&
    0 < self.maxEnergyPerTaskMicrojoules && self.minReliabilityPermille ≤ 1000 &&
    self.minRecoveryPermille ≤ 1000 &&
    self.requiredPhysicalProfiles.all fun profile => !isBlank profile

end ValidationTargets

inductive EvidenceGateFailure where
  | invalidTargets
  | invalidExpectedRevision
  | missingProfile (profile : String)
  | duplicateProfile (profile : String)
  | invalidRecord (profile : String)
  | buildRevisionMismatch (profile expected actual : String)
  | duplicateFingerprint (fingerprint : String)
  | latencyExceeded (profile : String) (actual maximum : UInt64)
  | energyExceeded (profile : String) (actual maximum : UInt64)
  | reliabilityBelowTarget (profile : String) (actual minimum : UInt16)
  | recoveryBelowTarget (profile : String) (actual minimum : UInt16)
  | sovereigntyAuditMissing (profile : String)
  deriving DecidableEq

structure EvidenceGateReport where
  accepted : Bool := false
  acceptedProfiles : List String := []
  failures : List EvidenceGateFailure := []
  deriving DecidableEq

/-- `u8::is_ascii_hexdigit`. -/
def isAsciiHexdigit (byte : UInt8) : Bool :=
  (48 ≤ byte && byte ≤ 57) || (65 ≤ byte && byte ≤ 70) || (97 ≤ byte && byte ≤ 102)

def isGitRevision (value : String) : Bool :=
  (utf8 value).length = 40 && (utf8 value).all isAsciiHexdigit

/-! ## The gate -/

namespace EvidenceGate

/-- What the loop carries: the report so far, and the devices seen. -/
structure State where
  report : EvidenceGateReport
  fingerprints : Std.ExtTreeSet String

/-- A failure, reported when its check fails. -/
def failing (check : Bool) (failure : EvidenceGateFailure) : List EvidenceGateFailure :=
  if check then [failure] else []

def State.fail (self : State) (failure : EvidenceGateFailure) : State :=
  { self with report :=
    { self.report with failures := self.report.failures ++ [failure] } }

/-- The checks of the one valid record of a profile, in the order in which they report. -/
def recordFailures (targets : ValidationTargets) (expectedRevision required : String)
    (fingerprints : Std.ExtTreeSet String) (record : PhysicalEvidenceRecord) : List EvidenceGateFailure :=
  let evidence := record.evidence
  failing (record.buildRevision ≠ expectedRevision)
      (.buildRevisionMismatch required expectedRevision record.buildRevision) ++
    failing (fingerprints.contains evidence.deviceFingerprint)
      (.duplicateFingerprint evidence.deviceFingerprint) ++
    failing (targets.maxP95LatencyNanos < evidence.p95LatencyNanos)
      (.latencyExceeded required evidence.p95LatencyNanos targets.maxP95LatencyNanos) ++
    failing (targets.maxEnergyPerTaskMicrojoules < evidence.energyPerTaskMicrojoules)
      (.energyExceeded required evidence.energyPerTaskMicrojoules
        targets.maxEnergyPerTaskMicrojoules) ++
    failing (evidence.reliabilityPermille < targets.minReliabilityPermille)
      (.reliabilityBelowTarget required evidence.reliabilityPermille
        targets.minReliabilityPermille) ++
    failing (evidence.recoveryPermille < targets.minRecoveryPermille)
      (.recoveryBelowTarget required evidence.recoveryPermille targets.minRecoveryPermille) ++
    failing (!evidence.sovereigntyAuditPassed) (.sovereigntyAuditMissing required)

/-- The body of the loop, with the records of the required profile. -/
def evaluateMatching (targets : ValidationTargets) (expectedRevision required : String)
    (self : State) : List PhysicalEvidenceRecord → State
  | [] => self.fail (.missingProfile required)
  | [record] =>
    if record.validate then
      let failures := recordFailures targets expectedRevision required self.fingerprints record
      { report := { self.report with
          failures := self.report.failures ++ failures
          acceptedProfiles :=
            if failures = [] then self.report.acceptedProfiles ++ [required]
            else self.report.acceptedProfiles }
        fingerprints := self.fingerprints.insert record.evidence.deviceFingerprint }
    else self.fail (.invalidRecord required)
  | _ :: _ :: _ => self.fail (.duplicateProfile required)

/-- The records of a profile. -/
def matching (records : List PhysicalEvidenceRecord) (required : String) :
    List PhysicalEvidenceRecord :=
  records.filter fun record => record.evidence.profile = required

def evaluateRequired (records : List PhysicalEvidenceRecord) (targets : ValidationTargets)
    (expectedRevision : String) (self : State) (required : String) : State :=
  evaluateMatching targets expectedRevision required self (matching records required)

end EvidenceGate

open EvidenceGate in
def evaluatePhysicalRecords (records : List PhysicalEvidenceRecord) (targets : ValidationTargets)
    (expectedRevision : String) : EvidenceGateReport :=
  if !targets.validate then { failures := [.invalidTargets] }
  else if !isGitRevision expectedRevision then { failures := [.invalidExpectedRevision] }
  else
    let report := (targets.requiredPhysicalProfiles.foldl
      (evaluateRequired records targets expectedRevision) ⟨{}, ∅⟩).report
    { report with accepted := report.failures.isEmpty &&
        report.acceptedProfiles.length = targets.requiredPhysicalProfiles.length }

/-! ## A revision -/

/-- A hexadecimal digit, in either case. -/
def IsHexDigit (c : Char) : Prop :=
  ('0' ≤ c ∧ c ≤ '9') ∨ ('A' ≤ c ∧ c ≤ 'F') ∨ ('a' ≤ c ∧ c ≤ 'f')

instance (c : Char) : Decidable (IsHexDigit c) := inferInstanceAs (Decidable (_ ∨ _))

theorem utf8_eq_flatMap (s : String) : utf8 s = s.toList.flatMap String.utf8EncodeChar := by
  rw [utf8, ← String.utf8Encode_toList, List.utf8Encode, List.data_toByteArray, List.toList_toArray]

/-- The first bytes of the longer forms of a character are no digits. -/
theorem isAsciiHexdigit_lead :
    (∀ v < 0x20, isAsciiHexdigit (UInt8.ofNat (v + 0xC0)) = false) ∧
      (∀ v < 0x10, isAsciiHexdigit (UInt8.ofNat (v + 0xE0)) = false) ∧
        ∀ v < 0x08, isAsciiHexdigit (UInt8.ofNat (v + 0xF0)) = false := by
  decide +kernel

theorem isAsciiHexdigit_ascii : ∀ v < 0x80,
    isAsciiHexdigit (UInt8.ofNat v) = true ↔ IsHexDigit (Char.ofNat v) := by
  decide +kernel

/-- The bytes of a character are digits exactly if it is one, and then it is one byte. -/
theorem all_isAsciiHexdigit_char (c : Char) :
    (String.utf8EncodeChar c).all isAsciiHexdigit = true ↔ IsHexDigit c := by
  obtain ⟨htwo, hthree, hfour⟩ := isAsciiHexdigit_lead
  have hbig : IsHexDigit c → c.val.toNat ≤ 0x7f := by
    rintro (⟨-, h⟩ | ⟨-, h⟩ | ⟨-, h⟩) <;> exact (UInt32.le_iff_toNat_le.1 h).trans (by decide)
  unfold String.utf8EncodeChar
  dsimp only
  split
  · next h =>
    rw [List.all_cons, List.all_nil, Bool.and_true, isAsciiHexdigit_ascii _ (Nat.lt_succ_of_le h)]
    exact iff_of_eq (congrArg IsHexDigit (Char.ofNat_toNat c))
  · next h =>
    refine iff_of_false ?_ fun hc => h (hbig hc)
    split
    · rw [List.all_cons, htwo _ (Nat.mod_lt _ (by decide))]
      exact Bool.false_ne_true
    · split
      · rw [List.all_cons, hthree _ (Nat.mod_lt _ (by decide))]
        exact Bool.false_ne_true
      · rw [List.all_cons, hfour _ (Nat.mod_lt _ (by decide))]
        exact Bool.false_ne_true

/-- **A revision is forty hexadecimal digits.** -/
theorem isGitRevision_iff {value : String} : isGitRevision value = true ↔
    value.toList.length = 40 ∧ ∀ c ∈ value.toList, IsHexDigit c := by
  have hall : (utf8 value).all isAsciiHexdigit = true ↔ ∀ c ∈ value.toList, IsHexDigit c := by
    rw [utf8_eq_flatMap, List.all_flatMap, List.all_eq_true]
    exact forall₂_congr fun c _ => all_isAsciiHexdigit_char c
  have hlen : (∀ c ∈ value.toList, IsHexDigit c) → (utf8 value).length = value.toList.length := by
    intro h
    rw [utf8_eq_flatMap, List.length_flatMap, List.map_congr_left (g := fun _ => 1), List.map_const']
    · rw [List.sum_replicate, smul_eq_mul, mul_one]
    · intro c hc
      rw [String.length_utf8EncodeChar]
      rcases h c hc with ⟨-, h⟩ | ⟨-, h⟩ | ⟨-, h⟩ <;>
        exact if_pos (UInt32.le_iff_toNat_le.2 ((UInt32.le_iff_toNat_le.1 h).trans (by decide)))
  rw [isGitRevision, Bool.and_eq_true, decide_eq_true_eq, hall]
  exact and_congr_left fun h => by rw [hlen h]

/-! ## One profile -/

namespace EvidenceGate

variable {records records' : List PhysicalEvidenceRecord} {targets : ValidationTargets}
  {expectedRevision required : String} {record : PhysicalEvidenceRecord} {self : State}

/-- A profile has this record and no other, and nothing is wrong with it. -/
structure Passes (records : List PhysicalEvidenceRecord) (targets : ValidationTargets)
    (expectedRevision required : String) (record : PhysicalEvidenceRecord) : Prop where
  only : records.filter (fun record => record.evidence.profile = required) = [record]
  valid : record.validate = true
  revision : record.buildRevision = expectedRevision
  latency : record.evidence.p95LatencyNanos ≤ targets.maxP95LatencyNanos
  energy : record.evidence.energyPerTaskMicrojoules ≤ targets.maxEnergyPerTaskMicrojoules
  reliability : targets.minReliabilityPermille ≤ record.evidence.reliabilityPermille
  recovery : targets.minRecoveryPermille ≤ record.evidence.recoveryPermille
  audit : record.evidence.sovereigntyAuditPassed = true

@[simp] theorem failing_eq_nil {check : Bool} {failure : EvidenceGateFailure} :
    failing check failure = [] ↔ check = false := by
  cases check <;> simp [failing]

theorem recordFailures_eq_nil {fingerprints : Std.ExtTreeSet String} :
    recordFailures targets expectedRevision required fingerprints record = [] ↔
      record.buildRevision = expectedRevision ∧
      record.evidence.deviceFingerprint ∉ fingerprints ∧
      record.evidence.p95LatencyNanos ≤ targets.maxP95LatencyNanos ∧
      record.evidence.energyPerTaskMicrojoules ≤ targets.maxEnergyPerTaskMicrojoules ∧
      targets.minReliabilityPermille ≤ record.evidence.reliabilityPermille ∧
      targets.minRecoveryPermille ≤ record.evidence.recoveryPermille ∧
      record.evidence.sovereigntyAuditPassed = true := by
  simp only [recordFailures, List.append_eq_nil_iff, failing_eq_nil, decide_eq_false_iff_not,
    ne_eq, not_not, UInt64.not_lt, UInt16.not_lt, Bool.not_eq_false', and_assoc,
    ← Std.ExtTreeSet.contains_iff_mem, Bool.not_eq_true]

@[simp] theorem State.fail_failures (failure : EvidenceGateFailure) :
    (self.fail failure).report.failures = [] ↔ False := by
  simp [State.fail]

/-- **One profile is clean** if everything was, and its one record passes on a device not seen
before. -/
theorem evaluateRequired_clean :
    (evaluateRequired records targets expectedRevision self required).report.failures = [] ↔
      self.report.failures = [] ∧ ∃ record, Passes records targets expectedRevision required record ∧
        record.evidence.deviceFingerprint ∉ self.fingerprints := by
  unfold evaluateRequired matching
  constructor
  · intro h
    unfold evaluateMatching at h
    split at h
    · exact ((State.fail_failures _).1 h).elim
    · next record honly =>
      split at h
      · next hvalid =>
        obtain ⟨hself, hrecord⟩ := List.append_eq_nil_iff.1 h
        obtain ⟨hrev, hfresh, hlat, hen, hrel, hrec, haudit⟩ := recordFailures_eq_nil.1 hrecord
        exact ⟨hself, record, ⟨honly, hvalid, hrev, hlat, hen, hrel, hrec, haudit⟩, hfresh⟩
      · exact ((State.fail_failures _).1 h).elim
    · exact ((State.fail_failures _).1 h).elim
  · rintro ⟨hself, record, hpass, hfresh⟩
    rw [hpass.only, evaluateMatching, if_pos hpass.valid]
    exact List.append_eq_nil_iff.2 ⟨hself, recordFailures_eq_nil.2 ⟨hpass.revision, hfresh,
      hpass.latency, hpass.energy, hpass.reliability, hpass.recovery, hpass.audit⟩⟩

/-- A record that passes is accepted, and its device is seen from then on. -/
theorem evaluateRequired_of_passes (hpass : Passes records targets expectedRevision required record)
    (hfresh : record.evidence.deviceFingerprint ∉ self.fingerprints) :
    evaluateRequired records targets expectedRevision self required =
      { report := { self.report with
          acceptedProfiles := self.report.acceptedProfiles ++ [required] }
        fingerprints := self.fingerprints.insert record.evidence.deviceFingerprint } := by
  have hnone : recordFailures targets expectedRevision required self.fingerprints record = [] :=
    recordFailures_eq_nil.2 ⟨hpass.revision, hfresh, hpass.latency, hpass.energy,
      hpass.reliability, hpass.recovery, hpass.audit⟩
  rw [evaluateRequired, matching, hpass.only, evaluateMatching, if_pos hpass.valid, hnone]
  dsimp only
  rw [List.append_nil, if_pos rfl]

/-! ## All of them -/

/-- The records chosen pass, on pairwise distinct devices, none of them seen before. -/
def Clear (records : List PhysicalEvidenceRecord) (targets : ValidationTargets)
    (expectedRevision : String) (seen : Std.ExtTreeSet String) (profiles : List String)
    (chosen : List PhysicalEvidenceRecord) : Prop :=
  List.Forall₂ (Passes records targets expectedRevision) profiles chosen ∧
    Fresh (fun record => record.evidence.deviceFingerprint) seen chosen

theorem clear_cons {seen : Std.ExtTreeSet String} {profiles : List String}
    {chosen : List PhysicalEvidenceRecord} :
    Clear records targets expectedRevision seen (required :: profiles) chosen ↔
      ∃ record rest, chosen = record :: rest ∧
        Passes records targets expectedRevision required record ∧
          record.evidence.deviceFingerprint ∉ seen ∧
            Clear records targets expectedRevision
              (seen.insert record.evidence.deviceFingerprint) profiles rest := by
  constructor
  · rintro ⟨hall, hfresh⟩
    obtain ⟨record, rest, hpass, hrest, rfl⟩ := List.forall₂_cons_left_iff.1 hall
    obtain ⟨hnew, hfresh⟩ := fresh_cons.1 hfresh
    exact ⟨record, rest, rfl, hpass, hnew, hrest, hfresh⟩
  · rintro ⟨record, rest, rfl, hpass, hnew, hall, hfresh⟩
    exact ⟨.cons hpass hall, fresh_cons.2 ⟨hnew, hfresh⟩⟩

/-- **The loop ends clean** exactly if records can be chosen that are clear, and then it has
accepted every profile. -/
theorem foldl_evaluateRequired : ∀ (profiles : List String) (self : State),
    ((profiles.foldl (evaluateRequired records targets expectedRevision) self).report.failures = [] ↔
      self.report.failures = [] ∧ ∃ chosen,
        Clear records targets expectedRevision self.fingerprints profiles chosen) ∧
    ((profiles.foldl (evaluateRequired records targets expectedRevision) self).report.failures = [] →
      (profiles.foldl (evaluateRequired records targets expectedRevision)
        self).report.acceptedProfiles = self.report.acceptedProfiles ++ profiles)
  | [], self => by
      refine ⟨⟨fun h => ⟨h, [], .nil, fresh_nil⟩, fun h => h.1⟩, fun _ => (List.append_nil _).symm⟩
  | required :: profiles, self => by
      obtain ⟨hclean, haccepted⟩ := foldl_evaluateRequired profiles
        (evaluateRequired records targets expectedRevision self required)
      rw [List.foldl_cons, hclean, evaluateRequired_clean]
      constructor
      · constructor
        · rintro ⟨⟨hself, record, hpass, hfresh⟩, rest, hrest⟩
          rw [evaluateRequired_of_passes hpass hfresh] at hrest
          exact ⟨hself, record :: rest, clear_cons.2 ⟨record, rest, rfl, hpass, hfresh, hrest⟩⟩
        · rintro ⟨hself, chosen, hchosen⟩
          obtain ⟨record, rest, -, hpass, hfresh, hrest⟩ := clear_cons.1 hchosen
          refine ⟨⟨hself, record, hpass, hfresh⟩, rest, ?_⟩
          rw [evaluateRequired_of_passes hpass hfresh]
          exact hrest
      · rintro ⟨⟨hself, record, hpass, hfresh⟩, hrest⟩
        rw [haccepted (hclean.2 ⟨evaluateRequired_clean.2 ⟨hself, record, hpass, hfresh⟩, hrest⟩),
          evaluateRequired_of_passes hpass hfresh, List.append_assoc, List.singleton_append]

/-! ## The order of the records -/

/-- The loop's body depends on how many records there are, and on a single one. -/
theorem evaluateMatching_perm : ∀ {l l' : List PhysicalEvidenceRecord}, l.Perm l' →
    evaluateMatching targets expectedRevision required self l =
      evaluateMatching targets expectedRevision required self l'
  | [], l', h => by rw [List.nil_perm.1 h]
  | [record], l', h => by rw [List.singleton_perm.1 h]
  | _ :: _ :: _, [], h => absurd h.length_eq (by simp)
  | _ :: _ :: _, [_], h => absurd h.length_eq (by simp)
  | _ :: _ :: _, _ :: _ :: _, _ => rfl

theorem evaluateRequired_perm (h : records.Perm records') :
    evaluateRequired records targets expectedRevision =
      evaluateRequired records' targets expectedRevision :=
  funext fun _ => funext fun _ => evaluateMatching_perm (h.filter _)

end EvidenceGate

open EvidenceGate in
/-- **The gate is exact and does not depend on the order of the records.**  It accepts exactly if
the targets validate, the revision is forty hexadecimal digits and each required profile has one
record, which passes, on pairwise distinct devices. -/
theorem evaluatePhysicalRecords_exact (records : List PhysicalEvidenceRecord)
    (targets : ValidationTargets) (expectedRevision : String) :
    ((evaluatePhysicalRecords records targets expectedRevision).accepted = true ↔
      targets.validate = true ∧
      (expectedRevision.toList.length = 40 ∧ ∀ c ∈ expectedRevision.toList, IsHexDigit c) ∧
      ∃ chosen, List.Forall₂ (Passes records targets expectedRevision)
          targets.requiredPhysicalProfiles chosen ∧
        (chosen.map (·.evidence.deviceFingerprint)).Nodup) ∧
    ∀ records', records.Perm records' → evaluatePhysicalRecords records' targets expectedRevision =
      evaluatePhysicalRecords records targets expectedRevision := by
  constructor
  · rw [← isGitRevision_iff]
    unfold evaluatePhysicalRecords
    split
    · next h => exact iff_of_false Bool.false_ne_true fun hv => by simp [hv.1] at h
    · next hvalid =>
      split
      · next h => exact iff_of_false Bool.false_ne_true fun hv => by simp [hv.2.1] at h
      · next hrevision =>
        have hvalid : targets.validate = true := by simpa using hvalid
        have hrevision : isGitRevision expectedRevision = true := by simpa using hrevision
        rw [and_iff_right hvalid, and_iff_right hrevision]
        dsimp only
        rw [Bool.and_eq_true, List.isEmpty_iff, decide_eq_true_eq]
        obtain ⟨hclean, haccepted⟩ := @foldl_evaluateRequired records targets expectedRevision
          targets.requiredPhysicalProfiles ⟨{}, ∅⟩
        constructor
        · rintro ⟨hnone, -⟩
          obtain ⟨-, chosen, hall, hfresh⟩ := hclean.1 hnone
          exact ⟨chosen, hall, fresh_empty.1 hfresh⟩
        · rintro ⟨chosen, hall, hnodup⟩
          have hnone := hclean.2 ⟨rfl, chosen, hall, fresh_empty.2 hnodup⟩
          exact ⟨hnone, by rw [haccepted hnone, List.nil_append]⟩
  · intro records' h
    unfold evaluatePhysicalRecords
    rw [evaluateRequired_perm h]

end NTD97
