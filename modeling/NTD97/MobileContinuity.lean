import Mathlib
import NTD97.CognitiveCheckpoint
import NTD97.ActionCheckpoint

/-!
# MobileContinuity — the MCS97 bundle of a mobile session

    build ──▸ bundle ──encode──▸ bytes ──decode──▸ bundle ──restore──▸ session

A bundle holds the files of the mind and of the action fabric, a snapshot of the registry, and what
the shell was waiting for.  The decoder puts every descriptor into normal form, so it accepts more
than one spelling; what was built is recovered all the same, since a registry holds normal
descriptors only.
-/

namespace NTD97

open Guard Text SortedMap Wire

/-- The letters `MCS97` and a zero byte. -/
def mcs97Magic : Bytes := [77, 67, 83, 57, 55, 0]

/-- The format `MCS97`, version `0.2`. -/
def mcs97 : Format where
  magic := mcs97Magic
  major := 0
  minor := 2
  magic_length := rfl

/-- What the shell was doing. -/
inductive MobileContinuityState where
  | interactive
  | activeExecution
  | checkpointed
  | suspendedByOs
  | waitingCondition
  | waitingApproval
  | reconstructing
  | verifyingResume
  | completed
  | failedRecoverable
  deriving DecidableEq

/-- Why the shell was started. -/
inductive WakeReason where
  | userInteraction
  | foregroundExecution
  | scheduledWork
  | retryBackoff
  | reboot
  | approvalResolved
  | networkAvailable
  | charging
  | manualRecovery
  deriving DecidableEq

/-- The approval that the user is asked for. -/
structure PendingApproval where
  taskId : UInt64
  planId : UInt64
  actionId : UInt64
  capability : String
  rationale : String
  deriving DecidableEq

/-- How long to wait before the next try. -/
structure RetryBackoff where
  attempts : UInt32
  notBeforeEpochMs : UInt64
  baseDelayMs : UInt64
  maxDelayMs : UInt64
  deriving DecidableEq

/-- Everything that survives the death of the process. -/
structure MobileContinuityBundle where
  identity : CognitiveIdentity
  state : MobileContinuityState
  wakeReason : WakeReason
  checkpointSequence : UInt64
  cognitiveCheckpoint : Bytes
  actionCheckpoint : Bytes
  capabilities : List CapabilityDescriptor
  pendingApproval : Option PendingApproval
  retry : Option RetryBackoff
  deriving DecidableEq

/-- The live mind and fabric of a bundle, without adapters. -/
structure RestoredMobileSession (W : Type) where
  cognitive : CognitiveState
  actions : ActionFabric W
  state : MobileContinuityState
  wakeReason : WakeReason
  checkpointSequence : UInt64
  pendingApproval : Option PendingApproval
  retry : Option RetryBackoff

/-- The debug text of an error, kept as the error it shows. -/
inductive DebugText where
  | capability (error : CapabilityError)
  | cognitive (error : CognitiveError)
  | fabric (error : ActionFabricError)
  | cognitiveFile (error : CheckpointError)
  | actionFile (error : ActionCheckpointError)
  deriving DecidableEq

/-- Why a bundle is not written or not restored. -/
inductive MobileContinuityError where
  | truncated
  | invalidMagic
  | invalidHeader
  | unsupportedVersion (major minor : UInt16)
  | invalidUtf8
  | invalidBoolean (raw : UInt8)
  | invalidContinuityState (raw : UInt8)
  | invalidWakeReason (raw : UInt8)
  | nonCanonicalEncoding
  | invalidIdentity
  | invalidRetryBackoff
  | invalidApproval
  | taskActionMismatch (taskId : UInt64)
  | overflow
  | cognitiveCheckpoint (text : DebugText)
  | actionCheckpoint (text : DebugText)
  deriving DecidableEq

instance : FrameError MobileContinuityError where
  truncated := .truncated
  overflow := .overflow
  invalidUtf8 := .invalidUtf8
  invalidMagic := .invalidMagic
  invalidHeader := .invalidHeader
  unsupportedVersion := .unsupportedVersion
  nonCanonicalEncoding := .nonCanonicalEncoding

/-- The refusals of a registry are reported as those of the action file. -/
def refusedCapability (error : CapabilityError) : MobileContinuityError :=
  .actionCheckpoint (.capability error)

/-! ## What is checked

A bundle is checked against itself; its links are checked against what its files hold. -/

/-- The delays are in order. -/
def RetryBackoff.validate (self : RetryBackoff) : Except MobileContinuityError Unit :=
  refuse (self.baseDelayMs = 0 ∨ self.maxDelayMs < self.baseDelayMs) .invalidRetryBackoff

/-- The ids are not zero and the texts not blank. -/
def validateApproval (approval : PendingApproval) : Except MobileContinuityError Unit :=
  refuse (approval.taskId = 0 ∨ approval.planId = 0 ∨ approval.actionId = 0 ∨
    isBlank approval.capability ∨ isBlank approval.rationale) .invalidApproval

/-- The descriptors in id order. -/
def CapabilityRegistry.list (self : CapabilityRegistry) : List CapabilityDescriptor :=
  self.descriptors.toList.map Prod.snd

/-- `registry_from_snapshot`: descriptors registered one by one. -/
def registryFromSnapshot (descriptors : List CapabilityDescriptor) :
    Except MobileContinuityError CapabilityRegistry :=
  descriptors.foldlM (fun registry descriptor =>
    (registry.register descriptor).mapError refusedCapability) CapabilityRegistry.new

/-- Every plan belongs to a task of the mind, and a pending approval to an action of a plan. -/
def validateLinks (cognitive : CognitiveState) (actions : ActionFabricState)
    (approval : Option PendingApproval) : Except MobileContinuityError Unit := do
  actions.plans.toList.forM fun (_, plan) =>
    refuse (¬ cognitive.tasks.contains plan.taskId) (.taskActionMismatch plan.taskId)
  approval.forM fun approval => do
    validateApproval approval
    let plan ← okOr actions.plans[approval.planId]? .invalidApproval
    refuse (plan.taskId ≠ approval.taskId ∨ ¬ plan.actions.any fun action =>
      action.id.val = approval.actionId ∧ action.capability.val = approval.capability)
      .invalidApproval

/-- `validate_bundle`: the action file must decode against the snapshot. -/
def validateBundle (bundle : MobileContinuityBundle) : Except MobileContinuityError Unit := do
  refuse (bundle.checkpointSequence = 0 ∨ bundle.cognitiveCheckpoint = [] ∨
    bundle.actionCheckpoint = []) .nonCanonicalEncoding
  refuse (¬ bundle.capabilities.IsChain fun a b => a.id.val < b.id.val) .nonCanonicalEncoding
  let registry ← registryFromSnapshot bundle.capabilities
  let _ ← (decodeActionFabricCheckpoint registry bundle.actionCheckpoint).mapError fun error =>
    MobileContinuityError.actionCheckpoint (.actionFile error)
  bundle.retry.forM RetryBackoff.validate
  bundle.pendingApproval.forM fun approval => do
    validateApproval approval
    refuse (bundle.state ≠ .waitingApproval) .invalidApproval
  refuse (bundle.state = .waitingApproval ∧ bundle.pendingApproval = none) .invalidApproval

/-! ## Building and restoring

Both ends check the bundle, so what is built can be restored. -/

/-- `build_mobile_continuity_bundle`: the two files first, then the links between them. -/
def buildMobileContinuityBundle (cognitive : CognitiveState) (registry : CapabilityRegistry)
    (actions : ActionFabricState) (state : MobileContinuityState) (wakeReason : WakeReason)
    (checkpointSequence : UInt64) (pendingApproval : Option PendingApproval)
    (retry : Option RetryBackoff) : Except MobileContinuityError MobileContinuityBundle := do
  refuse (checkpointSequence = 0) .nonCanonicalEncoding
  retry.forM RetryBackoff.validate
  let cognitiveCheckpoint ← (encodeCognitiveCheckpoint cognitive).mapError fun error =>
    MobileContinuityError.cognitiveCheckpoint (.cognitiveFile error)
  let actionCheckpoint ← (encodeActionFabricCheckpoint registry actions).mapError fun error =>
    MobileContinuityError.actionCheckpoint (.actionFile error)
  validateLinks cognitive actions pendingApproval
  let bundle : MobileContinuityBundle := {
    identity := cognitive.identity
    capabilities := registry.list
    state, wakeReason, checkpointSequence, cognitiveCheckpoint, actionCheckpoint, pendingApproval
    retry }
  validateBundle bundle
  return bundle

/-- `restore_mobile_continuity_bundle`: the mind and the fabric of a bundle. -/
def restoreMobileContinuityBundle (W : Type) (bundle : MobileContinuityBundle) :
    Except MobileContinuityError (RestoredMobileSession W) := do
  validateBundle bundle
  let registry ← registryFromSnapshot bundle.capabilities
  let cognitiveState ← (decodeCognitiveCheckpoint bundle.cognitiveCheckpoint).mapError fun error =>
    MobileContinuityError.cognitiveCheckpoint (.cognitiveFile error)
  refuse (cognitiveState.identity ≠ bundle.identity) .invalidIdentity
  let cognitive ← (CognitiveRuntime.fromState cognitiveState).mapError fun error =>
    MobileContinuityError.cognitiveCheckpoint (.cognitive error)
  let actionState ← (decodeActionFabricCheckpoint registry bundle.actionCheckpoint).mapError
    fun error => MobileContinuityError.actionCheckpoint (.actionFile error)
  validateLinks cognitive actionState bundle.pendingApproval
  let actions ← (ActionFabric.fromState W registry actionState).mapError fun error =>
    MobileContinuityError.actionCheckpoint (.fabric error)
  return {
    state := bundle.state
    wakeReason := bundle.wakeReason
    checkpointSequence := bundle.checkpointSequence
    pendingApproval := bundle.pendingApproval
    retry := bundle.retry
    cognitive, actions }

/-! ## The file

A frame whose payload holds the two files as byte strings. -/

namespace MobileContinuity

/-- Writing a part of a bundle. -/
abbrev Encoder := Put MobileContinuityError Unit

/-- Reading a part of a bundle. -/
abbrev Decoder := Get MobileContinuityError

/-- The byte of the shell's state. -/
def stateByte : MobileContinuityState → UInt8
  | .interactive => 1
  | .activeExecution => 2
  | .checkpointed => 3
  | .suspendedByOs => 4
  | .waitingCondition => 5
  | .waitingApproval => 6
  | .reconstructing => 7
  | .verifyingResume => 8
  | .completed => 9
  | .failedRecoverable => 10

/-- The shell's state by its byte. -/
def stateOf : UInt8 → Except MobileContinuityError MobileContinuityState
  | 1 => .ok .interactive
  | 2 => .ok .activeExecution
  | 3 => .ok .checkpointed
  | 4 => .ok .suspendedByOs
  | 5 => .ok .waitingCondition
  | 6 => .ok .waitingApproval
  | 7 => .ok .reconstructing
  | 8 => .ok .verifyingResume
  | 9 => .ok .completed
  | 10 => .ok .failedRecoverable
  | other => .error (.invalidContinuityState other)

/-- The byte of a wake reason. -/
def wakeReasonByte : WakeReason → UInt8
  | .userInteraction => 1
  | .foregroundExecution => 2
  | .scheduledWork => 3
  | .retryBackoff => 4
  | .reboot => 5
  | .approvalResolved => 6
  | .networkAvailable => 7
  | .charging => 8
  | .manualRecovery => 9

/-- The wake reason of a byte. -/
def wakeReasonOf : UInt8 → Except MobileContinuityError WakeReason
  | 1 => .ok .userInteraction
  | 2 => .ok .foregroundExecution
  | 3 => .ok .scheduledWork
  | 4 => .ok .retryBackoff
  | 5 => .ok .reboot
  | 6 => .ok .approvalResolved
  | 7 => .ok .networkAvailable
  | 8 => .ok .charging
  | 9 => .ok .manualRecovery
  | other => .error (.invalidWakeReason other)

/-- The byte of a domain. -/
def domainByte : CapabilityDomain → UInt8
  | .web => 1
  | .browser => 2
  | .file => 3
  | .device => 4
  | .app => 5
  | .custom => 6
  | .pc => 7

/-- The domain of a byte; the registry's error is wrapped. -/
def domainOf : UInt8 → Except MobileContinuityError CapabilityDomain
  | 1 => .ok .web
  | 2 => .ok .browser
  | 3 => .ok .file
  | 4 => .ok .device
  | 5 => .ok .app
  | 6 => .ok .custom
  | 7 => .ok .pc
  | other => .error (refusedCapability (.invalidDomain other))

/-- The byte of a side effect class. -/
def encodeSideEffect : SideEffectClass → UInt8
  | .readOnly => 1
  | .reversible => 2
  | .externalWrite => 3
  | .irreversible => 4

/-- The side effect class of a byte. -/
def decodeSideEffect : UInt8 → Except MobileContinuityError SideEffectClass
  | 1 => .ok .readOnly
  | 2 => .ok .reversible
  | 3 => .ok .externalWrite
  | 4 => .ok .irreversible
  | _ => .error .nonCanonicalEncoding

/-- A byte that names a value. -/
def coded {α : Type} (decode : UInt8 → Except MobileContinuityError α) : Decoder α := do
  let raw ← u8
  decode raw

/-! ### The snapshot of the registry -/

/-- A descriptor behind its id. -/
def pushDescriptor (descriptor : CapabilityDescriptor) : Encoder := do
  pushU32 descriptor.version
  pushU8 (domainByte descriptor.domain)
  pushU8 (encodeSideEffect descriptor.sideEffect)
  pushBool descriptor.verificationRequired
  pushBool descriptor.rollbackSupported
  pushBool descriptor.resumable
  pushList (fun scope : AuthorityScope => pushString scope.value) descriptor.requiredScopes

/-- The snapshot, descriptor by descriptor. -/
def pushCapabilities (descriptors : List CapabilityDescriptor) : Encoder :=
  pushList (fun descriptor => do
    pushString descriptor.id.val
    pushDescriptor descriptor) descriptors

/-- A scope, which is trimmed and must not be blank. -/
def scope : Decoder AuthorityScope := do
  let value ← string
  (AuthorityScope.new value).mapError refusedCapability

/-- The descriptor with these fields, in normal form. -/
def normalized (d : CapabilityDescriptor) : Except CapabilityError CapabilityDescriptor := do
  let new ← CapabilityDescriptor.new d.id d.version d.domain d.sideEffect
  CapabilityDescriptor.normalize { new with
    verificationRequired := d.verificationRequired
    rollbackSupported := d.rollbackSupported
    resumable := d.resumable
    requiredScopes := d.requiredScopes }

/-- The fields behind an id, put into normal form. -/
def descriptor (id : String) : Decoder CapabilityDescriptor := do
  let version ← u32
  let domain ← coded domainOf
  let sideEffect ← coded decodeSideEffect
  let verificationRequired ← boolean .invalidBoolean
  let rollbackSupported ← boolean .invalidBoolean
  let resumable ← boolean .invalidBoolean
  let requiredScopes ← getList scope
  (normalized {
    id := ⟨id⟩
    version, domain, sideEffect, verificationRequired, rollbackSupported, resumable
    requiredScopes }).mapError refusedCapability

/-- Ids ascend as they are written, before they are trimmed. -/
def capabilitiesFrom : ℕ → Option String → Decoder (List CapabilityDescriptor)
  | 0, _ => return []
  | n + 1, previous => do
    let id ← string
    refuse (isBlank id ∨ previous.any (id ≤ ·)) .nonCanonicalEncoding
    let d ← descriptor id
    let descriptors ← capabilitiesFrom n (some id)
    return d :: descriptors

/-- Descriptors that come with increasing ids. -/
def capabilities : Decoder (List CapabilityDescriptor) := do
  let count ← u32
  capabilitiesFrom count.toNat none

/-! ### The bundle -/

/-- The fields of an approval. -/
def pushApproval (approval : PendingApproval) : Encoder := do
  pushU64 approval.taskId
  pushU64 approval.planId
  pushU64 approval.actionId
  pushString approval.capability
  pushString approval.rationale

/-- An approval, before it is validated. -/
def approval : Decoder PendingApproval := do
  let taskId ← u64
  let planId ← u64
  let actionId ← u64
  let capability ← string
  let rationale ← string
  return { taskId, planId, actionId, capability, rationale }

/-- The fields of a backoff. -/
def pushRetry (retry : RetryBackoff) : Encoder := do
  pushU32 retry.attempts
  pushU64 retry.notBeforeEpochMs
  pushU64 retry.baseDelayMs
  pushU64 retry.maxDelayMs

/-- A backoff, before it is validated. -/
def retry : Decoder RetryBackoff := do
  let attempts ← u32
  let notBeforeEpochMs ← u64
  let baseDelayMs ← u64
  let maxDelayMs ← u64
  return { attempts, notBeforeEpochMs, baseDelayMs, maxDelayMs }

/-- The sixteen bytes of an identity. -/
def identity : Decoder CognitiveIdentity := do
  let b ← block 16
  return ⟨b.bytes, b.length_eq⟩

/-- The payload of the file. -/
def encodePayload (bundle : MobileContinuityBundle) : Encoder := do
  tell bundle.identity.bytes
  pushU8 (stateByte bundle.state)
  pushU8 (wakeReasonByte bundle.wakeReason)
  pushU16 0
  pushU64 bundle.checkpointSequence
  pushBytes bundle.cognitiveCheckpoint
  pushBytes bundle.actionCheckpoint
  pushCapabilities bundle.capabilities
  pushOption pushApproval bundle.pendingApproval
  pushOption pushRetry bundle.retry

/-- A bundle, before it is validated. -/
def decodePayload : Decoder MobileContinuityBundle := do
  let identity ← identity
  let state ← coded stateOf
  let wakeReason ← coded wakeReasonOf
  let reserved ← u16
  refuse (reserved ≠ 0) .nonCanonicalEncoding
  let checkpointSequence ← u64
  let cognitiveCheckpoint ← bytes
  let actionCheckpoint ← bytes
  let capabilities ← capabilities
  let pendingApproval ← getOption .invalidBoolean approval
  let retry ← getOption .invalidBoolean retry
  return {
    identity, state, wakeReason, checkpointSequence, cognitiveCheckpoint, actionCheckpoint
    capabilities, pendingApproval, retry }

end MobileContinuity

open MobileContinuity

/-- `encode_mobile_continuity_bundle`: only a valid bundle is written. -/
def encodeMobileContinuityBundle (bundle : MobileContinuityBundle) :
    Except MobileContinuityError Bytes := do
  validateBundle bundle
  let payload ← written (encodePayload bundle)
  sealFrame mcs97 payload

/-- `decode_mobile_continuity_bundle`: what was read is validated. -/
def decodeMobileContinuityBundle (bytes : Bytes) :
    Except MobileContinuityError MobileContinuityBundle := do
  let (_, payload) ← openFrame mcs97 bytes
  let bundle ← readAll decodePayload .nonCanonicalEncoding payload
  validateBundle bundle
  return bundle

/-! ## What was written is recovered

A decoder that normalizes has no inverse; it recovers what was in normal form already. -/

namespace MobileContinuity

/-- A byte that names a value is read back. -/
theorem codec_coded {α : Type} {code : α → UInt8}
    {decode : UInt8 → Except MobileContinuityError α} (h : ∀ n a, decode n = .ok a ↔ code a = n) :
    Codec (fun a => pushU8 (code a)) (coded decode) := inverse_coded h

/-- The shell's state is read back. -/
theorem codec_state : Codec (fun s => pushU8 (stateByte s)) (coded stateOf) := by
  refine codec_coded fun n s => ⟨fun h => ?_, ?_⟩
  · unfold stateOf at h
    split at h <;> cases h <;> rfl
  · rintro rfl
    cases s <;> rfl

/-- A wake reason is read back. -/
theorem codec_wakeReason : Codec (fun r => pushU8 (wakeReasonByte r)) (coded wakeReasonOf) := by
  refine codec_coded fun n r => ⟨fun h => ?_, ?_⟩
  · unfold wakeReasonOf at h
    split at h <;> cases h <;> rfl
  · rintro rfl
    cases r <;> rfl

/-- A domain is read back. -/
theorem codec_domain : Codec (fun d => pushU8 (domainByte d)) (coded domainOf) := by
  refine codec_coded fun n d => ⟨fun h => ?_, ?_⟩
  · unfold domainOf at h
    split at h <;> cases h <;> rfl
  · rintro rfl
    cases d <;> rfl

/-- A side effect class is read back. -/
theorem codec_sideEffect : Codec (fun e => pushU8 (encodeSideEffect e)) (coded decodeSideEffect) := by
  refine codec_coded fun n e => ⟨fun h => ?_, ?_⟩
  · unfold decodeSideEffect at h
    split at h <;> cases h <;> rfl
  · rintro rfl
    cases e <;> rfl

/-- An approval is read back. -/
theorem codec_approval : Codec pushApproval approval := by
  refine inverse_u64.field PendingApproval.taskId (fun _ _ => trivial) fun _ _ => ?_
  refine inverse_u64.field PendingApproval.planId (fun _ _ => trivial) fun _ _ => ?_
  refine inverse_u64.field PendingApproval.actionId (fun _ _ => trivial) fun _ _ => ?_
  refine inverse_string.field PendingApproval.capability (fun _ _ => trivial) fun _ _ => ?_
  refine inverse_string.last PendingApproval.rationale ?_ ?_
  · rintro ⟨⟩ ⟨⟨⟨⟨-, rfl⟩, rfl⟩, rfl⟩, rfl⟩
    exact ⟨trivial, rfl⟩
  · intro _ _
    simp

/-- A backoff is read back. -/
theorem codec_retry : Codec pushRetry retry := by
  refine inverse_u32.field RetryBackoff.attempts (fun _ _ => trivial) fun _ _ => ?_
  refine inverse_u64.field RetryBackoff.notBeforeEpochMs (fun _ _ => trivial) fun _ _ => ?_
  refine inverse_u64.field RetryBackoff.baseDelayMs (fun _ _ => trivial) fun _ _ => ?_
  refine inverse_u64.last RetryBackoff.maxDelayMs ?_ ?_
  · rintro ⟨⟩ ⟨⟨⟨-, rfl⟩, rfl⟩, rfl⟩
    exact ⟨trivial, rfl⟩
  · intro _ _
    simp

/-- An identity is read back. -/
theorem codec_identity : Codec (fun i : CognitiveIdentity => tell i.bytes) identity := by
  refine (inverse_block 16).last (fun i : CognitiveIdentity => ⟨i.bytes, i.length_eq⟩) ?_ ?_
  · exact fun _ _ => ⟨trivial, rfl⟩
  · exact fun _ _ => ⟨trivial, rfl⟩

/-- A scope in normal form is recovered. -/
theorem recovers_scope :
    Recovers (fun _ => True) (fun scope : AuthorityScope => pushString scope.value) scope := by
  refine inverse_string.recovers.last AuthorityScope.value fun a _ => ⟨trivial, ?_⟩
  rw [AuthorityScope.new_value]
  rfl

/-- A truth value is recovered. -/
theorem recovers_boolean :
    Recovers (fun _ => True) pushBool (boolean (ε := MobileContinuityError) .invalidBoolean) :=
  (inverse_boolean _).recovers

/-- A descriptor in normal form is left as it is. -/
theorem normalized_of_normal {d : CapabilityDescriptor} (h : d.Normal) :
    normalized d = .ok d := by
  have hblank : ¬ isBlank d.id.val = true := by
    rw [isBlank, h.trimmed, String.isEmpty_iff]
    exact h.nonempty
  simp only [normalized, CapabilityDescriptor.new, bind_eq_ok, exists_unit, refuse_eq_ok,
    pure_eq_ok]
  exact ⟨_, ⟨hblank, h.versioned, rfl⟩, CapabilityDescriptor.normalize_of_normal h⟩

/-- **A normal descriptor is recovered.** -/
theorem recovers_descriptor (id : String) :
    Recovers (fun d : CapabilityDescriptor => d.Normal ∧ d.id.val = id) pushDescriptor
      (descriptor id) := by
  refine inverse_u32.recovers.field CapabilityDescriptor.version (fun _ _ => trivial) fun _ => ?_
  refine codec_domain.recovers.field CapabilityDescriptor.domain (fun _ _ => trivial) fun _ => ?_
  refine codec_sideEffect.recovers.field CapabilityDescriptor.sideEffect (fun _ _ => trivial)
    fun _ => ?_
  refine recovers_boolean.field CapabilityDescriptor.verificationRequired (fun _ _ => trivial)
    fun _ => ?_
  refine recovers_boolean.field CapabilityDescriptor.rollbackSupported (fun _ _ => trivial)
    fun _ => ?_
  refine recovers_boolean.field CapabilityDescriptor.resumable (fun _ _ => trivial) fun _ => ?_
  refine recovers_scope.list.last CapabilityDescriptor.requiredScopes ?_
  rintro ⟨⟨⟩⟩ ⟨⟨⟨⟨⟨⟨⟨hnormal, rfl⟩, rfl⟩, rfl⟩, rfl⟩, rfl⟩, rfl⟩, rfl⟩
  exact ⟨fun _ _ => trivial, mapError_eq_ok.2 (normalized_of_normal hnormal)⟩

/-- The descriptors of a registry: normal, in the order of their ids. -/
structure Snapshot (previous : Option String) (l : List CapabilityDescriptor) : Prop where
  normal : ∀ d ∈ l, d.Normal
  above : ∀ d ∈ l, AfterText previous d.id.val
  ascending : l.Pairwise fun a b => a.id.val < b.id.val

/-- Descriptors after a given id, one after the other. -/
theorem reads_capabilitiesFrom : ∀ {l : List CapabilityDescriptor} {previous : Option String}
    {b : Bytes}, Snapshot previous l →
    Emits (l.forM fun d => do pushString d.id.val; pushDescriptor d : Encoder) b →
    ∀ rest, Reads (capabilitiesFrom l.length previous) (b ++ rest) l rest
  | [], _, b, _, hb, rest => by
      rw [emits_pure.1 hb]
      exact reads_pure.2 ⟨rfl, rfl⟩
  | d :: l, previous, b, h, hb, rest => by
      obtain ⟨b₁, h₁, b₂, h₂, rfl⟩ := emits_bind.1 hb
      obtain ⟨b₃, h₃, b₄, h₄, rfl⟩ := emits_bind.1 h₁
      obtain ⟨habove, hascending⟩ := List.pairwise_cons.1 h.ascending
      have hnormal : d.Normal := h.normal d (by simp)
      have hblank : ¬ isBlank d.id.val = true := by
        rw [isBlank, hnormal.trimmed, String.isEmpty_iff]
        exact hnormal.nonempty
      have htail : Snapshot (some d.id.val) l := by
        refine ⟨fun x hx => h.normal x (by simp [hx]), fun x hx p hp => ?_, hascending⟩
        obtain rfl := Option.some.inj hp
        exact habove x hx
      rw [List.append_assoc, List.append_assoc]
      refine reads_bind.2 ⟨_, _, inverse_string.get_put trivial h₃ _, reads_refuse_bind.2 ⟨?_, ?_⟩⟩
      · exact not_or.2 ⟨hblank, not_any_le_iff.2 (h.above d (by simp))⟩
      · refine reads_bind.2 ⟨d, _, (recovers_descriptor _).get_put ⟨hnormal, rfl⟩ h₄ _, ?_⟩
        exact reads_bind.2 ⟨l, rest, reads_capabilitiesFrom htail h₂ rest, reads_pure.2 ⟨rfl, rfl⟩⟩

/-- **A snapshot is recovered.** -/
theorem recovers_capabilities : Recovers (Snapshot none) pushCapabilities capabilities := by
  refine ⟨fun {l b} hl hb rest => ?_⟩
  obtain ⟨count, hcount, hb⟩ := emits_lift_bind.1 hb
  obtain ⟨b₁, h₁, b₂, h₂, rfl⟩ := emits_bind.1 hb
  rw [List.append_assoc]
  refine reads_bind.2 ⟨count, _, inverse_u32.get_put trivial h₁ _, ?_⟩
  rw [lenU32_eq_ok.1 hcount]
  exact reads_capabilitiesFrom hl h₂ rest

/-- A bundle with a snapshot is recovered. -/
theorem recovers_payload : Recovers (fun bundle => Snapshot none bundle.capabilities)
    encodePayload decodePayload := by
  refine codec_identity.recovers.field MobileContinuityBundle.identity (fun _ _ => trivial)
    fun _ => ?_
  refine codec_state.recovers.field MobileContinuityBundle.state (fun _ _ => trivial) fun _ => ?_
  refine codec_wakeReason.recovers.field MobileContinuityBundle.wakeReason (fun _ _ => trivial)
    fun _ => ?_
  refine inverse_u16.recovers.field (fun _ => 0) (fun _ _ => trivial) fun _ => ?_
  refine Recovers.refused ?_ (fun _ h => not_not.2 h.2.symm)
  refine inverse_u64.recovers.field MobileContinuityBundle.checkpointSequence (fun _ _ => trivial)
    fun _ => ?_
  refine inverse_bytes.recovers.field MobileContinuityBundle.cognitiveCheckpoint
    (fun _ _ => trivial) fun _ => ?_
  refine inverse_bytes.recovers.field MobileContinuityBundle.actionCheckpoint (fun _ _ => trivial)
    fun _ => ?_
  refine recovers_capabilities.field MobileContinuityBundle.capabilities
    (fun _ h => h.1.1.1.1.1.1.1) fun _ => ?_
  refine (codec_option codec_approval).recovers.field MobileContinuityBundle.pendingApproval
    (fun _ _ => trivial) fun _ => ?_
  refine (codec_option codec_retry).recovers.whole MobileContinuityBundle.retry ?_
  rintro ⟨⟩ ⟨⟨⟨⟨⟨⟨⟨⟨⟨-, rfl⟩, rfl⟩, rfl⟩, -⟩, rfl⟩, rfl⟩, rfl⟩, rfl⟩, rfl⟩
  exact ⟨trivial, rfl⟩

end MobileContinuity

/-! ## The snapshot of a registry

A registry is what its descriptors are. -/

/-- Two registries with the same descriptors. -/
theorem CapabilityRegistry.eq_of_descriptors {r r' : CapabilityRegistry}
    (h : r.descriptors = r'.descriptors) : r = r' := by
  obtain ⟨descriptors, _⟩ := r
  cases h
  rfl

/-- A descriptor of the list stands under its own id. -/
theorem mem_list {registry : CapabilityRegistry} {d : CapabilityDescriptor}
    (h : d ∈ registry.list) : registry.descriptors[d.id.val]? = some d ∧ d.Normal := by
  obtain ⟨⟨k, d⟩, hmem, rfl⟩ := List.mem_map.1 h
  have hget := Std.ExtTreeMap.mem_toList_iff_getElem?_eq_some.1 hmem
  obtain ⟨rfl, hnormal⟩ := registry.keyed k d hget
  exact ⟨hget, hnormal⟩

/-- **The list of a registry is a snapshot**: in order and in normal form. -/
theorem snapshot_list (registry : CapabilityRegistry) : Snapshot none registry.list := by
  refine ⟨fun d hd => (mem_list hd).2, fun _ _ p hp => (nomatch hp), ?_⟩
  refine List.pairwise_map.2 (Std.ExtTreeMap.ordered_keys_toList.imp_of_mem ?_)
  rintro ⟨k, d⟩ ⟨k', d'⟩ hmem hmem' hlt
  have hkey := (registry.keyed k d (Std.ExtTreeMap.mem_toList_iff_getElem?_eq_some.1 hmem)).1
  have hkey' := (registry.keyed k' d' (Std.ExtTreeMap.mem_toList_iff_getElem?_eq_some.1 hmem')).1
  rw [hkey, hkey']
  exact compare_lt_iff_lt.1 hlt

/-- Registering normal descriptors with ascending free ids inserts them. -/
theorem foldlM_register : ∀ {l : List CapabilityDescriptor} {r : CapabilityRegistry},
    (∀ d ∈ l, d.Normal ∧ d.id.val ∉ r.descriptors) →
    (l.Pairwise fun a b => a.id.val < b.id.val) → ∃ r',
      l.foldlM (fun registry descriptor =>
        (registry.register descriptor).mapError refusedCapability) r = .ok r' ∧
      r'.descriptors = l.foldl (fun m d => m.insert d.id.val d) r.descriptors
  | [], r, _, _ => ⟨r, rfl, rfl⟩
  | d :: l, r, hl, hlt => by
      obtain ⟨habove, hascending⟩ := List.pairwise_cons.1 hlt
      obtain ⟨hnormal, hfree⟩ := hl d (by simp)
      obtain ⟨r₁, hregister, hr₁⟩ := CapabilityRegistry.register_of_normal hnormal hfree
      have hl₁ : ∀ x ∈ l, x.Normal ∧ x.id.val ∉ r₁.descriptors := by
        intro x hx
        refine ⟨(hl x (by simp [hx])).1, fun hmem => ?_⟩
        rw [hr₁, Std.ExtTreeMap.mem_insert] at hmem
        rcases hmem with heq | hmem
        · exact (habove x hx).ne (Std.LawfulEqCmp.eq_of_compare heq)
        · exact (hl x (by simp [hx])).2 hmem
      obtain ⟨r', hfold, hr'⟩ := foldlM_register hl₁ hascending
      refine ⟨r', ?_, ?_⟩
      · rw [List.foldlM_cons, hregister]
        exact hfold
      · rw [hr', hr₁]
        rfl

/-- **A registry is restored from its snapshot.** -/
theorem registryFromSnapshot_list (registry : CapabilityRegistry) :
    registryFromSnapshot registry.list = .ok registry := by
  have hsnapshot := snapshot_list registry
  obtain ⟨r', hfold, hr'⟩ := foldlM_register (r := .new) (l := registry.list)
    (fun d hd => ⟨hsnapshot.normal d hd, Std.ExtTreeMap.not_mem_empty⟩) hsnapshot.ascending
  have hinsert : registry.list.foldl (fun m d => m.insert d.id.val d) ∅ = registry.descriptors := by
    have hkey : ∀ e ∈ registry.descriptors.toList, e.2.id.val = e.1 :=
      forall_mem_toList.2 fun k d hd => (registry.keyed k d hd).1
    rw [← ofEntries_toList registry.descriptors, ofEntries, CapabilityRegistry.list, List.foldl_map]
    exact List.foldl_ext _ _ _ fun m e he => by rw [hkey e he]
  rw [registryFromSnapshot, hfold]
  exact congrArg Except.ok (CapabilityRegistry.eq_of_descriptors (hr'.trans hinsert))

/-! ## Process death

Build, encode, decode and restore, one after the other. -/

/-- What was written is read back. -/
theorem decodeMobileContinuityBundle_of_encode {bundle : MobileContinuityBundle} {b : Bytes}
    (hsnapshot : Snapshot none bundle.capabilities)
    (hencode : encodeMobileContinuityBundle bundle = .ok b) :
    decodeMobileContinuityBundle b = .ok bundle := by
  simp only [encodeMobileContinuityBundle, bind_eq_ok, exists_unit] at hencode
  obtain ⟨hvalid, payload, hpayload, hseal⟩ := hencode
  have hread := recovers_payload.get_put hsnapshot (written_eq_ok.1 hpayload) []
  rw [List.append_nil] at hread
  simp only [decodeMobileContinuityBundle, bind_eq_ok, exists_unit, pure_eq_ok, Prod.exists]
  exact ⟨mcs97.minor, payload, openFrame_iff_sealFrame.2 hseal, bundle, readAll_eq_ok.2 hread,
    hvalid, rfl⟩

/-- **Process death is invisible.**  A session that could be bundled and written is read back as the
same bundle, and restores the same mind, the same actions over the same registry, and what the shell
was waiting for. -/
theorem processDeath_invisible (W : Type) (cognitive : CognitiveState)
    (registry : CapabilityRegistry) (actions : ActionFabricState) (state : MobileContinuityState)
    (wakeReason : WakeReason) (checkpointSequence : UInt64)
    (pendingApproval : Option PendingApproval) (retry : Option RetryBackoff)
    (bundle : MobileContinuityBundle) (b : Bytes) (hpos : IdsPositive cognitive)
    (hbuild : buildMobileContinuityBundle cognitive registry actions state wakeReason
      checkpointSequence pendingApproval retry = .ok bundle)
    (hencode : encodeMobileContinuityBundle bundle = .ok b) :
    decodeMobileContinuityBundle b = .ok bundle ∧
      ∃ session : RestoredMobileSession W, restoreMobileContinuityBundle W bundle = .ok session ∧
        session.cognitive = cognitive ∧ session.actions.state = actions ∧
        session.actions.registry = registry ∧ session.state = state ∧
        session.wakeReason = wakeReason ∧ session.checkpointSequence = checkpointSequence ∧
        session.pendingApproval = pendingApproval ∧ session.retry = retry := by
  simp only [buildMobileContinuityBundle, bind_eq_ok, exists_unit, pure_eq_ok, mapError_eq_ok]
    at hbuild
  obtain ⟨-, -, cognitiveFile, hcognitive, actionFile, hactions, hlinks, hvalid, rfl⟩ := hbuild
  refine ⟨decodeMobileContinuityBundle_of_encode (snapshot_list registry) hencode, ?_⟩
  have hmind := decodeCognitiveCheckpoint_of_encode hcognitive hpos
  have hfabric := decodeActionFabricCheckpoint_of_encode hactions
  have hmindValid := (encodeCognitiveCheckpoint_eq_ok.1 hcognitive).1
  have hfabricValid := (encodeActionFabricCheckpoint_eq_ok.1 hactions).1
  refine ⟨{ cognitive, state, wakeReason, checkpointSequence, pendingApproval, retry,
            actions := { registry, adapters := ∅, state := actions } }, ?_, by simp⟩
  simp only [restoreMobileContinuityBundle, bind_eq_ok, exists_unit, pure_eq_ok, mapError_eq_ok,
    refuse_eq_ok, fromState_eq_ok, ActionFabric.fromState]
  exact ⟨hvalid, registry, registryFromSnapshot_list registry, cognitive, hmind, not_not.2 rfl,
    cognitive, ⟨hmindValid, rfl⟩, actions, hfabric, hlinks, _, ⟨hfabricValid, rfl⟩, rfl⟩

namespace MobileSample

open CognitionSample

/-- An approval of the second write. -/
def approval : PendingApproval where
  taskId := 1
  planId := 1
  actionId := 2
  capability := "file.write"
  rationale := "second write"

def retry : RetryBackoff where
  attempts := 2
  notBeforeEpochMs := 99
  baseDelayMs := 1000
  maxDelayMs := 60000

/-- A session between two writes that waits for an approval. -/
def built : Except MobileContinuityError MobileContinuityBundle :=
  buildMobileContinuityBundle completedOnce.state Sample.registry Sample.halfway .waitingApproval
    .reboot 1 (some approval) (some retry)

end MobileSample

open CognitionSample MobileSample in
theorem processDeath_invisible_halfway : ∃ bundle b,
    built = .ok bundle ∧ encodeMobileContinuityBundle bundle = .ok b ∧
      decodeMobileContinuityBundle b = .ok bundle ∧
      ∃ session, restoreMobileContinuityBundle ℕ bundle = .ok session ∧
        session.cognitive = completedOnce.state ∧ session.actions.state = Sample.halfway := by
  have hfile : (built >>= encodeMobileContinuityBundle).toOption.isSome := by
    decide +kernel
  have hpos : IdsPositive completedOnce.state :=
    ⟨by decide +kernel, by decide +kernel, by decide +kernel⟩
  cases hb : built >>= encodeMobileContinuityBundle with
  | error e =>
    rw [hb] at hfile
    exact nomatch hfile
  | ok b =>
    obtain ⟨bundle, hbuilt, hencode⟩ := bind_eq_ok.1 hb
    obtain ⟨hdecode, session, hrestore, hmind, hactions, -⟩ :=
      processDeath_invisible ℕ _ _ _ _ _ _ _ _ bundle b hpos hbuilt hencode
    exact ⟨bundle, b, hbuilt, hencode, hdecode, session, hrestore, hmind, hactions⟩

end NTD97
