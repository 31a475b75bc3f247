import Mathlib
import NTD97.ActionFabric.History
import NTD97.Lib.Frame

/-!
# ActionCheckpoint — the TAF97 file of an action fabric

    encode = validate ▸ payload ▸ sealFrame        decode = openFrame ▸ payload ▸ validate

A fabric's state is written as its two counters and its plans in id order; both directions refuse a
state the validator refuses.  Each codec of a record or a sum has one law, read off its fields, and
the file's two round trips are the laws of its payload and of its frame.
-/

namespace NTD97

open Guard Wire SortedMap Machine

/-- The letters `TAF97` and a zero byte. -/
def taf97Magic : Bytes := [84, 65, 70, 57, 55, 0]

/-- The format `TAF97`, version `0.4`. -/
def taf97 : Format where
  magic := taf97Magic
  major := 0
  minor := 4
  magic_length := rfl

/-- Why a state is not saved, or a file not restored. -/
inductive ActionCheckpointError where
  | truncated
  | invalidMagic
  | invalidHeader
  | unsupportedVersion (major minor : UInt16)
  | invalidUtf8
  | invalidBoolean (raw : UInt8)
  | invalidActionTag (raw : UInt8)
  | invalidValueTag (raw : UInt8)
  | invalidSideEffect (raw : UInt8)
  | nonCanonicalEncoding
  | overflow
  | fabric (error : ActionFabricError)
  deriving DecidableEq

instance : FrameError ActionCheckpointError where
  truncated := .truncated
  overflow := .overflow
  invalidUtf8 := .invalidUtf8
  invalidMagic := .invalidMagic
  invalidHeader := .invalidHeader
  unsupportedVersion := .unsupportedVersion
  nonCanonicalEncoding := .nonCanonicalEncoding

namespace ActionCheckpoint

/-- Writing a part of the state. -/
abbrev Encoder := Put ActionCheckpointError Unit

/-- Reading a part of the state. -/
abbrev Decoder := Get ActionCheckpointError

/-! ## Enumerations, as the byte that names each value

The bytes are those of the runtime's own tables; an unknown one is an error of the fabric or of the
file. -/

/-- The byte of an action's status. -/
def statusByte : ActionStatus → UInt8
  | .prepared => 1
  | .running => 2
  | .suspended => 3
  | .retryable => 4
  | .committed => 5
  | .rolledBack => 6
  | .failed => 7

/-- The status of an action by its byte. -/
def actionStatus : UInt8 → Except ActionFabricError ActionStatus
  | 1 => .ok .prepared
  | 2 => .ok .running
  | 3 => .ok .suspended
  | 4 => .ok .retryable
  | 5 => .ok .committed
  | 6 => .ok .rolledBack
  | 7 => .ok .failed
  | other => .error (.invalidActionStatus other)

/-- The byte of a plan's status. -/
def planStatusByte : ActionPlanStatus → UInt8
  | .ready => 1
  | .suspended => 2
  | .completed => 3
  | .failed => 4
  | .rolledBack => 5

/-- The status of a plan by its byte. -/
def actionPlanStatus : UInt8 → Except ActionFabricError ActionPlanStatus
  | 1 => .ok .ready
  | 2 => .ok .suspended
  | 3 => .ok .completed
  | 4 => .ok .failed
  | 5 => .ok .rolledBack
  | other => .error (.invalidPlanStatus other)

/-- The byte of a side effect class. -/
def encodeSideEffect : SideEffectClass → UInt8
  | .readOnly => 1
  | .reversible => 2
  | .externalWrite => 3
  | .irreversible => 4

/-- The side effect class of a byte. -/
def decodeSideEffect : UInt8 → Except ActionCheckpointError SideEffectClass
  | 1 => .ok .readOnly
  | 2 => .ok .reversible
  | 3 => .ok .externalWrite
  | 4 => .ok .irreversible
  | other => .error (.invalidSideEffect other)

/-! ## Options

A presence byte, then the value. -/

/-- A text that may be absent. -/
def optionalString : Decoder (Option String) := getOption .invalidBoolean string

/-- Bytes that may be absent. -/
def optionalBytes : Decoder (Option Bytes) := getOption .invalidBoolean bytes

/-! ## Typed actions

A tag, then the fields of the action in the order of its declaration. -/

/-- The tags in the order in which the actions were added to the format. -/
def typedActionTag : TypedAction → UInt8
  | .webSearch .. => 1
  | .webFetch .. => 2
  | .browserObserve .. => 3
  | .browserInteract .. => 4
  | .fileRead .. => 5
  | .fileWrite .. => 6
  | .deviceObserve .. => 7
  | .deviceInteract .. => 8
  | .appAction .. => 9
  | .custom .. => 10
  | .pcObserve .. => 11
  | .pcExecute .. => 12
  | .pcArtifactRead .. => 13
  | .pcArtifactWrite .. => 14
  | .artifactDownload .. => 15
  | .artifactUpload .. => 16

/-- What follows the tag of a typed action. -/
def typedActionBody : TypedAction → Encoder
  | .webSearch query maxResults => do
    pushString query
    pushU16 maxResults
  | .webFetch url => pushString url
  | .browserObserve target => pushString target
  | .browserInteract target operation value => do
    pushString target
    pushString operation
    pushOption pushString value
  | .fileRead path => pushString path
  | .fileWrite path bytes => do
    pushString path
    pushBytes bytes
  | .deviceObserve surface => pushString surface
  | .deviceInteract surface operation argument => do
    pushString surface
    pushString operation
    pushOption pushString argument
  | .appAction app action payload => do
    pushString app
    pushString action
    pushBytes payload
  | .custom typeName payload => do
    pushString typeName
    pushBytes payload
  | .pcObserve peer surface => do
    pushString peer
    pushString surface
  | .pcExecute peer program args workingDir => do
    pushString peer
    pushString program
    pushList pushString args
    pushOption pushString workingDir
  | .pcArtifactRead peer path => do
    pushString peer
    pushString path
  | .pcArtifactWrite peer path bytes => do
    pushString peer
    pushString path
    pushBytes bytes
  | .artifactDownload url path => do
    pushString url
    pushString path
  | .artifactUpload url path => do
    pushString url
    pushString path

/-- Tag and fields. -/
def encodeTypedAction (action : TypedAction) : Encoder := do
  pushU8 (typedActionTag action)
  typedActionBody action

/-- The action with this tag. -/
def typedActionOf : UInt8 → Decoder TypedAction
  | 1 => return .webSearch (← string) (← u16)
  | 2 => return .webFetch (← string)
  | 3 => return .browserObserve (← string)
  | 4 => return .browserInteract (← string) (← string) (← optionalString)
  | 5 => return .fileRead (← string)
  | 6 => return .fileWrite (← string) (← bytes)
  | 7 => return .deviceObserve (← string)
  | 8 => return .deviceInteract (← string) (← string) (← optionalString)
  | 9 => return .appAction (← string) (← string) (← bytes)
  | 10 => return .custom (← string) (← bytes)
  | 11 => return .pcObserve (← string) (← string)
  | 12 => return .pcExecute (← string) (← string) (← getList string) (← optionalString)
  | 13 => return .pcArtifactRead (← string) (← string)
  | 14 => return .pcArtifactWrite (← string) (← string) (← bytes)
  | 15 => return .artifactDownload (← string) (← string)
  | 16 => return .artifactUpload (← string) (← string)
  | other => throw (.invalidActionTag other)

/-- An action of any tag. -/
def decodeTypedAction : Decoder TypedAction := do
  let tag ← u8
  typedActionOf tag

/-! ## Outputs

Summary, value and evidence; the value is a sum again. -/

/-- The tag of an output's value. -/
def actionValueTag : ActionValue → UInt8
  | .none => 0
  | .text .. => 1
  | .bytes .. => 2
  | .textList .. => 3
  | .fields .. => 4

/-- The entries of a field map in key order, behind their count. -/
def pushFields (fields : BTreeMap String String) : Encoder := do
  pushU32 (← lenU32 (ε := ActionCheckpointError) fields.size)
  fields.toList.forM fun (key, value) => do
    pushString key
    pushString value

/-- What follows the tag of a value. -/
def actionValueBody : ActionValue → Encoder
  | .none => pure ()
  | .text value => pushString value
  | .bytes value => pushBytes value
  | .textList values => pushList pushString values
  | .fields entries => pushFields entries

/-- Tag and value. -/
def encodeActionValue (value : ActionValue) : Encoder := do
  pushU8 (actionValueTag value)
  actionValueBody value

/-- One field: its key must come after the previous one. -/
def fieldEntry (previous : Option String) : Decoder ((String × String) × Option String) := do
  let key ← string
  refuse (previous.any (key ≤ ·)) .nonCanonicalEncoding
  let value ← string
  return ((key, value), some key)

/-- The value with this tag. -/
def actionValueOf : UInt8 → Decoder ActionValue
  | 0 => return .none
  | 1 => return .text (← string)
  | 2 => return .bytes (← bytes)
  | 3 => return .textList (← getList string)
  | 4 => do
    let count ← u32
    let fields ← getEntries fieldEntry .nonCanonicalEncoding count.toNat none ∅
    return .fields fields
  | other => throw (.invalidValueTag other)

/-- A value of any tag. -/
def decodeActionValue : Decoder ActionValue := do
  let tag ← u8
  actionValueOf tag

/-- Summary, value and evidence. -/
def encodeOutput (output : ActionOutput) : Encoder := do
  pushString output.summary
  encodeActionValue output.value
  pushList pushString output.evidence

/-- No validator looks at an output. -/
def decodeOutput : Decoder ActionOutput := do
  let summary ← string
  let value ← decodeActionValue
  let evidence ← getList string
  return { summary, value, evidence }

/-! ## Plans

All thirteen fields of an action are written, its tokens and its last error among them. -/

/-- The fields of an action in the order of the file. -/
def encodePlannedAction (action : PlannedAction) : Encoder := do
  pushU64 action.id.val
  pushU32 action.nodeId
  pushString action.capability.val
  pushU32 action.capabilityVersion
  pushU8 (encodeSideEffect action.sideEffect)
  pushBool action.verificationRequired
  encodeTypedAction action.action
  pushU8 (statusByte action.status)
  pushU32 action.attempts
  pushOption encodeOutput action.output
  pushOption pushBytes action.resumeToken
  pushOption pushBytes action.rollbackToken
  pushOption pushString action.lastError

/-- A byte that names a side effect class. -/
def sideEffect : Decoder SideEffectClass := do
  let raw ← u8
  decodeSideEffect raw

/-- A byte that names an action's status. -/
def status : Decoder ActionStatus := do
  let raw ← u8
  (actionStatus raw).mapError ActionCheckpointError.fabric

/-- A byte that names a plan's status. -/
def planStatus : Decoder ActionPlanStatus := do
  let raw ← u8
  (actionPlanStatus raw).mapError ActionCheckpointError.fabric

/-- An action, before anything is said about its place in a plan. -/
def decodePlannedAction : Decoder PlannedAction := do
  let id ← u64
  let nodeId ← u32
  let capability ← string
  let capabilityVersion ← u32
  let sideEffect ← sideEffect
  let verificationRequired ← boolean .invalidBoolean
  let action ← decodeTypedAction
  let status ← status
  let attempts ← u32
  let output ← getOption .invalidBoolean decodeOutput
  let resumeToken ← optionalBytes
  let rollbackToken ← optionalBytes
  let lastError ← optionalString
  return {
    id := ⟨id⟩, nodeId, capability := ⟨capability⟩, capabilityVersion, sideEffect,
    verificationRequired, action, status, attempts, output, resumeToken, rollbackToken, lastError }

/-- The cursor takes eight bytes. -/
def encodePlan (plan : ActionPlanState) : Encoder := do
  pushU64 plan.id.val
  pushU64 plan.taskId
  pushUsize plan.cursor
  pushU8 (planStatusByte plan.status)
  pushList encodePlannedAction plan.actions

/-- A plan, before it is validated. -/
def decodePlan : Decoder ActionPlanState := do
  let id ← u64
  let taskId ← u64
  let cursor ← usize
  let status ← planStatus
  let actions ← getList decodePlannedAction
  return { id := ⟨id⟩, taskId, cursor, status, actions }

/-! ## The whole state

The two counters, then the plans; the validator stands in front of the encoder and behind the
decoder. -/

/-- The plans in id order, behind their count. -/
def encodePlans (plans : BTreeMap UInt64 ActionPlanState) : Encoder := do
  pushU32 (← lenU32 (ε := ActionCheckpointError) plans.size)
  pushValues encodePlan plans

/-- The payload of the file. -/
def encodeState (state : ActionFabricState) : Encoder := do
  pushU64 state.nextPlanId
  pushU64 state.nextActionId
  encodePlans state.plans

/-- Plans must come with increasing ids that are not zero. -/
def decodePlans : Decoder (BTreeMap UInt64 ActionPlanState) := do
  let count ← u32
  getById decodePlan (fun plan => plan.id.val) .nonCanonicalEncoding count.toNat

/-- A state, before it is validated. -/
def decodeState : Decoder ActionFabricState := do
  let nextPlanId ← u64
  let nextActionId ← u64
  let plans ← decodePlans
  return { nextPlanId, nextActionId, plans }

end ActionCheckpoint

open ActionCheckpoint

/-- `encode_action_fabric_checkpoint`: only a valid state is written. -/
def encodeActionFabricCheckpoint (registry : CapabilityRegistry) (state : ActionFabricState) :
    Except ActionCheckpointError Bytes := do
  (validateFabricState registry state).mapError .fabric
  let payload ← written (encodeState state)
  sealFrame taf97 payload

/-- `decode_action_fabric_checkpoint`: what was read is validated against the registry. -/
def decodeActionFabricCheckpoint (registry : CapabilityRegistry) (bytes : Bytes) :
    Except ActionCheckpointError ActionFabricState := do
  let (_, payload) ← openFrame taf97 bytes
  let state ← readAll decodeState .nonCanonicalEncoding payload
  (validateFabricState registry state).mapError .fabric
  return state

/-! ## The laws of the codecs

Each part is read back; the enumerations by their tables, the records field by field. -/

namespace ActionCheckpoint

/-- The byte of an action's status and its inverse. -/
theorem actionStatus_eq_ok (n : UInt8) (s : ActionStatus) :
    actionStatus n = .ok s ↔ statusByte s = n := by
  constructor
  · intro h
    unfold actionStatus at h
    split at h <;> cases h <;> rfl
  · rintro rfl
    cases s <;> rfl

/-- The byte of a plan's status and its inverse. -/
theorem actionPlanStatus_eq_ok (n : UInt8) (s : ActionPlanStatus) :
    actionPlanStatus n = .ok s ↔ planStatusByte s = n := by
  constructor
  · intro h
    unfold actionPlanStatus at h
    split at h <;> cases h <;> rfl
  · rintro rfl
    cases s <;> rfl

/-- The byte of a side effect class and its inverse. -/
theorem decodeSideEffect_eq_ok (n : UInt8) (s : SideEffectClass) :
    decodeSideEffect n = .ok s ↔ encodeSideEffect s = n := by
  constructor
  · intro h
    unfold decodeSideEffect at h
    split at h <;> cases h <;> rfl
  · rintro rfl
    cases s <;> rfl

/-- An action's status is read back. -/
theorem codec_status : Codec (fun s => pushU8 (statusByte s)) status :=
  inverse_coded fun n s => by rw [mapError_eq_ok, actionStatus_eq_ok]

/-- A plan's status is read back. -/
theorem codec_planStatus : Codec (fun s => pushU8 (planStatusByte s)) planStatus :=
  inverse_coded fun n s => by rw [mapError_eq_ok, actionPlanStatus_eq_ok]

/-- A side effect class is read back. -/
theorem codec_sideEffect : Codec (fun s => pushU8 (encodeSideEffect s)) sideEffect :=
  inverse_coded decodeSideEffect_eq_ok

/-! ### Typed actions -/

/-- What follows a tag, for the actions with that tag. -/
theorem inverse_typedActionOf (t : UInt8) :
    Inverse (fun a => True ∧ typedActionTag a = t) typedActionBody (typedActionOf t) := by
  have text := inverse_string (ε := ActionCheckpointError)
  have block := inverse_bytes (ε := ActionCheckpointError)
  have optional : Codec (pushOption pushString) optionalString := codec_option text
  unfold typedActionOf
  split
  · exact kind₂ text inverse_u16 TypedAction.webSearch (fun _ _ => rfl)
      fun a => by cases a <;> simp [typedActionTag]
  · exact kind₁ text TypedAction.webFetch (fun _ => rfl)
      fun a => by cases a <;> simp [typedActionTag]
  · exact kind₁ text TypedAction.browserObserve (fun _ => rfl)
      fun a => by cases a <;> simp [typedActionTag]
  · exact kind₃ text text optional TypedAction.browserInteract (fun _ _ _ => rfl)
      fun a => by cases a <;> simp [typedActionTag]
  · exact kind₁ text TypedAction.fileRead (fun _ => rfl)
      fun a => by cases a <;> simp [typedActionTag]
  · exact kind₂ text block TypedAction.fileWrite (fun _ _ => rfl)
      fun a => by cases a <;> simp [typedActionTag]
  · exact kind₁ text TypedAction.deviceObserve (fun _ => rfl)
      fun a => by cases a <;> simp [typedActionTag]
  · exact kind₃ text text optional TypedAction.deviceInteract (fun _ _ _ => rfl)
      fun a => by cases a <;> simp [typedActionTag]
  · exact kind₃ text text block TypedAction.appAction (fun _ _ _ => rfl)
      fun a => by cases a <;> simp [typedActionTag]
  · exact kind₂ text block TypedAction.custom (fun _ _ => rfl)
      fun a => by cases a <;> simp [typedActionTag]
  · exact kind₂ text text TypedAction.pcObserve (fun _ _ => rfl)
      fun a => by cases a <;> simp [typedActionTag]
  · refine (codec_pair text (codec_pair text (codec_pair (codec_list text)
      optional))).variant (fun p => .pcExecute p.1 p.2.1 p.2.2.1 p.2.2.2)
      (fun _ => rfl) ?_ fun a => ?_
    · simp only [bind_assoc, pure_bind]
    · cases a <;> simp [typedActionTag]
  · exact kind₂ text text TypedAction.pcArtifactRead (fun _ _ => rfl)
      fun a => by cases a <;> simp [typedActionTag]
  · exact kind₃ text text block TypedAction.pcArtifactWrite (fun _ _ _ => rfl)
      fun a => by cases a <;> simp [typedActionTag]
  · exact kind₂ text text TypedAction.artifactDownload (fun _ _ => rfl)
      fun a => by cases a <;> simp [typedActionTag]
  · exact kind₂ text text TypedAction.artifactUpload (fun _ _ => rfl)
      fun a => by cases a <;> simp [typedActionTag]
  · refine no_kind fun a ha => ?_
    subst ha
    cases a <;> simp_all [typedActionTag]

/-- **A typed action is read back.** -/
theorem codec_typedAction : Codec encodeTypedAction decodeTypedAction :=
  inverse_u8.field typedActionTag (fun _ _ => trivial) fun t _ => inverse_typedActionOf t

/-! ### Outputs -/

/-- An entry of a field map is read back behind a smaller key. -/
theorem entryLaw_field : EntryLaw AfterText some (fun _ => True)
    (fun e : String × String => (do pushString e.1; pushString e.2 : Encoder)) fieldEntry :=
  entryLaw_pairEntry inverse_string inverse_string ActionCheckpointError.nonCanonicalEncoding

/-- A field map is read back, its keys in order. -/
theorem codec_fields : Codec pushFields
    (u32 >>= fun n => getEntries fieldEntry .nonCanonicalEncoding n.toNat none ∅) :=
  inverse_counted (fun m : BTreeMap String String => m.size) (P := fun _ => True) fun n =>
    (inverse_byText entryLaw_field _ n).domain fun _ => by simp

/-- What follows a tag, for the values with that tag. -/
theorem inverse_actionValueOf (t : UInt8) :
    Inverse (fun a => True ∧ actionValueTag a = t) actionValueBody (actionValueOf t) := by
  unfold actionValueOf
  split
  · refine (Inverse.done fun a => ?_).congr (fun a ha => ?_) rfl
    · cases a <;> simp [actionValueTag]
    · cases a <;> simp_all [actionValueTag, actionValueBody]
  · exact kind₁ inverse_string ActionValue.text (fun _ => rfl)
      fun a => by cases a <;> simp [actionValueTag]
  · exact kind₁ inverse_bytes ActionValue.bytes (fun _ => rfl)
      fun a => by cases a <;> simp [actionValueTag]
  · exact kind₁ (codec_list inverse_string) ActionValue.textList (fun _ => rfl)
      fun a => by cases a <;> simp [actionValueTag]
  · refine codec_fields.variant .fields (fun _ => rfl) ?_ fun a => ?_
    · simp only [bind_assoc]
    · cases a <;> simp [actionValueTag]
  · refine no_kind fun a ha => ?_
    subst ha
    cases a <;> simp_all [actionValueTag]

/-- The value of an output is read back. -/
theorem codec_actionValue : Codec encodeActionValue decodeActionValue :=
  inverse_u8.field actionValueTag (fun _ _ => trivial) fun t _ => inverse_actionValueOf t

/-- An output is read back. -/
theorem codec_output : Codec encodeOutput decodeOutput := by
  refine inverse_string.field ActionOutput.summary (fun _ _ => trivial) fun _ _ => ?_
  refine codec_actionValue.field ActionOutput.value (fun _ _ => trivial) fun _ _ => ?_
  refine (codec_list inverse_string).last ActionOutput.evidence ?_ ?_
  · rintro ⟨⟩ ⟨⟨-, rfl⟩, rfl⟩
    exact ⟨trivial, rfl⟩
  · exact fun _ _ => ⟨⟨⟨trivial, rfl⟩, rfl⟩, rfl⟩

/-! ### Plans and the state -/

/-- **A planned action is read back.** -/
theorem codec_plannedAction : Codec encodePlannedAction decodePlannedAction := by
  refine inverse_u64.field (fun a : PlannedAction => a.id.val) (fun _ _ => trivial) fun _ _ => ?_
  refine inverse_u32.field PlannedAction.nodeId (fun _ _ => trivial) fun _ _ => ?_
  refine inverse_string.field (fun a : PlannedAction => a.capability.val) (fun _ _ => trivial)
    fun _ _ => ?_
  refine inverse_u32.field PlannedAction.capabilityVersion (fun _ _ => trivial) fun _ _ => ?_
  refine codec_sideEffect.field PlannedAction.sideEffect (fun _ _ => trivial) fun _ _ => ?_
  refine (inverse_boolean _).field PlannedAction.verificationRequired (fun _ _ => trivial)
    fun _ _ => ?_
  refine codec_typedAction.field PlannedAction.action (fun _ _ => trivial) fun _ _ => ?_
  refine codec_status.field PlannedAction.status (fun _ _ => trivial) fun _ _ => ?_
  refine inverse_u32.field PlannedAction.attempts (fun _ _ => trivial) fun _ _ => ?_
  refine (codec_option codec_output).field PlannedAction.output (fun _ _ => trivial) fun _ _ => ?_
  refine (codec_option inverse_bytes).field PlannedAction.resumeToken (fun _ _ => trivial)
    fun _ _ => ?_
  refine (codec_option inverse_bytes).field PlannedAction.rollbackToken (fun _ _ => trivial)
    fun _ _ => ?_
  refine (codec_option inverse_string).last PlannedAction.lastError ?_ ?_
  · rintro ⟨⟨⟩, _, ⟨⟩⟩ ⟨⟨⟨⟨⟨⟨⟨⟨⟨⟨⟨⟨-, rfl⟩, rfl⟩, rfl⟩, rfl⟩, rfl⟩, rfl⟩, rfl⟩, rfl⟩, rfl⟩, rfl⟩,
      rfl⟩, rfl⟩
    exact ⟨trivial, rfl⟩
  · intro _ _
    simp

/-- A plan is read back. -/
theorem codec_plan : Codec encodePlan decodePlan := by
  refine inverse_u64.field (fun p : ActionPlanState => p.id.val) (fun _ _ => trivial) fun _ _ => ?_
  refine inverse_u64.field ActionPlanState.taskId (fun _ _ => trivial) fun _ _ => ?_
  refine inverse_usize.field ActionPlanState.cursor (fun _ _ => trivial) fun _ _ => ?_
  refine codec_planStatus.field ActionPlanState.status (fun _ _ => trivial) fun _ _ => ?_
  refine (codec_list codec_plannedAction).last ActionPlanState.actions ?_ ?_
  · rintro ⟨⟨⟩⟩ ⟨⟨⟨⟨-, rfl⟩, rfl⟩, rfl⟩, rfl⟩
    exact ⟨trivial, rfl⟩
  · exact fun _ _ => ⟨⟨⟨⟨⟨trivial, rfl⟩, rfl⟩, rfl⟩, rfl⟩, rfl⟩

/-- Every plan stands under its own positive id. -/
def PlansKeyed (plans : BTreeMap UInt64 ActionPlanState) : Prop :=
  KeyedById (fun plan : ActionPlanState => plan.id.val) (fun _ => True) plans

/-- Plans that stand under their ids are read back. -/
theorem inverse_plans : Inverse PlansKeyed encodePlans decodePlans :=
  inverse_counted (fun m : BTreeMap UInt64 ActionPlanState => m.size)
    (inverse_byId codec_plan (fun plan => plan.id.val) .nonCanonicalEncoding)

/-- **The payload is read back** for every state whose plans stand under their ids. -/
theorem inverse_state : Inverse (fun state => PlansKeyed state.plans) encodeState decodeState := by
  refine inverse_u64.field ActionFabricState.nextPlanId (fun _ _ => trivial) fun _ _ => ?_
  refine inverse_u64.field ActionFabricState.nextActionId (fun _ _ => trivial) fun _ _ => ?_
  refine inverse_plans.last ActionFabricState.plans ?_ ?_
  · rintro ⟨⟩ ⟨⟨hkeyed, rfl⟩, rfl⟩
    exact ⟨hkeyed, rfl⟩
  · exact fun _ hkeyed => ⟨⟨⟨hkeyed, rfl⟩, rfl⟩, rfl⟩

/-! ### Refusals

The encoders refuse only a length that does not fit its field. -/

/-- A typed action is refused only for a length. -/
theorem tame_typedAction (a : TypedAction) : Tame (encodeTypedAction a) := by
  refine .bind (tame_pushU8 _) ?_
  have text := tame_pushString (ε := ActionCheckpointError)
  have block := tame_pushBytes (ε := ActionCheckpointError)
  have option := tame_pushOption text
  cases a with
  | webSearch query n => exact .bind (text query) (tame_pushU16 n)
  | webFetch s | browserObserve s | fileRead s | deviceObserve s => exact text s
  | browserInteract s s' o | deviceInteract s s' o =>
    exact .bind (text s) (.bind (text s') (option o))
  | fileWrite s b | custom s b => exact .bind (text s) (block b)
  | appAction s s' b | pcArtifactWrite s s' b => exact .bind (text s) (.bind (text s') (block b))
  | pcObserve s s' | pcArtifactRead s s' | artifactDownload s s' | artifactUpload s s' =>
    exact .bind (text s) (text s')
  | pcExecute s s' l o =>
    exact .bind (text s) (.bind (text s') (.bind (tame_pushList text l) (option o)))

/-- An output is refused only for a length. -/
theorem tame_output (o : ActionOutput) : Tame (encodeOutput o) := by
  refine .bind (tame_pushString _) (.bind (.bind (tame_pushU8 _) ?_)
    (tame_pushList tame_pushString _))
  cases o.value with
  | none => exact tame_pure
  | text value => exact tame_pushString value
  | bytes value => exact tame_pushBytes value
  | textList values => exact tame_pushList tame_pushString values
  | fields entries =>
    exact tame_counted _ (tame_forM fun e _ => .bind (tame_pushString _) (tame_pushString _))

/-- A planned action is refused only for a length. -/
theorem tame_plannedAction (a : PlannedAction) : Tame (encodePlannedAction a) :=
  .bind (tame_pushU64 _) <| .bind (tame_pushU32 _) <| .bind (tame_pushString _) <|
  .bind (tame_pushU32 _) <| .bind (tame_pushU8 _) <| .bind (tame_pushBool _) <|
  .bind (tame_typedAction _) <| .bind (tame_pushU8 _) <| .bind (tame_pushU32 _) <|
  .bind (tame_pushOption tame_output _) <| .bind (tame_pushOption tame_pushBytes _) <|
  .bind (tame_pushOption tame_pushBytes _) (tame_pushOption tame_pushString _)

/-- A state is refused only for a length. -/
theorem tame_state (state : ActionFabricState) : Tame (encodeState state) :=
  .bind (tame_pushU64 _) <| .bind (tame_pushU64 _) <| tame_counted _ <| tame_forM fun _ _ =>
  .bind (tame_pushU64 _) <| .bind (tame_pushU64 _) <| .bind (tame_pushUsize _) <|
  .bind (tame_pushU8 _) (tame_pushList tame_plannedAction _)

end ActionCheckpoint

/-! ## The file

The frame holds the payload; the validator is the same on both sides. -/

/-- A valid state has its plans under their ids. -/
theorem plansKeyed_of_valid {registry : CapabilityRegistry} {state : ActionFabricState}
    (h : validateFabricState registry state = .ok ()) : PlansKeyed state.plans := by
  intro key plan hplan
  have hvalid := (validateFabricState_eq_ok.1 h).plan_valid key plan hplan
  exact ⟨trivial, hvalid.keyed, hvalid.id_ne⟩

/-- A file is the frame of a valid state's payload. -/
theorem encodeActionFabricCheckpoint_eq_ok {registry : CapabilityRegistry}
    {state : ActionFabricState} {b : Bytes} :
    encodeActionFabricCheckpoint registry state = .ok b ↔
      validateFabricState registry state = .ok () ∧
        ∃ payload, written (encodeState state) = .ok payload ∧
          sealFrame (ε := ActionCheckpointError) taf97 payload = .ok b := by
  simp only [encodeActionFabricCheckpoint, bind_eq_ok, exists_unit, mapError_eq_ok]

/-- A file of any known minor version opens to a valid state's payload. -/
theorem decodeActionFabricCheckpoint_eq_ok {registry : CapabilityRegistry}
    {state : ActionFabricState} {b : Bytes} :
    decodeActionFabricCheckpoint registry b = .ok state ↔
      validateFabricState registry state = .ok () ∧ ∃ minor payload,
        written (encodeState state) = .ok payload ∧
          openFrame (ε := ActionCheckpointError) taf97 b = .ok (minor, payload) := by
  simp only [decodeActionFabricCheckpoint, bind_eq_ok, exists_unit, mapError_eq_ok, pure_eq_ok,
    inverse_state.readAll_eq_ok, Prod.exists]
  constructor
  · rintro ⟨minor, payload, hopen, state, ⟨-, hpayload⟩, hvalid, rfl⟩
    exact ⟨hvalid, minor, payload, hpayload, hopen⟩
  · rintro ⟨hvalid, minor, payload, hpayload, hopen⟩
    exact ⟨minor, payload, hopen, state, ⟨plansKeyed_of_valid hvalid, hpayload⟩, hvalid, rfl⟩

/-- What was saved is restored. -/
theorem decodeActionFabricCheckpoint_of_encode {registry : CapabilityRegistry}
    {state : ActionFabricState} {b : Bytes}
    (h : encodeActionFabricCheckpoint registry state = .ok b) :
    decodeActionFabricCheckpoint registry b = .ok state := by
  obtain ⟨hvalid, payload, hpayload, hseal⟩ := encodeActionFabricCheckpoint_eq_ok.1 h
  exact decodeActionFabricCheckpoint_eq_ok.2
    ⟨hvalid, taf97.minor, payload, hpayload, openFrame_iff_sealFrame.2 hseal⟩

/-- **TAF97 is a bijection**: what is encoded decodes to itself, and an accepted file of the current
version is the encoding of what it decodes to. -/
theorem taf97_bijective (registry : CapabilityRegistry) :
    (∀ state b, encodeActionFabricCheckpoint registry state = .ok b →
      decodeActionFabricCheckpoint registry b = .ok state) ∧
    (∀ b state, headerMinor b = taf97.minor →
      decodeActionFabricCheckpoint registry b = .ok state →
      encodeActionFabricCheckpoint registry state = .ok b) := by
  refine ⟨fun state b => decodeActionFabricCheckpoint_of_encode, fun b state hminor h => ?_⟩
  obtain ⟨hvalid, minor, payload, hpayload, hopen⟩ := decodeActionFabricCheckpoint_eq_ok.1 h
  obtain rfl : minor = taf97.minor := by
    rw [← hminor, headerMinor_of_openFrame hopen]
  exact encodeActionFabricCheckpoint_eq_ok.2 ⟨hvalid, payload, hpayload,
    openFrame_iff_sealFrame.1 hopen⟩

namespace Sample

/-- The state after the first of two writes. -/
def halfway : ActionFabricState :=
  (after (prepare (fun _ => .ok ()) [0, 1] ++ [execute .accept])).fabric.state

/-- Its checkpoint. -/
def saved : Bytes := (encodeActionFabricCheckpoint registry halfway).toOption.getD []

end Sample

theorem taf97_bijective_sample :
    encodeActionFabricCheckpoint Sample.registry Sample.halfway = .ok Sample.saved ∧
      decodeActionFabricCheckpoint Sample.registry Sample.saved = .ok Sample.halfway ∧
      headerMinor Sample.saved = taf97.minor := by
  have hencode : encodeActionFabricCheckpoint Sample.registry Sample.halfway
      = .ok Sample.saved := by
    decide +kernel
  have hminor : headerMinor Sample.saved = taf97.minor := by
    decide +kernel
  have hdecode := (taf97_bijective Sample.registry).1 _ _ hencode
  exact ⟨(taf97_bijective Sample.registry).2 _ _ hminor hdecode, hdecode, hminor⟩

/-- A checkpoint is refused for what the validator refuses, or for its size. -/
theorem encodeActionFabricCheckpoint_error {registry : CapabilityRegistry}
    {state : ActionFabricState} {e : ActionCheckpointError}
    (h : encodeActionFabricCheckpoint registry state = .error e) :
    (∃ e', validateFabricState registry state = .error e' ∧ .fabric e' = e) ∨ e = .overflow := by
  simp only [encodeActionFabricCheckpoint, bind_eq_error, mapError_eq_error, exists_unit] at h
  rcases h with hvalid | ⟨-, hwritten | ⟨payload, -, hseal⟩⟩
  · exact .inl hvalid
  · exact .inr ((tame_state state).written_error hwritten)
  · exact .inr (sealFrame_error hseal)

/-! ## What a session reaches can be saved

Every call but an unclean rollback leads from a valid state to a valid one. -/

section Session

variable {W : Type} {registry : CapabilityRegistry} {s : Session W}

/-- **The fabric of a session can be saved**: it is valid against the registry, its checkpoint is
not refused for its contents, and a completed plan has committed every action. -/
structure Persistable (registry : CapabilityRegistry) (s : Session W) : Prop where
  valid : validateFabricState registry s.fabric.state = .ok ()
  encodable : ∀ e, encodeActionFabricCheckpoint registry s.fabric.state ≠ .error (.fabric e)
  committed : ∀ (key : UInt64) (plan : ActionPlanState), s.plans[key]? = some plan →
    plan.status = .completed → ∀ a ∈ plan.actions, a.status = .committed

/-- To be savable is to be valid: the rest follows from validity. -/
theorem persistable_iff : Persistable registry s ↔ FabricValid registry s.fabric.state := by
  refine ⟨fun h => validateFabricState_eq_ok.1 h.valid, fun h => ?_⟩
  have hvalid := validateFabricState_eq_ok.2 h
  refine ⟨hvalid, fun e he => ?_, fun key plan hplan => ?_⟩
  · rcases encodeActionFabricCheckpoint_error he with ⟨e', he', -⟩ | he'
    · rw [hvalid] at he'
      exact nomatch he'
    · exact nomatch he'
  · exact (h.plan_valid key plan hplan).committed_of_completed

/-- **A session can be saved after every call exactly if every rollback was clean.** -/
theorem persistable_iff_clean (registry : CapabilityRegistry) (w : W) (ops : List (Op W)) :
    StatesMeet Session.step (Persistable registry) (Session.new registry w) ops ↔
      StepsMeet Session.step CleanStep (Session.new registry w) ops := by
  refine statesMeet_iff (J := fun s => s.fabric.registry = registry)
    (fun s op hs => (step_spec s op).registry_eq.trans hs) (fun s op hs hvalid => ?_) ops _ rfl
    (persistable_iff.2 fabricValid_new)
  subst hs
  rw [persistable_iff] at hvalid
  rw [persistable_iff, ← step_fabricValid_iff hvalid op, (step_spec s op).registry_eq]

/-- The second of two writes is undone, the first cannot be: the plan stays completed over an action
that is rolled back. -/
theorem not_persistable_after_rollback :
    ¬ Persistable Sample.registry (Sample.after
      (Sample.prepare (fun t => if t = [1] then .ok () else .error "busy") [0, 1] ++
        [Sample.execute .accept, Sample.execute .accept, .rollbackPlan ⟨1⟩])) := by
  intro h
  have hinvalid : validateFabricState Sample.registry (Sample.after
      (Sample.prepare (fun t => if t = [1] then .ok () else .error "busy") [0, 1] ++
        [Sample.execute .accept, Sample.execute .accept, .rollbackPlan ⟨1⟩])).fabric.state
      = .error .invalidState := by
    decide +kernel
  rw [h.valid] at hinvalid
  exact nomatch hinvalid

end Session

end NTD97
