import Mathlib
import NTD97.Cognition.Runs
import NTD97.Lib.Frame

/-!
# CognitiveCheckpoint — the SIK97 file of a mind

    encode = validate ▸ payload ▸ sealFrame        decode = openFrame ▸ payload ▸ memory ▸ validate

A mind is written as its counters, the sizes of its five collections and the collections in key
order.  The decoder wants every id positive; the validator both directions run does not ask for
that, so a file is read back exactly if no goal, task or delta stands under the id `0`.
-/

namespace NTD97

open Guard Wire SortedMap Machine Effect

/-- The letters `SIK97` and a zero byte. -/
def sik97Magic : Bytes := [83, 73, 75, 57, 55, 0]

/-- The format `SIK97`, version `0.1`. -/
def sik97 : Format where
  magic := sik97Magic
  major := 0
  minor := 1
  magic_length := rfl

/-- Why a mind is not saved, or a file not restored. -/
inductive CheckpointError where
  | truncated
  | invalidMagic
  | invalidHeader
  | unsupportedVersion (major minor : UInt16)
  | invalidUtf8
  | invalidBoolean (raw : UInt8)
  | invalidSideEffect (raw : UInt8)
  | invalidGoalStatus (raw : UInt8)
  | invalidTaskStatus (raw : UInt8)
  | invalidMemoryKind (raw : UInt8)
  | nonCanonicalEncoding
  | overflow
  | cognitive (error : CognitiveError)
  | memory (error : MemoryError)
  deriving DecidableEq

instance : FrameError CheckpointError where
  truncated := .truncated
  overflow := .overflow
  invalidUtf8 := .invalidUtf8
  invalidMagic := .invalidMagic
  invalidHeader := .invalidHeader
  unsupportedVersion := .unsupportedVersion
  nonCanonicalEncoding := .nonCanonicalEncoding

namespace CognitiveCheckpoint

/-- Writing a part of a mind. -/
abbrev Encoder := Put CheckpointError Unit

/-- Reading a part of a mind. -/
abbrev Decoder := Get CheckpointError

/-! ## Enumerations, as the byte that names each value

An unknown byte is an error that carries it. -/

/-- The byte of a goal's status. -/
def goalStatusByte : GoalStatus → UInt8
  | .active => 1
  | .completed => 2
  | .paused => 3
  | .failed => 4

/-- The status of a goal by its byte. -/
def goalStatus : UInt8 → Except CheckpointError GoalStatus
  | 1 => .ok .active
  | 2 => .ok .completed
  | 3 => .ok .paused
  | 4 => .ok .failed
  | other => .error (.invalidGoalStatus other)

/-- The byte of a task's status. -/
def taskStatusByte : TaskStatus → UInt8
  | .planned => 1
  | .running => 2
  | .completed => 3
  | .failed => 4
  | .paused => 5

/-- The status of a task by its byte. -/
def taskStatus : UInt8 → Except CheckpointError TaskStatus
  | 1 => .ok .planned
  | 2 => .ok .running
  | 3 => .ok .completed
  | 4 => .ok .failed
  | 5 => .ok .paused
  | other => .error (.invalidTaskStatus other)

/-- The byte of a kind of memory. -/
def memoryKindByte : MemoryKind → UInt8
  | .episodic => 1
  | .semantic => 2
  | .procedural => 3

/-- The kind of memory of a byte. -/
def memoryKind : UInt8 → Except CheckpointError MemoryKind
  | 1 => .ok .episodic
  | 2 => .ok .semantic
  | 3 => .ok .procedural
  | other => .error (.invalidMemoryKind other)

/-- The byte of a side effect class. -/
def encodeSideEffect : SideEffectClass → UInt8
  | .readOnly => 1
  | .reversible => 2
  | .externalWrite => 3
  | .irreversible => 4

/-- The side effect class of a byte. -/
def decodeSideEffect : UInt8 → Except CheckpointError SideEffectClass
  | 1 => .ok .readOnly
  | 2 => .ok .reversible
  | 3 => .ok .externalWrite
  | 4 => .ok .irreversible
  | other => .error (.invalidSideEffect other)

/-- A byte that names a value. -/
def coded {α : Type} (decode : UInt8 → Except CheckpointError α) : Decoder α := do
  let raw ← u8
  decode raw

/-! ## Records

The fields of each record in the order of the file. -/

def encodeGoal (goal : Goal) : Encoder := do
  pushU64 goal.id
  pushU8 (goalStatusByte goal.status)
  pushU64 goal.createdTick
  pushU64 goal.updatedTick
  pushString goal.objective
  pushList pushString goal.completionCriteria

/-- A goal, before it is validated. -/
def decodeGoal : Decoder Goal := do
  let id ← u64
  let status ← coded goalStatus
  let createdTick ← u64
  let updatedTick ← u64
  let objective ← string
  let completionCriteria ← getList string
  return { id, objective, completionCriteria, status, createdTick, updatedTick }

def encodeAction (action : ActionNode) : Encoder := do
  pushU32 action.id
  pushString action.capability.val
  pushU8 (encodeSideEffect action.sideEffect)
  pushBool action.verificationRequired

def decodeAction : Decoder ActionNode := do
  let id ← u32
  let capability ← string
  let sideEffect ← coded decodeSideEffect
  let verificationRequired ← boolean .invalidBoolean
  return { id, capability := ⟨capability⟩, sideEffect, verificationRequired }

/-- The goal of a task: `0` stands for none. -/
def goalRef : Decoder (Option UInt64) := do
  let raw ← u64
  return if raw = 0 then none else some raw

/-- A task refers to its goal by an id, `0` for none. -/
def encodeTask (task : CognitiveTask) : Encoder := do
  pushU64 task.id
  pushU64 (task.goalId.getD 0)
  pushU8 (taskStatusByte task.status)
  pushU32 task.stepsTaken
  pushU32 task.verificationFailures
  pushU64 task.createdTick
  pushU64 task.updatedTick
  pushString task.intent.objective
  pushList pushString task.intent.completionCriteria
  pushU32 task.intent.maxSteps
  pushList encodeAction task.graph.actions
  pushOption pushString task.lastObservation

/-- A task, before it is validated. -/
def decodeTask : Decoder CognitiveTask := do
  let id ← u64
  let goalId ← goalRef
  let status ← coded taskStatus
  let stepsTaken ← u32
  let verificationFailures ← u32
  let createdTick ← u64
  let updatedTick ← u64
  let objective ← string
  let completionCriteria ← getList string
  let maxSteps ← u32
  let actions ← getList decodeAction
  let lastObservation ← getOption .invalidBoolean string
  return {
    id, goalId, intent := { objective, completionCriteria, maxSteps }, graph := { actions }, status,
    stepsTaken, verificationFailures, lastObservation, createdTick, updatedTick }

def encodeWorldFact (fact : WorldFact) : Encoder := do
  pushString fact.key
  pushString fact.value
  pushU64 fact.revision
  pushU64 fact.updatedTick

def decodeWorldFact : Decoder WorldFact := do
  let key ← string
  let value ← string
  let revision ← u64
  let updatedTick ← u64
  return { key, value, revision, updatedTick }

def encodeMemoryRecord (record : MemoryRecord) : Encoder := do
  pushU64 record.id
  pushU8 (memoryKindByte record.kind)
  pushU16 record.importance
  pushU64 record.createdTick
  pushU64 record.lastRecalledTick
  pushU32 record.recallCount
  pushString record.content
  pushList pushString record.tags

def decodeMemoryRecord : Decoder MemoryRecord := do
  let id ← u64
  let kind ← coded memoryKind
  let importance ← u16
  let createdTick ← u64
  let lastRecalledTick ← u64
  let recallCount ← u32
  let content ← string
  let tags ← getList string
  refuse (¬ tags.IsChain (· < ·)) .nonCanonicalEncoding
  return { id, kind, content, tags, importance, createdTick, lastRecalledTick, recallCount }

def encodeDelta (delta : LearnedDelta) : Encoder := do
  pushU64 delta.id
  pushU64 delta.generation
  pushBool delta.active
  pushString delta.nameSpace
  pushBytes delta.payload

/-- A delta, before it is validated. -/
def decodeDelta : Decoder LearnedDelta := do
  let id ← u64
  let generation ← u64
  let active ← boolean .invalidBoolean
  let nameSpace ← string
  let payload ← bytes
  return { id, nameSpace, generation, payload, active }

/-! ## The payload

The counters, then five maps, each behind its count and in key order. -/

/-- A state whose memory is still in parts. -/
structure Parts where
  identity : Block 16
  tick : UInt64
  nextGoalId : UInt64
  nextTaskId : UInt64
  nextDeltaId : UInt64
  nextMemoryId : UInt64
  goals : BTreeMap UInt64 Goal
  tasks : BTreeMap UInt64 CognitiveTask
  world : BTreeMap String WorldFact
  records : BTreeMap UInt64 MemoryRecord
  deltas : BTreeMap UInt64 LearnedDelta

/-- The parts of a state. -/
def parts (state : CognitiveState) : Parts where
  identity := ⟨state.identity.bytes, state.identity.length_eq⟩
  tick := state.tick
  nextGoalId := state.nextGoalId
  nextTaskId := state.nextTaskId
  nextDeltaId := state.nextDeltaId
  nextMemoryId := state.memory.nextId
  goals := state.goals
  tasks := state.tasks
  world := state.world
  records := state.memory.records
  deltas := state.deltas

/-- A state from its parts and the memory made of them. -/
def Parts.toState (p : Parts) (memory : SovereignMemory) : CognitiveState where
  identity := ⟨p.identity.bytes, p.identity.length_eq⟩
  tick := p.tick
  nextGoalId := p.nextGoalId
  nextTaskId := p.nextTaskId
  nextDeltaId := p.nextDeltaId
  goals := p.goals
  tasks := p.tasks
  world := p.world
  memory := memory
  deltas := p.deltas

/-- The payload of the file. -/
def encodePayload (p : Parts) : Encoder := do
  tell p.identity.bytes
  pushU64 p.tick
  pushU64 p.nextGoalId
  pushU64 p.nextTaskId
  pushU64 p.nextDeltaId
  pushU64 p.nextMemoryId
  pushCount p.goals.size
  pushCount p.tasks.size
  pushCount p.world.size
  pushCount p.records.size
  pushCount p.deltas.size
  pushValues encodeGoal p.goals
  pushValues encodeTask p.tasks
  pushValues encodeWorldFact p.world
  pushValues encodeMemoryRecord p.records
  pushValues encodeDelta p.deltas

/-- The parts of a mind, before they are put together. -/
def decodePayload : Decoder Parts := do
  let identity ← block 16
  let tick ← u64
  let nextGoalId ← u64
  let nextTaskId ← u64
  let nextDeltaId ← u64
  let nextMemoryId ← u64
  let goalCount ← count
  let taskCount ← count
  let worldCount ← count
  let memoryCount ← count
  let deltaCount ← count
  let goals ← getById decodeGoal Goal.id .nonCanonicalEncoding goalCount
  let tasks ← getById decodeTask CognitiveTask.id .nonCanonicalEncoding taskCount
  let world ← getByText decodeWorldFact WorldFact.key .nonCanonicalEncoding worldCount
  let records ← getById decodeMemoryRecord MemoryRecord.id .nonCanonicalEncoding memoryCount
  let deltas ← getById decodeDelta LearnedDelta.id .nonCanonicalEncoding deltaCount
  return {
    identity, tick, nextGoalId, nextTaskId, nextDeltaId, nextMemoryId, goals, tasks, world, records,
    deltas }

end CognitiveCheckpoint

open CognitiveCheckpoint

/-- `encode_cognitive_checkpoint`: the state is not validated here. -/
def encodeCognitiveCheckpoint (state : CognitiveState) : Except CheckpointError Bytes := do
  let _ ← (CognitiveRuntime.fromState state).mapError CheckpointError.cognitive
  let payload ← written (encodePayload (parts state))
  sealFrame sik97 payload

/-- `decode_cognitive_checkpoint`: what was read must make a runtime. -/
def decodeCognitiveCheckpoint (bytes : Bytes) : Except CheckpointError CognitiveState := do
  let (_, payload) ← openFrame sik97 bytes
  let parts ← readAll decodePayload .nonCanonicalEncoding payload
  let memory ← (SovereignMemory.fromParts parts.nextMemoryId parts.records).mapError
    CheckpointError.memory
  let state := parts.toState memory
  let _ ← (CognitiveRuntime.fromState state).mapError CheckpointError.cognitive
  return state

/-! ## The laws of the codecs

Records with no reference are read back as they are; a task is, unless it refers to goal `0`. -/

namespace CognitiveCheckpoint

/-- A byte that names a value is read back. -/
theorem codec_coded {α : Type} {code : α → UInt8} {decode : UInt8 → Except CheckpointError α}
    (h : ∀ n a, decode n = .ok a ↔ code a = n) : Codec (fun a => pushU8 (code a)) (coded decode) :=
  inverse_coded h

theorem codec_goalStatus : Codec (fun s => pushU8 (goalStatusByte s)) (coded goalStatus) := by
  refine codec_coded fun n s => ⟨fun h => ?_, ?_⟩
  · unfold goalStatus at h
    split at h <;> cases h <;> rfl
  · rintro rfl
    cases s <;> rfl

theorem codec_taskStatus : Codec (fun s => pushU8 (taskStatusByte s)) (coded taskStatus) := by
  refine codec_coded fun n s => ⟨fun h => ?_, ?_⟩
  · unfold taskStatus at h
    split at h <;> cases h <;> rfl
  · rintro rfl
    cases s <;> rfl

theorem codec_memoryKind : Codec (fun s => pushU8 (memoryKindByte s)) (coded memoryKind) := by
  refine codec_coded fun n s => ⟨fun h => ?_, ?_⟩
  · unfold memoryKind at h
    split at h <;> cases h <;> rfl
  · rintro rfl
    cases s <;> rfl

theorem codec_sideEffect :
    Codec (fun s => pushU8 (encodeSideEffect s)) (coded decodeSideEffect) := by
  refine codec_coded fun n s => ⟨fun h => ?_, ?_⟩
  · unfold decodeSideEffect at h
    split at h <;> cases h <;> rfl
  · rintro rfl
    cases s <;> rfl

/-- A goal is read back. -/
theorem codec_goal : Codec encodeGoal decodeGoal := by
  refine inverse_u64.field Goal.id (fun _ _ => trivial) fun _ _ => ?_
  refine codec_goalStatus.field Goal.status (fun _ _ => trivial) fun _ _ => ?_
  refine inverse_u64.field Goal.createdTick (fun _ _ => trivial) fun _ _ => ?_
  refine inverse_u64.field Goal.updatedTick (fun _ _ => trivial) fun _ _ => ?_
  refine inverse_string.field Goal.objective (fun _ _ => trivial) fun _ _ => ?_
  refine (codec_list inverse_string).last Goal.completionCriteria ?_ ?_
  · rintro ⟨⟩ ⟨⟨⟨⟨⟨-, rfl⟩, rfl⟩, rfl⟩, rfl⟩, rfl⟩
    exact ⟨trivial, rfl⟩
  · exact fun _ _ => ⟨⟨⟨⟨⟨⟨trivial, rfl⟩, rfl⟩, rfl⟩, rfl⟩, rfl⟩, rfl⟩

/-- A node of a task's graph is read back. -/
theorem codec_action : Codec encodeAction decodeAction := by
  refine inverse_u32.field ActionNode.id (fun _ _ => trivial) fun _ _ => ?_
  refine inverse_string.field (fun a : ActionNode => a.capability.val) (fun _ _ => trivial)
    fun _ _ => ?_
  refine codec_sideEffect.field ActionNode.sideEffect (fun _ _ => trivial) fun _ _ => ?_
  refine (inverse_boolean _).last ActionNode.verificationRequired ?_ ?_
  · rintro ⟨_, ⟨⟩⟩ ⟨⟨⟨-, rfl⟩, rfl⟩, rfl⟩
    exact ⟨trivial, rfl⟩
  · exact fun _ _ => ⟨⟨⟨⟨trivial, rfl⟩, rfl⟩, rfl⟩, rfl⟩

/-- A reference is read back if it is not to goal `0`. -/
theorem inverse_goalRef : Inverse (fun o : Option UInt64 => o ≠ some 0)
    (fun o => (pushU64 (o.getD 0) : Encoder)) goalRef :=
  inverse_sentinel inverse_u64 0

/-- A task is read back unless it names the goal `0`. -/
theorem inverse_task : Inverse (fun t : CognitiveTask => t.goalId ≠ some 0) encodeTask
    decodeTask := by
  refine inverse_u64.field CognitiveTask.id (fun _ _ => trivial) fun _ _ => ?_
  refine inverse_goalRef.field CognitiveTask.goalId (fun _ h => h.1) fun _ hgoal => ?_
  refine codec_taskStatus.field CognitiveTask.status (fun _ _ => trivial) fun _ _ => ?_
  refine inverse_u32.field CognitiveTask.stepsTaken (fun _ _ => trivial) fun _ _ => ?_
  refine inverse_u32.field CognitiveTask.verificationFailures (fun _ _ => trivial) fun _ _ => ?_
  refine inverse_u64.field CognitiveTask.createdTick (fun _ _ => trivial) fun _ _ => ?_
  refine inverse_u64.field CognitiveTask.updatedTick (fun _ _ => trivial) fun _ _ => ?_
  refine inverse_string.field (fun t : CognitiveTask => t.intent.objective) (fun _ _ => trivial)
    fun _ _ => ?_
  refine (codec_list inverse_string).field (fun t : CognitiveTask => t.intent.completionCriteria)
    (fun _ _ => trivial) fun _ _ => ?_
  refine inverse_u32.field (fun t : CognitiveTask => t.intent.maxSteps) (fun _ _ => trivial)
    fun _ _ => ?_
  refine (codec_list codec_action).field (fun t : CognitiveTask => t.graph.actions)
    (fun _ _ => trivial) fun _ _ => ?_
  refine (codec_option inverse_string).last CognitiveTask.lastObservation ?_ ?_
  · rintro ⟨_, _, ⟨⟩, ⟨⟩⟩
      ⟨⟨⟨⟨⟨⟨⟨⟨⟨⟨⟨-, rfl⟩, rfl⟩, rfl⟩, rfl⟩, rfl⟩, rfl⟩, rfl⟩, rfl⟩, rfl⟩, rfl⟩, rfl⟩
    exact ⟨trivial, rfl⟩
  · intro _ _
    simp [hgoal]

/-- A fact is read back. -/
theorem codec_worldFact : Codec encodeWorldFact decodeWorldFact := by
  refine inverse_string.field WorldFact.key (fun _ _ => trivial) fun _ _ => ?_
  refine inverse_string.field WorldFact.value (fun _ _ => trivial) fun _ _ => ?_
  refine inverse_u64.field WorldFact.revision (fun _ _ => trivial) fun _ _ => ?_
  refine inverse_u64.last WorldFact.updatedTick ?_ ?_
  · rintro ⟨⟩ ⟨⟨⟨-, rfl⟩, rfl⟩, rfl⟩
    exact ⟨trivial, rfl⟩
  · exact fun _ _ => ⟨⟨⟨⟨trivial, rfl⟩, rfl⟩, rfl⟩, rfl⟩

/-- A record is read back if its tags are in strict order. -/
theorem inverse_memoryRecord : Inverse (fun r : MemoryRecord => r.tags.IsChain (· < ·))
    encodeMemoryRecord decodeMemoryRecord := by
  refine inverse_u64.field MemoryRecord.id (fun _ _ => trivial) fun _ _ => ?_
  refine codec_memoryKind.field MemoryRecord.kind (fun _ _ => trivial) fun _ _ => ?_
  refine inverse_u16.field MemoryRecord.importance (fun _ _ => trivial) fun _ _ => ?_
  refine inverse_u64.field MemoryRecord.createdTick (fun _ _ => trivial) fun _ _ => ?_
  refine inverse_u64.field MemoryRecord.lastRecalledTick (fun _ _ => trivial) fun _ _ => ?_
  refine inverse_u32.field MemoryRecord.recallCount (fun _ _ => trivial) fun _ _ => ?_
  refine inverse_string.field MemoryRecord.content (fun _ _ => trivial) fun _ _ => ?_
  refine (codec_list inverse_string).lastChecked MemoryRecord.tags ?_ ?_
  · rintro ⟨⟩ ⟨⟨⟨⟨⟨⟨⟨htags, rfl⟩, rfl⟩, rfl⟩, rfl⟩, rfl⟩, rfl⟩, rfl⟩
    exact ⟨⟨trivial, not_not.2 htags⟩, rfl⟩
  · exact fun _ _ htags => ⟨⟨⟨⟨⟨⟨⟨⟨not_not.1 htags, rfl⟩, rfl⟩, rfl⟩, rfl⟩, rfl⟩, rfl⟩, rfl⟩, rfl⟩

/-- A delta is read back. -/
theorem codec_delta : Codec encodeDelta decodeDelta := by
  refine inverse_u64.field LearnedDelta.id (fun _ _ => trivial) fun _ _ => ?_
  refine inverse_u64.field LearnedDelta.generation (fun _ _ => trivial) fun _ _ => ?_
  refine (inverse_boolean _).field LearnedDelta.active (fun _ _ => trivial) fun _ _ => ?_
  refine inverse_string.field LearnedDelta.nameSpace (fun _ _ => trivial) fun _ _ => ?_
  refine inverse_bytes.last LearnedDelta.payload ?_ ?_
  · rintro ⟨⟩ ⟨⟨⟨⟨-, rfl⟩, rfl⟩, rfl⟩, rfl⟩
    exact ⟨trivial, rfl⟩
  · exact fun _ _ => ⟨⟨⟨⟨⟨trivial, rfl⟩, rfl⟩, rfl⟩, rfl⟩, rfl⟩

/-- Every entry stands under its own key, ids are positive, and no task names the goal `0`. -/
structure PartsKeyed (p : Parts) : Prop where
  goals : KeyedById Goal.id (fun _ => True) p.goals
  tasks : KeyedById CognitiveTask.id (fun t => t.goalId ≠ some 0) p.tasks
  world : KeyedByText WorldFact.key (fun _ => True) p.world
  records : KeyedById MemoryRecord.id (fun r => r.tags.IsChain (· < ·)) p.records
  deltas : KeyedById LearnedDelta.id (fun _ => True) p.deltas

/-- **The parts of a mind are read back** if its maps are keyed by the ids. -/
theorem inverse_payload : Inverse PartsKeyed encodePayload decodePayload := by
  refine (inverse_block 16).field Parts.identity (fun _ _ => trivial) fun _ _ => ?_
  refine inverse_u64.field Parts.tick (fun _ _ => trivial) fun _ _ => ?_
  refine inverse_u64.field Parts.nextGoalId (fun _ _ => trivial) fun _ _ => ?_
  refine inverse_u64.field Parts.nextTaskId (fun _ _ => trivial) fun _ _ => ?_
  refine inverse_u64.field Parts.nextDeltaId (fun _ _ => trivial) fun _ _ => ?_
  refine inverse_u64.field Parts.nextMemoryId (fun _ _ => trivial) fun _ _ => ?_
  refine inverse_count.field (fun p : Parts => p.goals.size) (fun _ _ => trivial) fun _ _ => ?_
  refine inverse_count.field (fun p : Parts => p.tasks.size) (fun _ _ => trivial) fun _ _ => ?_
  refine inverse_count.field (fun p : Parts => p.world.size) (fun _ _ => trivial) fun _ _ => ?_
  refine inverse_count.field (fun p : Parts => p.records.size) (fun _ _ => trivial) fun _ _ => ?_
  refine inverse_count.field (fun p : Parts => p.deltas.size) (fun _ _ => trivial) fun _ _ => ?_
  -- the sizes are known from here on, each to the reader of its own collection
  refine (inverse_byId codec_goal Goal.id _ _).field Parts.goals ?_ fun goals hgoals => ?_
  · rintro p ⟨⟨⟨⟨⟨⟨⟨⟨⟨⟨⟨h, -⟩, -⟩, -⟩, -⟩, -⟩, -⟩, hsize⟩, -⟩, -⟩, -⟩, -⟩
    exact ⟨h.goals, hsize⟩
  refine (inverse_byId inverse_task CognitiveTask.id _ _).field Parts.tasks ?_ fun tasks htasks => ?_
  · rintro p ⟨⟨⟨⟨⟨⟨⟨⟨⟨⟨⟨⟨h, -⟩, -⟩, -⟩, -⟩, -⟩, -⟩, -⟩, hsize⟩, -⟩, -⟩, -⟩, -⟩
    exact ⟨h.tasks, hsize⟩
  refine (inverse_byOwnText codec_worldFact WorldFact.key _ _).field Parts.world ?_
    fun world hworld => ?_
  · rintro p ⟨⟨⟨⟨⟨⟨⟨⟨⟨⟨⟨⟨⟨h, -⟩, -⟩, -⟩, -⟩, -⟩, -⟩, -⟩, -⟩, hsize⟩, -⟩, -⟩, -⟩, -⟩
    exact ⟨h.world, hsize⟩
  refine (inverse_byId inverse_memoryRecord MemoryRecord.id _ _).field Parts.records ?_
    fun records hrecords => ?_
  · rintro p ⟨⟨⟨⟨⟨⟨⟨⟨⟨⟨⟨⟨⟨⟨h, -⟩, -⟩, -⟩, -⟩, -⟩, -⟩, -⟩, -⟩, -⟩, hsize⟩, -⟩, -⟩, -⟩, -⟩
    exact ⟨h.records, hsize⟩
  refine (inverse_byId codec_delta LearnedDelta.id _ _).last Parts.deltas ?_ fun deltas hdeltas => ?_
  · rintro ⟨⟩ ⟨⟨⟨⟨⟨⟨⟨⟨⟨⟨⟨⟨⟨⟨⟨h, rfl⟩, rfl⟩, rfl⟩, rfl⟩, rfl⟩, rfl⟩, -⟩, -⟩, -⟩, -⟩, hsize⟩, rfl⟩,
      rfl⟩, rfl⟩, rfl⟩
    exact ⟨⟨h.deltas, hsize⟩, rfl⟩
  · simp only [hgoals.2, htasks.2, hworld.2, hrecords.2, hdeltas.2, and_true]
    exact ⟨hgoals.1, htasks.1, hworld.1, hrecords.1, hdeltas.1⟩

/-! ### Refusals

The encoders refuse only a length that does not fit its field. -/

theorem tame_pushCount (n : ℕ) : Tame (pushCount n : Encoder) :=
  tame_lift_bind (fun _ he => lenU32_error he) fun _ _ => tame_pushU32 _

theorem tame_strings (l : List String) : Tame (pushList pushString l : Encoder) :=
  tame_pushList tame_pushString l

theorem tame_goal (goal : Goal) : Tame (encodeGoal goal) :=
  .bind (tame_pushU64 _) <| .bind (tame_pushU8 _) <| .bind (tame_pushU64 _) <|
  .bind (tame_pushU64 _) <| .bind (tame_pushString _) (tame_strings _)

theorem tame_action (action : ActionNode) : Tame (encodeAction action) :=
  .bind (tame_pushU32 _) <| .bind (tame_pushString _) <| .bind (tame_pushU8 _) (tame_pushBool _)

theorem tame_task (task : CognitiveTask) : Tame (encodeTask task) :=
  .bind (tame_pushU64 _) <| .bind (tame_pushU64 _) <| .bind (tame_pushU8 _) <|
  .bind (tame_pushU32 _) <| .bind (tame_pushU32 _) <| .bind (tame_pushU64 _) <|
  .bind (tame_pushU64 _) <| .bind (tame_pushString _) <| .bind (tame_strings _) <|
  .bind (tame_pushU32 _) <| .bind (tame_pushList tame_action _) (tame_pushOption tame_pushString _)

theorem tame_worldFact (fact : WorldFact) : Tame (encodeWorldFact fact) :=
  .bind (tame_pushString _) <| .bind (tame_pushString _) <| .bind (tame_pushU64 _) (tame_pushU64 _)

theorem tame_memoryRecord (record : MemoryRecord) : Tame (encodeMemoryRecord record) :=
  .bind (tame_pushU64 _) <| .bind (tame_pushU8 _) <| .bind (tame_pushU16 _) <|
  .bind (tame_pushU64 _) <| .bind (tame_pushU64 _) <| .bind (tame_pushU32 _) <|
  .bind (tame_pushString _) (tame_strings _)

theorem tame_delta (delta : LearnedDelta) : Tame (encodeDelta delta) :=
  .bind (tame_pushU64 _) <| .bind (tame_pushU64 _) <| .bind (tame_pushBool _) <|
  .bind (tame_pushString _) (tame_pushBytes _)

/-- A mind is refused only for a length. -/
theorem tame_payload (p : Parts) : Tame (encodePayload p) :=
  .bind (tame_tell _) <| .bind (tame_pushU64 _) <| .bind (tame_pushU64 _) <|
  .bind (tame_pushU64 _) <| .bind (tame_pushU64 _) <| .bind (tame_pushU64 _) <|
  .bind (tame_pushCount _) <| .bind (tame_pushCount _) <| .bind (tame_pushCount _) <|
  .bind (tame_pushCount _) <| .bind (tame_pushCount _) <|
  .bind (tame_forM fun _ _ => tame_goal _) <| .bind (tame_forM fun _ _ => tame_task _) <|
  .bind (tame_forM fun _ _ => tame_worldFact _) <|
  .bind (tame_forM fun _ _ => tame_memoryRecord _) (tame_forM fun _ _ => tame_delta _)

end CognitiveCheckpoint

/-! ## The file

The frame holds the payload; the runtime's checks stand behind the decoder. -/

/-- A runtime is made of a state that its checks accept, unchanged. -/
theorem fromState_eq_ok {s s' : CognitiveState} :
    CognitiveRuntime.fromState s = .ok s' ↔ validateState s = .ok () ∧ s = s' := by
  simp only [CognitiveRuntime.fromState, bind_eq_ok, exists_unit, pure_eq_ok]

/-- A file is the frame of a state's payload. -/
theorem encodeCognitiveCheckpoint_eq_ok {s : CognitiveState} {b : Bytes} :
    encodeCognitiveCheckpoint s = .ok b ↔ validateState s = .ok () ∧
      ∃ payload, written (encodePayload (parts s)) = .ok payload ∧
        sealFrame (ε := CheckpointError) sik97 payload = .ok b := by
  simp only [encodeCognitiveCheckpoint, bind_eq_ok, mapError_eq_ok, fromState_eq_ok]
  constructor
  · rintro ⟨_, ⟨hvalid, -⟩, h⟩
    exact ⟨hvalid, h⟩
  · rintro ⟨hvalid, h⟩
    exact ⟨s, ⟨hvalid, rfl⟩, h⟩

/-- The parts of a state and its memory make the state again. -/
theorem toState_eq_iff {p : Parts} {memory : SovereignMemory} {s : CognitiveState} :
    (memory.nextId = p.nextMemoryId ∧ memory.records = p.records) ∧ p.toState memory = s ↔
      p = parts s ∧ memory = s.memory := by
  constructor
  · rintro ⟨⟨hnext, hrecords⟩, rfl⟩
    obtain ⟨⟩ := p
    cases hnext
    cases hrecords
    exact ⟨rfl, rfl⟩
  · rintro ⟨rfl, rfl⟩
    exact ⟨⟨rfl, rfl⟩, rfl⟩

/-- A file of any known minor version opens to a payload that makes a runtime. -/
theorem decodeCognitiveCheckpoint_eq_ok {s : CognitiveState} {b : Bytes} :
    decodeCognitiveCheckpoint b = .ok s ↔ validateState s = .ok () ∧ PartsKeyed (parts s) ∧
      ∃ minor payload, written (encodePayload (parts s)) = .ok payload ∧
        openFrame (ε := CheckpointError) sik97 b = .ok (minor, payload) := by
  simp only [decodeCognitiveCheckpoint, bind_eq_ok, mapError_eq_ok, pure_eq_ok, fromState_eq_ok,
    inverse_payload.readAll_eq_ok, SovereignMemory.fromParts_eq_ok, Prod.exists]
  constructor
  · rintro ⟨minor, payload, hopen, p, ⟨hkeyed, hpayload⟩, memory, hmemory, -, ⟨hvalid, -⟩, hstate⟩
    obtain ⟨rfl, rfl⟩ := toState_eq_iff.1 ⟨hmemory, hstate⟩
    exact ⟨hvalid, hkeyed, minor, payload, hpayload, hopen⟩
  · rintro ⟨hvalid, hkeyed, minor, payload, hpayload, hopen⟩
    obtain ⟨hmemory, hstate⟩ := toState_eq_iff.2 (⟨rfl, rfl⟩ : parts s = parts s ∧ _ = s.memory)
    exact ⟨minor, payload, hopen, parts s, ⟨hkeyed, hpayload⟩, s.memory, hmemory, s,
      ⟨hvalid, rfl⟩, hstate⟩

/-- No goal, task or delta stands under the id `0`. -/
structure IdsPositive (s : CognitiveState) : Prop where
  goals : (0 : UInt64) ∉ s.goals
  tasks : (0 : UInt64) ∉ s.tasks
  deltas : (0 : UInt64) ∉ s.deltas

theorem ne_zero_of_getElem? {β : Type} {m : BTreeMap UInt64 β} {k : UInt64} {v : β}
    (h0 : (0 : UInt64) ∉ m) (h : m[k]? = some v) : k ≠ 0 := by
  rintro rfl
  rw [Std.ExtTreeMap.getElem?_eq_none h0] at h
  exact nomatch h

theorem not_mem_of_forall_ne {β : Type} {m : BTreeMap UInt64 β}
    (h : ∀ (k : UInt64) (v : β), m[k]? = some v → k ≠ 0) : (0 : UInt64) ∉ m := by
  intro h0
  rw [Std.ExtTreeMap.mem_iff_isSome_getElem?, Option.isSome_iff_exists] at h0
  obtain ⟨v, hv⟩ := h0
  exact h 0 v hv rfl

/-- **What the decoder asks of a valid state beyond its validity is that no id is `0`.** -/
theorem partsKeyed_iff {s : CognitiveState} (h : StateValid True s) :
    PartsKeyed (parts s) ↔ IdsPositive s := by
  constructor
  · intro hkeyed
    exact ⟨not_mem_of_forall_ne fun k v hv => (hkeyed.goals k v hv).2.2,
      not_mem_of_forall_ne fun k v hv => (hkeyed.tasks k v hv).2.2,
      not_mem_of_forall_ne fun k v hv => (hkeyed.deltas k v hv).2.2⟩
  · intro hpos
    refine ⟨fun k v hv => ?_, fun k v hv => ?_, fun k v hv => ?_, fun k v hv => ?_,
      fun k v hv => ?_⟩
    · exact ⟨trivial, (h.goals.entry k v hv).keyed, ne_zero_of_getElem? hpos.goals hv⟩
    · have htask := h.tasks.entry k v hv
      refine ⟨fun hgoal => ?_, htask.keyed, ne_zero_of_getElem? hpos.tasks hv⟩
      exact hpos.goals (htask.goal 0 hgoal)
    · exact ⟨trivial, (h.world k v hv).keyed⟩
    · have hrecord := s.memory.sound.entry k v hv
      exact ⟨hrecord.tags, hrecord.keyed, hrecord.id_ne⟩
    · exact ⟨trivial, (h.deltas.entry k v hv).keyed, ne_zero_of_getElem? hpos.deltas hv⟩

/-- What was saved is restored, if the runtime accepts it and no task refers to goal `0`. -/
theorem decodeCognitiveCheckpoint_of_encode {s : CognitiveState} {b : Bytes}
    (hencode : encodeCognitiveCheckpoint s = .ok b) (hpos : IdsPositive s) :
    decodeCognitiveCheckpoint b = .ok s := by
  obtain ⟨hvalid, payload, hpayload, hseal⟩ := encodeCognitiveCheckpoint_eq_ok.1 hencode
  have hkeyed := (partsKeyed_iff (validateState_eq_ok.1 hvalid)).2 hpos
  exact decodeCognitiveCheckpoint_eq_ok.2
    ⟨hvalid, hkeyed, sik97.minor, payload, hpayload, openFrame_iff_sealFrame.2 hseal⟩

/-- A file of the current version that was read is written again. -/
theorem encodeCognitiveCheckpoint_of_decode {s : CognitiveState} {b rest : Bytes}
    (hdecode : decodeCognitiveCheckpoint b = .ok s)
    (hminor : headerMinor (b ++ rest) = sik97.minor) : encodeCognitiveCheckpoint s = .ok b := by
  obtain ⟨hvalid, -, minor, payload, hpayload, hopen⟩ := decodeCognitiveCheckpoint_eq_ok.1 hdecode
  rw [headerMinor_append_of_openFrame rest hopen] at hminor
  subst hminor
  exact encodeCognitiveCheckpoint_eq_ok.2
    ⟨hvalid, payload, hpayload, openFrame_iff_sealFrame.1 hopen⟩

/-- **A file that was written is read back exactly if no id of the state is `0`.** -/
theorem sik97_readBack_iff (s : CognitiveState) (b : Bytes)
    (hencode : encodeCognitiveCheckpoint s = .ok b) :
    decodeCognitiveCheckpoint b = .ok s ↔
      (0 : UInt64) ∉ s.goals ∧ (0 : UInt64) ∉ s.tasks ∧ (0 : UInt64) ∉ s.deltas := by
  constructor
  · intro hdecode
    obtain ⟨hvalid, hkeyed, -⟩ := decodeCognitiveCheckpoint_eq_ok.1 hdecode
    obtain ⟨hgoals, htasks, hdeltas⟩ := (partsKeyed_iff (validateState_eq_ok.1 hvalid)).1 hkeyed
    exact ⟨hgoals, htasks, hdeltas⟩
  · rintro ⟨hgoals, htasks, hdeltas⟩
    exact decodeCognitiveCheckpoint_of_encode hencode ⟨hgoals, htasks, hdeltas⟩

namespace CognitionSample

/-- A mind with one goal. -/
def withGoal (id : UInt64) : CognitiveState :=
  { CognitiveState.new identity with
    nextGoalId := id + 1
    goals := (∅ : BTreeMap UInt64 Goal).insert id {
      id, objective := "tidy", completionCriteria := [], status := .active
      createdTick := 0, updatedTick := 0 } }

/-- Its checkpoint. -/
def saved (id : UInt64) : Bytes := (encodeCognitiveCheckpoint (withGoal id)).toOption.getD []

end CognitionSample

open CognitionSample in
theorem sik97_readBack_withGoal :
    encodeCognitiveCheckpoint (withGoal 1) = .ok (saved 1) ∧
      decodeCognitiveCheckpoint (saved 1) = .ok (withGoal 1) := by
  have hencode : encodeCognitiveCheckpoint (withGoal 1) = .ok (saved 1) := by
    decide +kernel
  exact ⟨hencode, (sik97_readBack_iff _ _ hencode).2 (by decide +kernel)⟩

open CognitionSample in
/-- A goal under the id `0` is written and refused on the way back. -/
theorem not_readBack_goal_zero :
    encodeCognitiveCheckpoint (withGoal 0) = .ok (saved 0) ∧
      decodeCognitiveCheckpoint (saved 0) = .error .nonCanonicalEncoding := by
  decide +kernel

/-- A checkpoint is refused for what the validator refuses, or for its size. -/
theorem encodeCognitiveCheckpoint_error {s : CognitiveState} {e : CheckpointError}
    (h : encodeCognitiveCheckpoint s = .error e) :
    (∃ e', validateState s = .error e' ∧ .cognitive e' = e) ∨ e = .overflow := by
  simp only [encodeCognitiveCheckpoint, bind_eq_error, mapError_eq_error,
    CognitiveRuntime.fromState, exists_unit] at h
  rcases h with ⟨e', hvalid | ⟨-, hpure⟩, he⟩ | ⟨-, -, hwritten | ⟨payload, -, hseal⟩⟩
  · exact .inl ⟨e', hvalid, he⟩
  · cases hpure
  · exact .inr ((tame_payload _).written_error hwritten)
  · exact .inr (sealFrame_error hseal)

/-! ## What a session reaches can be saved

Validity without the step budget is kept; the budget is asked for by the file alone. -/

section Session

variable {W : Type}

/-- **The mind of a session can be saved**: the validator accepts it, a runtime starts from it, and
its checkpoint is not refused for its contents. -/
structure MindPersistable (s : CognitiveSession W) : Prop where
  valid : validateState s.state = .ok ()
  restart : CognitiveRuntime.fromState s.state = .ok s.state
  encodable : ∀ e, encodeCognitiveCheckpoint s.state ≠ .error (.cognitive e)

theorem mindPersistable_iff {s : CognitiveSession W} :
    MindPersistable s ↔ StateValid True s.state := by
  refine ⟨fun h => validateState_eq_ok.1 h.valid, fun h => ?_⟩
  have hvalid := validateState_eq_ok.2 h
  refine ⟨hvalid, fromState_eq_ok.2 ⟨hvalid, rfl⟩, fun e he => ?_⟩
  rcases encodeCognitiveCheckpoint_error he with ⟨e', he', -⟩ | he'
  · rw [hvalid] at he'
    exact nomatch he'
  · exact nomatch he'

/-- **A mind can be saved after every call exactly if every completion found a step left.** -/
theorem mindPersistable_iff_inBudget [SovereignMemory.CharTables] (identity : CognitiveIdentity)
    (world : W) (ops : List (CognitiveOp W)) :
    StatesMeet CognitiveSession.step MindPersistable (.new identity world) ops ↔
      StepsMeet CognitiveSession.step BudgetStep (.new identity world) ops := by
  refine statesMeet_iff (J := fun _ => True) (fun _ _ _ => trivial) (fun s op _ hvalid => ?_) ops _
    trivial (mindPersistable_iff.2 (stateValid_new True identity))
  rw [mindPersistable_iff] at hvalid ⊢
  rw [stateValid_step_iff hvalid op]
  exact ⟨fun h => h trivial, fun h _ => h⟩

open CognitionSample in
/-- A task of one step that is reported complete twice has taken two. -/
theorem not_mindPersistable_completedTwice : ¬ MindPersistable completedTwice := by
  intro h
  have hinvalid : validateState completedTwice.state = .error .overflow := by
    decide +kernel
  rw [h.valid] at hinvalid
  exact nomatch hinvalid

end Session

end NTD97
