import Mathlib
import NTD97.Memory

/-!
# Cognition — goals, tasks and what is known of the world

    submitTask ▸ Planned ──start──▸ Running ──advance──▸ Completed │ Failed
                                     pause ▸ Paused       complete ▸ Completed

The state of the assistant's mind is five keyed collections and their counters.  Tasks move under
two hands: `advance` asks a planner, an executor and a verifier for a bounded number of rounds, and
the `External` calls report what happened elsewhere.  Planner, executor, verifier and activation
hook are outside code: each call may read and change the `world`, of an arbitrary type.
-/

namespace NTD97

open Guard Effect Text

/-- Sixteen bytes. -/
structure CognitiveIdentity where
  bytes : Bytes
  length_eq : bytes.length = 16
  deriving DecidableEq

/-- How a goal stands. -/
inductive GoalStatus where
  | active
  | completed
  | paused
  | failed
  deriving DecidableEq

/-- What tasks are for. -/
structure Goal where
  id : UInt64
  objective : String
  completionCriteria : List String
  status : GoalStatus
  createdTick : UInt64
  updatedTick : UInt64
  deriving DecidableEq

/-- How a task stands. -/
inductive TaskStatus where
  | planned
  | running
  | completed
  | failed
  | paused
  deriving DecidableEq

/-- `matches!(status, Completed | Failed)`. -/
def TaskStatus.isTerminal : TaskStatus → Bool
  | .completed | .failed => true
  | _ => false

/-- A task with its intent and its graph of actions. -/
structure CognitiveTask where
  id : UInt64
  goalId : Option UInt64
  intent : Intent
  graph : TaskGraph
  status : TaskStatus
  stepsTaken : UInt32
  verificationFailures : UInt32
  lastObservation : Option String
  createdTick : UInt64
  updatedTick : UInt64
  deriving DecidableEq

/-- A fact about the world; the revision counts how often it was recorded. -/
structure WorldFact where
  key : String
  value : String
  revision : UInt64
  updatedTick : UInt64
  deriving DecidableEq

/-- Something learned, kept as bytes. -/
structure LearnedDelta where
  id : UInt64
  nameSpace : String
  generation : UInt64
  payload : Bytes
  active : Bool
  deriving DecidableEq

/-- A mind. -/
structure CognitiveState where
  identity : CognitiveIdentity
  tick : UInt64 := 0
  nextGoalId : UInt64 := 1
  nextTaskId : UInt64 := 1
  nextDeltaId : UInt64 := 1
  goals : BTreeMap UInt64 Goal := ∅
  tasks : BTreeMap UInt64 CognitiveTask := ∅
  world : BTreeMap String WorldFact := ∅
  memory : SovereignMemory := .new
  deltas : BTreeMap UInt64 LearnedDelta := ∅
  deriving DecidableEq

/-- Why a call is refused. -/
inductive CognitiveError where
  | emptyObjective
  | emptyWorldKey
  | emptyDeltaNamespace
  | invalidStepBudget
  | missingGoal (id : UInt64)
  | missingTask (id : UInt64)
  | missingDelta (id : UInt64)
  | invalidGoalStatus (raw : UInt8)
  | invalidTaskStatus (raw : UInt8)
  | planner (reason : String)
  | executor (reason : String)
  | memory (error : MemoryError)
  | overflow
  deriving DecidableEq

/-- Computations on the state of a mind; an error exit keeps what was written before it. -/
abbrev CognitionM := Eff CognitiveState CognitiveError

/-! ## The state's own operations

They change the state and its counters; ids are given out in order. -/

namespace CognitiveState

/-- A mind without goals, tasks or memories. -/
def new (identity : CognitiveIdentity) : CognitiveState := { identity }

/-- `add_goal`: what is blank is no goal. -/
def addGoal (objective : String) (completionCriteria : List String) : CognitionM UInt64 := do
  refuse (isBlank objective) .emptyObjective
  let state ← get
  let id := state.nextGoalId
  let nextGoalId ← okOr (checkedAdd64 id 1) .overflow
  modify ({ · with
    nextGoalId
    goals := state.goals.insert id {
      id, objective, completionCriteria, status := .active
      createdTick := state.tick, updatedTick := state.tick } })
  return id

/-- `submit_task`: the intent says something and has a budget. -/
def submitTask (intent : Intent) (graph : TaskGraph) (goalId : Option UInt64) :
    CognitionM UInt64 := do
  refuse (isBlank intent.objective) .emptyObjective
  refuse (intent.maxSteps = 0) .invalidStepBudget
  let state ← get
  refuse (goalId.any (!state.goals.contains ·)) (.missingGoal (goalId.getD 0))
  let id := state.nextTaskId
  let nextTaskId ← okOr (checkedAdd64 id 1) .overflow
  modify ({ · with
    nextTaskId
    tasks := state.tasks.insert id {
      id, goalId, intent, graph, status := .planned, stepsTaken := 0, verificationFailures := 0
      lastObservation := none, createdTick := state.tick, updatedTick := state.tick } })
  return id

/-- `set_world_fact`: a fact under its key, its revision one higher. -/
def setWorldFact (key value : String) : CognitionM Unit := do
  refuse (isBlank key) .emptyWorldKey
  let state ← get
  let revision := (state.world[key]?.map fun fact => saturatingSucc64 fact.revision).getD 1
  modify ({ · with
    world := state.world.insert key { key, value, revision, updatedTick := state.tick } })

/-- `install_delta`: a delta is not active when it is installed. -/
def installDelta (nameSpace : String) (generation : UInt64) (payload : Bytes) :
    CognitionM UInt64 := do
  refuse (isBlank nameSpace) .emptyDeltaNamespace
  let state ← get
  let id := state.nextDeltaId
  let nextDeltaId ← okOr (checkedAdd64 id 1) .overflow
  modify ({ · with
    nextDeltaId
    deltas := state.deltas.insert id { id, nameSpace, generation, payload, active := false } })
  return id

/-- Store a memory, at the given tick. -/
def storeMemory (kind : MemoryKind) (content : String) (tags : List String) (importance : UInt16)
    (tick : UInt64) : CognitionM UInt64 := do
  let state ← get
  let (id, memory) ← check .memory (state.memory.store kind content tags importance tick)
  modify ({ · with memory })
  return id

/-- Retrieve from memory, at the given tick. -/
def retrieveMemory [SovereignMemory.CharTables] (query : MemoryQuery) (tick : UInt64) :
    CognitionM (List MemoryHit) := do
  let state ← get
  let (answer, memory) := state.memory.retrieve query tick
  modify ({ · with memory })
  check .memory answer

/-- `forget_memory`: whether there was such a memory. -/
def forgetMemory (id : UInt64) : CognitionM Bool := do
  let state ← get
  let (found, memory) := state.memory.forget id
  modify ({ · with memory })
  return found

end CognitiveState

/-! ## Directives, and who decides on them

Planner, executor and verifier are outside; they are asked and may change the world. -/

/-- What a planner asks for next. -/
inductive CognitiveDirective where
  | recall (query : MemoryQuery)
  | recordMemory (kind : MemoryKind) (content : String) (tags : List String) (importance : UInt16)
  | updateWorld (key value : String)
  | work (instruction : String)
  | complete (summary : String)
  deriving DecidableEq

/-- `matches!(directive, Complete { .. })`. -/
def CognitiveDirective.isComplete : CognitiveDirective → Bool
  | .complete _ => true
  | _ => false

/-- What came of it. -/
structure CognitiveObservation where
  summary : String
  evidence : List String := []
  deriving DecidableEq

/-- What the verifier makes of it. -/
inductive VerificationDecision where
  | accept
  | retry (reason : String)
  | reject (reason : String)
  deriving DecidableEq

/-- What the planner is told. -/
structure CognitiveContext where
  state : CognitiveState
  task : CognitiveTask
  budget : ReasoningBudget
  iteration : UInt32

/-- Who proposes directives. -/
structure CognitivePlanner (W : Type) where
  plan : CognitiveContext → W → Except String CognitiveDirective × W

/-- Who carries them out. -/
structure CognitiveExecutor (W : Type) where
  execute : CognitiveDirective → CognitiveContext → W → Except String CognitiveObservation × W

/-- Who judges the outcome. -/
structure CognitiveVerifier (W : Type) where
  verify : CognitiveDirective → CognitiveObservation → CognitiveContext → W →
    VerificationDecision × W

/-- Who is told of a delta before it becomes active. -/
structure DeltaActivationHook (W : Type) where
  activate : LearnedDelta → W → Except String Unit × W

/-- What a cycle of thinking came to. -/
structure CognitiveCycleReport where
  taskId : UInt64
  budget : ReasoningBudget
  iterations : UInt32
  status : TaskStatus
  verificationFailures : UInt32
  lastObservation : Option String
  deriving DecidableEq

/-! ## How long to think

Signals between zero and one choose a budget, and the budget a number of rounds. -/

/-- How hard the task is taken to be. -/
structure CognitiveSignals where
  complexity : Float32
  uncertainty : Float32
  priorFailure : Bool

/-- `f32::clamp(0.0, 1.0)`. -/
def clampUnit (value : Float32) : Float32 :=
  if value < 0 then 0 else if 1 < value then 1 else value

/-- Signals that are not between zero and one are moved there. -/
def CognitiveSignals.normalized (self : CognitiveSignals) : CognitiveSignals where
  complexity := clampUnit self.complexity
  uncertainty := clampUnit self.uncertainty
  priorFailure := self.priorFailure

/-- `choose_reasoning_budget`. -/
def chooseReasoningBudget (signals : CognitiveSignals) : ReasoningBudget :=
  let s := signals.normalized
  if s.priorFailure then .recovery
  else if 0.70 ≤ s.complexity ∨ 0.65 ≤ s.uncertainty then .deep
  else if 0.30 ≤ s.complexity ∨ 0.25 ≤ s.uncertainty then .standard
  else .reflex

/-- `iterations_for_budget`. -/
def iterationsForBudget : ReasoningBudget → ℕ
  | .reflex => 1
  | .standard => 2
  | .deep => 4
  | .recovery => 3

/-! ## Moving a task

A task moves on by a directive that was committed, or from outside. -/

namespace CognitiveRuntime

/-- `tick.checked_add(1)`. -/
def nextTick : CognitionM Unit := do
  let state ← get
  let tick ← okOr (checkedAdd64 state.tick 1) .overflow
  modify ({ · with tick })

/-- The task, which must exist. -/
def task (taskId : UInt64) : CognitionM CognitiveTask := do
  let state ← get
  okOr state.tasks[taskId]? (.missingTask taskId)

/-- Update a task in place, at the current tick. -/
def taskMut (taskId : UInt64) (f : CognitiveTask → CognitiveTask) : CognitionM Unit := do
  let _ ← task taskId
  modify fun state => { state with
    tasks := state.tasks.modify taskId fun task => { f task with updatedTick := state.tick } }

/-- The goals after the goal of a task, if it has one, is settled. -/
def settleGoal (goals : BTreeMap UInt64 Goal) (status : GoalStatus) (updatedTick : UInt64) :
    Option UInt64 → BTreeMap UInt64 Goal
  | some id => goals.modify id ({ · with status, updatedTick })
  | none => goals

/-- The goal of a task, if it has one, changes its status. -/
def goalMut (goalId : Option UInt64) (status : GoalStatus) : CognitionM Unit :=
  modify fun state =>
    { state with goals := settleGoal state.goals status state.tick goalId }

/-- Store an episode, at the current tick. -/
def remember (kind : MemoryKind) (content : String) (tags : List String) (importance : UInt16) :
    CognitionM Unit := do
  let state ← get
  let _ ← CognitiveState.storeMemory kind content tags importance state.tick

/-- `start_external_task`: a task that someone outside works on. -/
def startExternalTask (taskId : UInt64) : CognitionM Unit := do
  nextTick
  let current ← task taskId
  if current.status.isTerminal then return ()
  else taskMut taskId ({ · with status := .running })

/-- What an accepted directive does to the task's mind, apart from the task. -/
def applyDirective (taskId : UInt64) : CognitiveDirective → CognitionM Unit
  | .recall _ | .work _ => pure ()
  | .recordMemory kind content tags importance => remember kind content tags importance
  | .updateWorld key value => CognitiveState.setWorldFact key value
  | .complete summary => do
    let current ← task taskId
    goalMut current.goalId .completed
    remember .episodic ("task " ++ toString taskId ++ " completed: " ++ summary)
      ["task", "completion"] 700

/-- A task after one step of work on it. -/
def committed (directive : CognitiveDirective) (observation : CognitiveObservation)
    (task : CognitiveTask) : CognitiveTask :=
  { task with
    stepsTaken := saturatingSucc32 task.stepsTaken
    lastObservation := some observation.summary
    status := if directive.isComplete then .completed else task.status }

/-- What a directive means for its task, once it was accepted. -/
def commitDirective (taskId : UInt64) (directive : CognitiveDirective)
    (observation : CognitiveObservation) : CognitionM Unit := do
  applyDirective taskId directive
  taskMut taskId (committed directive observation)

/-- `complete_external_task`: the step is counted, and no budget looked at. -/
def completeExternalTask (taskId : UInt64) (summary : String) : CognitionM Unit := do
  refuse (isBlank summary) (.executor "external task completion summary is empty")
  nextTick
  commitDirective taskId (.complete summary) { summary }

/-- `pause_external_task`. -/
def pauseExternalTask (taskId : UInt64) (reason : String) : CognitionM Unit := do
  refuse (isBlank reason) (.executor "external task pause reason is empty")
  nextTick
  let current ← task taskId
  if current.status.isTerminal then return ()
  else do
    taskMut taskId ({ · with status := .paused, lastObservation := some reason })
    remember .episodic ("task " ++ toString taskId ++ " paused: " ++ reason) ["task", "pause"] 400

def failTask (taskId : UInt64) (reason : String) : CognitionM Unit := do
  let current ← task taskId
  taskMut taskId ({ · with status := .failed, lastObservation := some reason })
  goalMut current.goalId .failed
  remember .episodic ("task " ++ toString taskId ++ " failed: " ++ reason) ["task", "failure"] 800

/-- What a retry leaves on the task. -/
def retryTask (taskId : UInt64) (reason : String) : CognitionM Unit := do
  taskMut taskId fun task => { task with
    verificationFailures := saturatingSucc32 task.verificationFailures
    lastObservation := some reason }
  remember .episodic ("verification retry: " ++ reason) ["verification", "retry"] 600

def report (task : CognitiveTask) (budget : ReasoningBudget) (iterations : UInt32) :
    CognitiveCycleReport where
  taskId := task.id
  budget := budget
  iterations := iterations
  status := task.status
  verificationFailures := task.verificationFailures
  lastObservation := task.lastObservation

end CognitiveRuntime

/-! ## Thinking, in an outside world -/

/-- A mind in its world. -/
structure CognitiveSession (W : Type) where
  state : CognitiveState
  world : W

abbrev SessionM (W : Type) := Eff (CognitiveSession W) CognitiveError

namespace CognitiveSession

open CognitiveRuntime

variable {W : Type}

def new (identity : CognitiveIdentity) (world : W) : CognitiveSession W where
  state := .new identity
  world := world

/-- What the mind does on its own. -/
def inside {α : Type} (x : CognitionM α) : SessionM W α :=
  zoom state (fun s state => { s with state }) id x

/-- A call of outside code. -/
def outside {α : Type} (call : W → α × W) : SessionM W α := do
  let s ← get
  let (a, world) := call s.world
  modify ({ · with world })
  return a

/-- What the outside is shown of a task. -/
def context (taskId : UInt64) (budget : ReasoningBudget) (iteration : UInt32) :
    SessionM W CognitiveContext := do
  let s ← get
  let task ← inside (task taskId)
  return { state := s.state, task, budget, iteration }

def activateDelta (deltaId : UInt64) (hook : DeltaActivationHook W) : SessionM W Unit := do
  let s ← get
  let delta ← okOr s.state.deltas[deltaId]? (.missingDelta deltaId)
  let answer ← outside (hook.activate delta)
  check .executor answer
  modify fun s => { s with
    state.deltas := s.state.deltas.modify deltaId ({ · with active := true }) }

def executeDirective [SovereignMemory.CharTables] (taskId : UInt64) (directive : CognitiveDirective)
    (budget : ReasoningBudget) (iteration : UInt32) (executor : CognitiveExecutor W) :
    SessionM W CognitiveObservation :=
  match directive with
  | .recall query => do
    let s ← get
    let hits ← inside (CognitiveState.retrieveMemory query s.state.tick)
    return {
      summary := "recalled " ++ toString hits.length ++ " memories"
      evidence := hits.map fun hit => "memory:" ++ toString hit.id ++ ":" ++ hit.record.content }
  | .recordMemory _ content _ _ => return { summary := "memory prepared: " ++ content }
  | .updateWorld key value => return { summary := "world update prepared: " ++ key ++ "=" ++ value }
  | .complete summary => return { summary := "completion prepared: " ++ summary }
  | .work _ => do
    let context ← context taskId budget iteration
    let answer ← outside (executor.execute directive context)
    check .executor answer

/-- The rounds of thinking that are left, after `iterations` rounds. -/
def think [SovereignMemory.CharTables] (taskId : UInt64) (budget : ReasoningBudget)
    (planner : CognitivePlanner W) (executor : CognitiveExecutor W)
    (verifier : CognitiveVerifier W) : ℕ → UInt32 → UInt32 → SessionM W UInt32
  | 0, _, iterations => return iterations
  | rounds + 1, iteration, iterations => do
    let current ← inside (task taskId)
    if current.intent.maxSteps ≤ current.stepsTaken then do
      inside (failTask taskId "task step budget exhausted")
      return iterations
    else do
      inside nextTick
      let shown ← context taskId budget iteration
      let plan ← outside (planner.plan shown)
      let directive ← check .planner plan
      let observation ← executeDirective taskId directive budget iteration executor
      let shown ← context taskId budget iteration
      let decision ← outside (verifier.verify directive observation shown)
      let iterations := saturatingSucc32 iterations
      match decision with
      | .accept => do
        inside (commitDirective taskId directive observation)
        if directive.isComplete then return iterations
        else think taskId budget planner executor verifier rounds (iteration + 1) iterations
      | .retry reason => do
        inside (retryTask taskId reason)
        think taskId budget planner executor verifier rounds (iteration + 1) iterations
      | .reject reason => do
        inside (failTask taskId reason)
        return iterations

def advance [SovereignMemory.CharTables] (taskId : UInt64) (signals : CognitiveSignals)
    (planner : CognitivePlanner W) (executor : CognitiveExecutor W)
    (verifier : CognitiveVerifier W) : SessionM W CognitiveCycleReport := do
  let budget := chooseReasoningBudget signals
  let current ← inside (task taskId)
  if current.status.isTerminal then return report current budget 0
  else do
    modify fun s => { s with
      state.tasks := s.state.tasks.modify taskId ({ · with status := .running }) }
    let iterations ←
      think taskId budget planner executor verifier (iterationsForBudget budget) 0 0
    let current ← inside (task taskId)
    return report current budget iterations

end CognitiveSession

/-! ## Validation of a stored state

What a file must satisfy before a runtime is made of it. -/

/-- `validate_state`: the entries stand under their ids, and the references lead somewhere. -/
def validateState (state : CognitiveState) : Except CognitiveError Unit := do
  refuse (state.nextGoalId = 0 ∨ state.nextTaskId = 0 ∨ state.nextDeltaId = 0) .overflow
  refuse (state.goals.keys.getLast?.any (state.nextGoalId ≤ ·) ∨
    state.tasks.keys.getLast?.any (state.nextTaskId ≤ ·) ∨
    state.deltas.keys.getLast?.any (state.nextDeltaId ≤ ·)) .overflow
  state.goals.toList.forM fun (id, goal) =>
    refuse (id ≠ goal.id ∨ isBlank goal.objective) .overflow
  state.tasks.toList.forM fun (id, task) => do
    refuse (id ≠ task.id ∨ isBlank task.intent.objective ∨ task.intent.maxSteps = 0 ∨
      task.intent.maxSteps < task.stepsTaken) .overflow
    refuse (task.goalId.any (!state.goals.contains ·)) (.missingGoal (task.goalId.getD 0))
  state.world.toList.forM fun (key, fact) =>
    refuse (key ≠ fact.key ∨ isBlank key ∨ fact.revision = 0) .overflow
  state.deltas.toList.forM fun (id, delta) =>
    refuse (id ≠ delta.id ∨ isBlank delta.nameSpace) .overflow

/-- `CognitiveRuntime::from_state`: a runtime is a state the validator accepted. -/
def CognitiveRuntime.fromState (state : CognitiveState) : Except CognitiveError CognitiveState := do
  validateState state
  return state

end NTD97
