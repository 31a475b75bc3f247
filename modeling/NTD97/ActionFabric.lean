import Mathlib
import NTD97.Capability
import NTD97.Lib.Effect

/-!
# ActionFabric — plans of typed actions, carried out by adapters

    preparePlan ──▸ Ready ──executeNext──▸ Suspended │ Completed │ Failed
                                 any ──rollbackPlan──▸ RolledBack

A plan is a list of actions and a cursor; `executeNext` tries the action under the cursor once.
Adapters and verifiers are outside code: each call may read and change the `world`, of an arbitrary
type.  A `Session` is a fabric in such a world, with the history of the calls made so far — a ghost
that no function reads.
-/

namespace NTD97

open Guard Effect

structure ActionId where
  val : UInt64
  deriving DecidableEq

structure ActionPlanId where
  val : UInt64
  deriving DecidableEq

inductive ActionStatus where
  | prepared
  | running
  | suspended
  | retryable
  | committed
  | rolledBack
  | failed
  deriving DecidableEq

inductive ActionPlanStatus where
  | ready
  | suspended
  | completed
  | failed
  | rolledBack
  deriving DecidableEq

structure PlannedAction where
  id : ActionId
  nodeId : UInt32
  capability : CapabilityId
  capabilityVersion : UInt32
  sideEffect : SideEffectClass
  verificationRequired : Bool
  action : TypedAction
  status : ActionStatus
  attempts : UInt32
  output : Option ActionOutput
  resumeToken : Option Bytes
  rollbackToken : Option Bytes
  lastError : Option String
  deriving DecidableEq

structure ActionPlanState where
  id : ActionPlanId
  taskId : UInt64
  cursor : ℕ
  status : ActionPlanStatus
  actions : List PlannedAction
  deriving DecidableEq

structure ActionFabricState where
  nextPlanId : UInt64 := 1
  nextActionId : UInt64 := 1
  plans : BTreeMap UInt64 ActionPlanState := ∅
  deriving DecidableEq

/-! ## The outside world -/

inductive AdapterResult where
  | completed (output : ActionOutput) (rollbackToken : Option Bytes)
  | suspended (resumeToken : Bytes) (note : String)
  | retryable (reason : String) (resumeToken : Option Bytes)
  deriving DecidableEq

/-- An adapter carries out, resumes and undoes actions; by default it can neither resume nor
undo. -/
structure CapabilityAdapter (W : Type) where
  execute : ActionId → TypedAction → W → Except String AdapterResult × W
  resume : ActionId → TypedAction → Bytes → W → Except String AdapterResult × W :=
    fun _ _ _ w => (.error "resume is not supported by this adapter", w)
  rollback : ActionId → TypedAction → Bytes → W → Except String Unit × W :=
    fun _ _ _ w => (.error "rollback is not supported by this adapter", w)

inductive ActionVerification where
  | accept
  | retry (reason : String)
  | reject (reason : String)
  deriving DecidableEq

structure ActionVerifier (W : Type) where
  verify : CapabilityDescriptor → TypedAction → ActionOutput → W → ActionVerification × W

structure ActionStepReport where
  planId : ActionPlanId
  actionId : Option ActionId
  actionStatus : Option ActionStatus
  planStatus : ActionPlanStatus
  cursor : ℕ
  summary : String
  deriving DecidableEq

inductive ActionFabricError where
  | capability (error : CapabilityError)
  | duplicateAdapter (id : CapabilityId)
  | missingAdapter (id : CapabilityId)
  | missingPlan (id : ActionPlanId)
  | missingActionPayload (node : UInt32)
  | unexpectedActionPayload (node : UInt32)
  | sideEffectMismatch (nodeId : UInt32) (planned registered : SideEffectClass)
  | verificationContractMismatch (node : UInt32)
  | nonResumableSuspension (id : CapabilityId)
  | adapterFailure (capability : CapabilityId) (reason : String)
  | rollbackFailure (capability : CapabilityId) (reason : String)
  | rollbackUnavailable (id : ActionId)
  | terminalPlan (status : ActionPlanStatus)
  | invalidActionStatus (raw : UInt8)
  | invalidPlanStatus (raw : UInt8)
  | invalidState
  | overflow
  deriving DecidableEq

structure ActionFabric (W : Type) where
  registry : CapabilityRegistry
  adapters : BTreeMap String (CapabilityAdapter W)
  state : ActionFabricState

def ActionFabric.new (W : Type) (registry : CapabilityRegistry) : ActionFabric W where
  registry := registry
  adapters := ∅
  state := {}

/-! ## Sessions -/

/-- What can be observed of a session from outside, one entry per event:
* `called` — an adapter was asked to execute the action, or to resume it with a token;
* `verified` — the verifier judged an output;
* `committed` — the action was committed;
* `rollback` — an adapter was asked to undo the action with a token. -/
inductive Event where
  | called (plan : ActionPlanId) (index : ℕ) (snapshot : PlannedAction) (resume : Option Bytes)
      (authority : AuthorityGrant) (answer : Except String AdapterResult)
  | verified (plan : ActionPlanId) (index : ℕ) (output : ActionOutput)
      (verdict : ActionVerification)
  | committed (plan : ActionPlanId) (index : ℕ)
  | rollback (plan : ActionPlanId) (index : ℕ) (id : ActionId) (action : TypedAction)
      (token : Bytes) (answer : Except String Unit)
  deriving DecidableEq

/-- A fabric, the world its adapters act on, and the history of their calls. -/
structure Session (W : Type) where
  fabric : ActionFabric W
  world : W
  trace : List Event

def Session.new {W : Type} (registry : CapabilityRegistry) (world : W) : Session W where
  fabric := .new W registry
  world := world
  trace := []

variable {W : Type}

/-- A method of the fabric: it may leave through an error, keeping the writes made before. -/
abbrev FabricM (W : Type) := Eff (Session W) ActionFabricError

namespace Session

/-- The stored plans. -/
abbrev plans (s : Session W) : BTreeMap UInt64 ActionPlanState := s.fabric.state.plans

/-- Store a plan under its key. -/
def setPlan (s : Session W) (key : UInt64) (plan : ActionPlanState) : Session W :=
  { s with fabric.state.plans := s.plans.insert key plan }

/-- Append an event to the history. -/
def log (s : Session W) (event : Event) : Session W := { s with trace := s.trace ++ [event] }

end Session

/-! ## Access to a plan and to one of its actions -/

/-- `state.plans.get(&plan_id.0)`, which must be there. -/
def plan (planId : ActionPlanId) : FabricM W ActionPlanState := do
  okOr (← get).plans[planId.val]? (.missingPlan planId)

/-- `state.plans.get_mut(&plan_id.0)`, changed in place. -/
def planMut (planId : ActionPlanId) (f : ActionPlanState → ActionPlanState) :
    FabricM W ActionPlanState := do
  let stored ← plan planId
  modify (·.setPlan planId.val (f stored))
  return f stored

/-- The action at an index of a plan, changed in place by `f`. -/
def actionMut (planId : ActionPlanId) (index : ℕ) (f : PlannedAction → PlannedAction) :
    FabricM W PlannedAction := do
  let stored ← plan planId
  let action ← okOr stored.actions[index]? .invalidState
  modify (·.setPlan planId.val { stored with actions := stored.actions.set index (f action) })
  return f action

def setPlanStatus (planId : ActionPlanId) (status : ActionPlanStatus) : FabricM W Unit := do
  let _ ← planMut planId fun plan => { plan with status }

def finishPlan (planId : ActionPlanId) (status : ActionPlanStatus) : FabricM W Unit :=
  setPlanStatus planId status

def advanceCursor (planId : ActionPlanId) : FabricM W (ℕ × ActionPlanStatus) := do
  let plan ← planMut planId fun plan =>
    { plan with
      cursor := plan.cursor + 1
      status := if plan.actions.length ≤ plan.cursor + 1 then .completed else .ready }
  return (plan.cursor, plan.status)

/-- The adapter registered for a capability. -/
def adapter (capability : CapabilityId) : FabricM W (CapabilityAdapter W) := do
  okOr (← get).fabric.adapters[capability.val]? (.missingAdapter capability)

/-! ## Calls to the outside -/

/-- Let outside code act on the world, and note the call. -/
def outside {α : Type} (call : W → α × W) (event : α → Event) : FabricM W α := do
  let (answer, world) := call (← get).world
  modify fun s => { s with world }.log (event answer)
  return answer

/-! ## Registration and preparation -/

def registerAdapter (capability : CapabilityId) (adapter : CapabilityAdapter W) :
    FabricM W Unit := do
  let _ ← check .capability ((← get).fabric.registry.descriptor capability)
  refuse ((← get).fabric.adapters.contains capability.val) (.duplicateAdapter capability)
  modify fun s => { s with
    fabric.adapters := s.fabric.adapters.insert capability.val adapter }

/-- A node of the graph with its payload, its capability's version, and whether the action must be
verified. -/
abbrev ValidatedNode := ActionNode × TypedAction × UInt32 × Bool

/-- The first loop of `preparePlan`: each node takes its payload and is held against its
capability.  Answers the payloads nobody took as well. -/
def validateNodes (registry : CapabilityRegistry) : List ActionNode → Std.ExtTreeSet UInt32 →
    BTreeMap UInt32 TypedAction →
    Except ActionFabricError (List ValidatedNode × BTreeMap UInt32 TypedAction)
  | [], _, payloads => return ([], payloads)
  | node :: nodes, seenNodes, payloads => do
    refuse (seenNodes.contains node.id) .invalidState
    let action ← okOr payloads[node.id]? (.missingActionPayload node.id)
    let descriptor ← (registry.validateAction node.capability action).mapError .capability
    refuse (node.sideEffect ≠ descriptor.sideEffect)
      (.sideEffectMismatch node.id node.sideEffect descriptor.sideEffect)
    refuse (descriptor.verificationRequired ∧ ¬ node.verificationRequired)
      (.verificationContractMismatch node.id)
    let (validated, left) ← validateNodes registry nodes (seenNodes.insert node.id)
      (payloads.erase node.id)
    return ((node, action, descriptor.version,
      node.verificationRequired || descriptor.verificationRequired) :: validated, left)

/-- The second loop of `preparePlan`: the offset-th action of the plan. -/
def plannedAction (firstActionId : UInt64) : ValidatedNode × ℕ →
    Except ActionFabricError PlannedAction
  | ((node, action, capabilityVersion, verificationRequired), offset) => do
    refuse (¬ offset < 2 ^ 64) .overflow
    let actionId ← okOr (checkedAdd64 firstActionId (UInt64.ofNat offset)) .overflow
    return {
      id := ⟨actionId⟩
      nodeId := node.id
      capability := node.capability
      capabilityVersion
      sideEffect := node.sideEffect
      verificationRequired
      action
      status := .prepared
      attempts := 0
      output := none
      resumeToken := none
      rollbackToken := none
      lastError := none }

/-- What `preparePlan` decides before it writes: the new plan and the two next ids. -/
def newPlan (registry : CapabilityRegistry) (state : ActionFabricState) (taskId : UInt64)
    (graph : TaskGraph) (payloads : BTreeMap UInt32 TypedAction) :
    Except ActionFabricError (ActionPlanState × UInt64 × UInt64) := do
  refuse (taskId = 0 ∨ graph.actions = []) .invalidState
  let (validated, left) ← validateNodes registry graph.actions ∅ payloads
  match left.keys.head? with
  | some unexpected => throw (.unexpectedActionPayload unexpected)
  | none => do
    let planId : ActionPlanId := ⟨state.nextPlanId⟩
    let nextPlanId ← okOr (checkedAdd64 state.nextPlanId 1) .overflow
    refuse (¬ validated.length < 2 ^ 64) .overflow
    let nextActionId ← okOr (checkedAdd64 state.nextActionId (UInt64.ofNat validated.length))
      .overflow
    let actions ← validated.zipIdx.mapM (plannedAction state.nextActionId)
    return ({ id := planId, taskId, cursor := 0, status := .ready, actions },
      nextPlanId, nextActionId)

def preparePlan (taskId : UInt64) (graph : TaskGraph) (payloads : BTreeMap UInt32 TypedAction) :
    FabricM W ActionPlanId := do
  let fabric := (← get).fabric
  let (plan, nextPlanId, nextActionId) ←
    check id (newPlan fabric.registry fabric.state taskId graph payloads)
  modify fun s => { s with
    fabric.state.nextPlanId := nextPlanId
    fabric.state.nextActionId := nextActionId
    fabric.state.plans := s.plans.insert plan.id.val plan }
  return plan.id

/-! ## Execution -/

/-- Undo the action just rejected, where its capability and its adapter allow it. -/
def rollbackCurrentIfPossible (planId : ActionPlanId) (cursor : ℕ) (snapshot : PlannedAction)
    (descriptor : CapabilityDescriptor) (rollbackToken : Option Bytes) : FabricM W Bool :=
  if ¬ descriptor.rollbackSupported then pure false
  else match rollbackToken with
    | none => pure false
    | some token => do
      let adapter ← adapter snapshot.capability
      let answer ← outside (adapter.rollback snapshot.id snapshot.action token)
        (.rollback planId cursor snapshot.id snapshot.action token)
      check (.rollbackFailure snapshot.capability) answer
      let _ ← actionMut planId cursor fun action => { action with rollbackToken := some token }
      return true

/-- The verdict on an output: an action that needs no verification is accepted unseen. -/
def verification (planId : ActionPlanId) (cursor : ℕ) (snapshot : PlannedAction)
    (descriptor : CapabilityDescriptor) (output : ActionOutput) (verifier : ActionVerifier W) :
    FabricM W ActionVerification :=
  if snapshot.verificationRequired then
    outside (verifier.verify descriptor snapshot.action output) (.verified planId cursor output)
  else pure .accept

/-- An action that broke its capability's contract fails with its plan. -/
def failContract (planId : ActionPlanId) (cursor : ℕ) (snapshot : PlannedAction)
    (message : String) : FabricM W ActionStepReport := do
  let _ ← actionMut planId cursor fun action =>
    { action with status := .failed, lastError := some message }
  finishPlan planId .failed
  throw (.nonResumableSuspension snapshot.capability)

/-- The `Completed` branch of `applyAdapterResult`. -/
def applyCompleted (planId : ActionPlanId) (cursor : ℕ) (snapshot : PlannedAction)
    (descriptor : CapabilityDescriptor) (output : ActionOutput) (rollbackToken : Option Bytes)
    (verifier : ActionVerifier W) : FabricM W ActionStepReport := do
  match ← verification planId cursor snapshot descriptor output verifier with
  | .accept => do
    let action ← actionMut planId cursor fun action =>
      { action with
        status := .committed
        output := some output
        resumeToken := none
        rollbackToken := if descriptor.rollbackSupported then rollbackToken else none
        lastError := none }
    modify (·.log (.committed planId cursor))
    let (nextCursor, planStatus) ← advanceCursor planId
    return {
      planId, actionId := some action.id, actionStatus := some .committed, planStatus
      cursor := nextCursor, summary := output.summary }
  | .retry reason => do
    let action ← actionMut planId cursor fun action =>
      { action with
        status := .retryable
        output := some output
        resumeToken := none
        rollbackToken := if descriptor.rollbackSupported then rollbackToken else none
        lastError := some reason }
    setPlanStatus planId .ready
    return {
      planId, actionId := some action.id, actionStatus := some .retryable, planStatus := .ready
      cursor, summary := reason }
  | .reject reason => do
    let rolledBack ← rollbackCurrentIfPossible planId cursor snapshot descriptor rollbackToken
    let actionStatus := if rolledBack then .rolledBack else .failed
    let action ← actionMut planId cursor fun action =>
      { action with output := some output, lastError := some reason, status := actionStatus }
    finishPlan planId .failed
    return {
      planId, actionId := some action.id, actionStatus := some actionStatus, planStatus := .failed
      cursor, summary := reason }

def applyAdapterResult (planId : ActionPlanId) (cursor : ℕ) (snapshot : PlannedAction)
    (descriptor : CapabilityDescriptor) (result : AdapterResult) (verifier : ActionVerifier W) :
    FabricM W ActionStepReport :=
  match result with
  | .suspended resumeToken note =>
    if ¬ descriptor.resumable then
      failContract planId cursor snapshot "adapter attempted unsupported suspension"
    else do
      let action ← actionMut planId cursor fun action =>
        { action with
          status := .suspended, resumeToken := some resumeToken, lastError := some note }
      setPlanStatus planId .suspended
      return {
        planId, actionId := some action.id, actionStatus := some .suspended
        planStatus := .suspended, cursor, summary := note }
  | .retryable reason resumeToken =>
    if resumeToken.isSome ∧ ¬ descriptor.resumable then
      failContract planId cursor snapshot
        "adapter returned resume state for non-resumable capability"
    else do
      let action ← actionMut planId cursor fun action =>
        { action with status := .retryable, resumeToken, lastError := some reason }
      setPlanStatus planId .ready
      return {
        planId, actionId := some action.id, actionStatus := some .retryable
        planStatus := .ready, cursor, summary := reason }
  | .completed output rollbackToken =>
    applyCompleted planId cursor snapshot descriptor output rollbackToken verifier

/-- A plan in one of these states is never executed again. -/
def ActionPlanStatus.isTerminal : ActionPlanStatus → Bool
  | .completed | .failed | .rolledBack => true
  | .ready | .suspended => false

/-- An action in one of these states is never attempted. -/
def ActionStatus.isSettled : ActionStatus → Bool
  | .committed | .rolledBack | .failed => true
  | .prepared | .running | .suspended | .retryable => false

/-- The token an attempt resumes with: the stored one, for a suspended or retryable action. -/
def PlannedAction.resumption (snapshot : PlannedAction) : Option Bytes :=
  if snapshot.status = .suspended ∨ snapshot.status = .retryable then snapshot.resumeToken
  else none

/-- Execute the action, or resume it with its token. -/
def CapabilityAdapter.attempt (adapter : CapabilityAdapter W) (snapshot : PlannedAction) :
    W → Except String AdapterResult × W :=
  match snapshot.resumption with
  | some token => adapter.resume snapshot.id snapshot.action token
  | none => adapter.execute snapshot.id snapshot.action

/-- The second half of `executeNext`: the action under the cursor passed every gate, and is
attempted once. -/
def attemptAction (planId : ActionPlanId) (cursor : ℕ) (snapshot : PlannedAction)
    (descriptor : CapabilityDescriptor) (authority : AuthorityGrant) (verifier : ActionVerifier W) :
    FabricM W ActionStepReport := do
  let _ ← actionMut planId cursor fun action =>
    { action with status := .running, attempts := saturatingSucc32 action.attempts }
  setPlanStatus planId .ready
  let adapter ← adapter snapshot.capability
  let answer ← outside (adapter.attempt snapshot)
    (.called planId cursor snapshot snapshot.resumption authority)
  match answer with
  | .error reason => do
    let action ← actionMut planId cursor fun action =>
      { action with status := .retryable, lastError := some reason, resumeToken := none }
    setPlanStatus planId .ready
    return {
      planId, actionId := some action.id, actionStatus := some .retryable, planStatus := .ready
      cursor, summary := reason }
  | .ok result => applyAdapterResult planId cursor snapshot descriptor result verifier

def executeNext (planId : ActionPlanId) (authority : AuthorityGrant) (verifier : ActionVerifier W) :
    FabricM W ActionStepReport := do
  let plan ← plan planId
  refuse plan.status.isTerminal (.terminalPlan plan.status)
  match plan.actions[plan.cursor]? with
  | none => do
    finishPlan planId .completed
    return {
      planId, actionId := none, actionStatus := none, planStatus := .completed
      cursor := plan.cursor, summary := "plan already exhausted" }
  | some snapshot => do
    let descriptor ← check .capability
      ((← get).fabric.registry.validateAction snapshot.capability snapshot.action)
    check .capability (authority.permits descriptor)
    refuse (snapshot.resumption.isSome ∧ ¬ descriptor.resumable)
      (.nonResumableSuspension snapshot.capability)
    refuse snapshot.status.isSettled .invalidState
    attemptAction planId plan.cursor snapshot descriptor authority verifier

/-! ## Rollback -/

/-- There is a side effect to undo: the action may have written, was attempted, and was not undone
yet. -/
def PlannedAction.pending (action : PlannedAction) : Bool :=
  ¬ (action.sideEffect = .readOnly ∨ action.status = .prepared ∨ action.status = .rolledBack)

/-- The body of `rollbackPlan`'s loop. -/
def rollbackAction (planId : ActionPlanId) (index : ℕ) (action : PlannedAction) :
    FabricM W Unit :=
  if ¬ action.pending then pure ()
  else do
    let descriptor ← check .capability ((← get).fabric.registry.descriptor action.capability)
    refuse (¬ descriptor.rollbackSupported) (.rollbackUnavailable action.id)
    let token ← okOr action.rollbackToken (.rollbackUnavailable action.id)
    let adapter ← adapter action.capability
    let answer ← outside (adapter.rollback action.id action.action token)
      (.rollback planId index action.id action.action token)
    check (.rollbackFailure action.capability) answer
    let _ ← actionMut planId index fun stored => { stored with status := .rolledBack }

/-- The loop of `rollbackPlan`, over snapshots with their indices. -/
def rollbackActions (planId : ActionPlanId) (snapshots : List (PlannedAction × ℕ)) :
    FabricM W Unit :=
  snapshots.forM fun e => rollbackAction planId e.2 e.1

/-- Undo the plan's side effects, the last action first. -/
def rollbackPlan (planId : ActionPlanId) : FabricM W ActionStepReport := do
  let snapshots := (← plan planId).actions
  rollbackActions planId snapshots.zipIdx.reverse
  finishPlan planId .rolledBack
  let plan ← plan planId
  return {
    planId, actionId := none, actionStatus := none, planStatus := plan.status
    cursor := plan.cursor, summary := "all known side effects rolled back" }

/-! ## Validation of a stored state -/

/-- The ids met so far, and the largest of them. -/
abbrev SeenIds := Std.ExtTreeSet UInt64 × UInt64

/-- The checks on one action of a plan. -/
def validatePlannedAction (registry : CapabilityRegistry) (plan : ActionPlanState)
    (seen : SeenIds) : PlannedAction × ℕ → Except ActionFabricError SeenIds
  | (action, index) => do
    refuse (action.id.val = 0 ∨ seen.1.contains action.id.val) .invalidState
    let seen := (seen.1.insert action.id.val, max seen.2 action.id.val)
    let descriptor ←
      (registry.validateAction action.capability action.action).mapError .capability
    refuse (descriptor.version ≠ action.capabilityVersion ∨
      descriptor.sideEffect ≠ action.sideEffect) .invalidState
    refuse (descriptor.verificationRequired ∧ ¬ action.verificationRequired) .invalidState
    refuse (action.resumeToken.isSome ∧ ¬ descriptor.resumable) .invalidState
    refuse (action.rollbackToken.isSome ∧ ¬ descriptor.rollbackSupported) .invalidState
    refuse (index < plan.cursor ∧ plan.status ≠ .rolledBack ∧ action.status ≠ .committed)
      .invalidState
    refuse (plan.cursor < index ∧ action.status ≠ .prepared) .invalidState
    return seen

/-- The status of a plan fits the action under its cursor. -/
def validateCurrent (status : ActionPlanStatus) (current : PlannedAction) :
    Except ActionFabricError Unit :=
  match status with
  | .suspended =>
    refuse (current.status ≠ .suspended ∨ current.resumeToken.isNone) .invalidState
  | .ready =>
    refuse (¬ (current.status = .prepared ∨ current.status = .retryable ∨
      current.status = .running)) .invalidState
  | .failed =>
    refuse (¬ (current.status = .failed ∨ current.status = .rolledBack)) .invalidState
  | .completed | .rolledBack => pure ()

/-- The checks on one plan and its actions. -/
def validatePlan (registry : CapabilityRegistry) (seen : SeenIds) :
    UInt64 × ActionPlanState → Except ActionFabricError SeenIds
  | (key, plan) => do
    refuse (key ≠ plan.id.val ∨ plan.id.val = 0 ∨ plan.taskId = 0 ∨
      plan.actions.length < plan.cursor) .invalidState
    let seen ← plan.actions.zipIdx.foldlM (validatePlannedAction registry plan) seen
    refuse (plan.status = .completed ∧ (plan.cursor ≠ plan.actions.length ∨
      ¬ plan.actions.all fun action => action.status = .committed)) .invalidState
    plan.actions[plan.cursor]?.forM (validateCurrent plan.status)
    return seen

def validateFabricState (registry : CapabilityRegistry) (state : ActionFabricState) :
    Except ActionFabricError Unit := do
  refuse (state.nextPlanId = 0 ∨ state.nextActionId = 0) .invalidState
  refuse (state.plans.keys.getLast?.any (state.nextPlanId ≤ ·)) .invalidState
  let (_, maxActionId) ← state.plans.toList.foldlM (validatePlan registry) (∅, 0)
  refuse (state.nextActionId ≤ maxActionId) .invalidState

def ActionFabric.fromState (W : Type) (registry : CapabilityRegistry) (state : ActionFabricState) :
    Except ActionFabricError (ActionFabric W) := do
  validateFabricState registry state
  return { registry, adapters := ∅, state }

end NTD97
