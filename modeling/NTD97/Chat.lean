import Mathlib
import NTD97.AndroidActions
import NTD97.ConversationCheckpoint
import NTD97.Spm

/-!
# Chat — a turn from its submission to its last event

    submitChat ▸ reserve ──▸ snapshot ─clone─▸ commit        nextChatEvent ▸ actions │ token │ end

The calls share one state behind a lock.  Each takes the lock several times and works on a copy of
the conversation in between, which a later critical section puts in place — or drops, where the call
leaves through an error first.  Here one call runs after the other.
-/

namespace NTD97

open Guard Effect Secrecy Text Wire

/-! ## Errors, and what is outside -/

/-- An error of a chat call: a text, or the words of the call and the error they introduce. -/
inductive ChatError where
  | text (message : String)
  | conversation (what : String) (error : ConversationStateError)
  | plan (what : String) (error : AssistantPlanError)
  | fabric (what : String) (error : ActionFabricError)
  | checkpoint (what : String) (error : ActionCheckpointError)
  | run (what : String) (error : AssistantActionRunError)
  | cognitive (what : String) (error : CognitiveError)
  | tokenizer (what : String) (error : TokenizerError)

structure NativeChatModel where
  assetId : String
  version : UInt32
  tokenizer : LlamaSpmTokenizer
  contextLimit : ℕ

inductive NativeActionPlanningOutcome where
  | direct
  | actions (plan : ParsedActionPlan)
  | invalid

/-- What the calls use of the loaded model and of the platform: the model's signals, prompts,
plans and tokens, the adapters with their verifier, and how errors are written. -/
structure ChatEngine (W : Type) where
  debug : CapabilityError → String
  render : ChatError → String
  preflight : NativeChatModel → List ConversationTurn → Bool → String → ℕ →
    Except ChatError CognitiveSignals
  compile : NativeChatModel → List ConversationTurn → List String → String → ℕ →
    Except ChatError (List UInt32 × ℕ)
  probe : NativeChatModel → List UInt32 →
    Except ChatError (CognitiveContext → W → Except String CognitiveObservation × W)
  plan : NativeChatModel → String → Except ChatError NativeActionPlanningOutcome
  encode : NativeChatModel → String → Except ChatError (List UInt32)
  generate : NativeChatModel → List UInt32 → Except ChatError (List UInt32)
  openAdapter : String → ParsedActionPlan → W → Except String (CapabilityAdapter W) × W
  verifier : ActionVerifier W

/-! ## What a conversation says of a task -/

namespace SovereignConversationState

/-- The value of a fact about a task. -/
def fact (self : SovereignConversationState) (taskId : UInt64) (name : String) : Option String :=
  (self.cognition.world[taskKey taskId name]?).map (·.value)

def actionPlanProtocolForTask (self : SovereignConversationState) (taskId : UInt64) :
    Option String := self.fact taskId "action_protocol"

def actionFabricCheckpointForTask (self : SovereignConversationState) (taskId : UInt64) :
    Option Bytes := do
  let active ← self.active
  if active.taskId = taskId then active.actionFabricCheckpoint else none

/-- The capability, the rationale and the status of the approval a task waits for. -/
def chatApprovalForTask (self : SovereignConversationState) (taskId : UInt64) :
    Option (String × String × String) := do
  let capability ← self.fact taskId "approval.capability"
  let rationale ← self.fact taskId "approval.rationale"
  let status ← self.fact taskId "approval.status"
  return (capability, rationale, status)

/-- The status of that approval. -/
def approvalStatus (self : SovereignConversationState) (taskId : UInt64) : Option String :=
  (self.chatApprovalForTask taskId).map fun (_, _, status) => status

def allTokensForActive (self : SovereignConversationState) :
    Except ConversationStateError (List UInt32) := do
  let active ← okOr self.active .missingActiveTurn
  return active.promptTokens ++ active.generatedTokens

/-- The last task was interrupted. -/
def priorConversationFailure (self : SovereignConversationState) : Bool :=
  (self.cognition.tasks.toList.getLast?.map Prod.snd).any fun task =>
    task.status = .paused ∨ task.status = .failed

end SovereignConversationState

/-! ## Reasoning -/

def memoryRecallLimitForBudget : ReasoningBudget → ℕ
  | .reflex => 1
  | .standard => 2
  | .deep => 4
  | .recovery => 6

/-- The planner of a reasoning cycle only ever asks for work. -/
def budgetedReasoningPlanner {W : Type} : CognitivePlanner W where
  plan context w := (.ok (.work ("native reasoning probe iteration " ++ toString context.iteration ++
    " budget " ++ (match context.budget with
      | .reflex => "Reflex"
      | .standard => "Standard"
      | .deep => "Deep"
      | .recovery => "Recovery"))), w)

def nativeReasoningExecutor {W : Type}
    (probe : CognitiveContext → W → Except String CognitiveObservation × W) :
    CognitiveExecutor W where
  execute directive context w :=
    match directive with
    | .work _ => probe context w
    | _ => (.error "budgeted native reasoning executor only accepts Work directives", w)

def nativeReasoningVerifier {W : Type} : CognitiveVerifier W where
  verify directive observation _ w :=
    match directive with
    | .work _ =>
      (if isBlank observation.summary ∨ observation.evidence = [] then
        .reject "native reasoning probe returned unverified evidence"
      else .accept, w)
    | _ => (.reject "unexpected directive in native reasoning loop", w)

/-! ## Work on a copy of the conversation -/

/-- A copy of the conversation, and the session the adapters work in. -/
structure Draft (W : Type) where
  conversation : SovereignConversationState
  session : Session W

variable {W : Type}

/-- What a call computes between two critical sections. -/
abbrev DraftM (W : Type) := Eff (Draft W) ChatError

def inConversation {α : Type} (what : String) (x : ConversationM α) : DraftM W α :=
  zoom Draft.conversation (fun d conversation => { d with conversation }) (.conversation what) x

def inSession {ε α : Type} (embed : ε → ChatError) (x : Eff (Session W) ε α) : DraftM W α :=
  zoom Draft.session (fun d session => { d with session }) embed x

/-! ## The plan of a task -/

structure ActionContext where
  model : NativeChatModel
  taskId : UInt64
  userMessage : String
  promptLimit : ℕ
  externalApproved : Bool
  prepareOnly : Bool

inductive AndroidActionExecutionOutcome where
  | prepared
  | checkpointed (note : String) (requiresReconfirm : Bool)
  | completed

/-- The action under the cursor is an external write that may have happened, and must be confirmed
again before it is tried again. -/
def actionCheckpointRequiresReconfirm (fabric : ActionFabric W) (planId : ActionPlanId) : Bool :=
  (fabric.state.plans[planId.val]?.bind fun plan => plan.actions[plan.cursor]?).any fun action =>
    action.sideEffect = .externalWrite ∧ action.status = .retryable ∧ action.resumeToken.isNone

/-- The fabric a task left behind, or a new one. -/
def storedFabric (registry : CapabilityRegistry) (stored : Option Bytes) :
    Except ChatError (ActionFabric W) :=
  match stored with
  | none => return { registry, adapters := ∅, state := {} }
  | some bytes => do
    let state ← (decodeActionFabricCheckpoint registry bytes).mapError
      (.checkpoint "decode persisted TAF97 action state")
    (ActionFabric.fromState W registry state).mapError
      (.fabric "restore persisted ActionFabric state")

/-- The capabilities in the order in which their adapters are opened. -/
def adapterOrder : List String :=
  ["device.observe", "web.search", "web.fetch", "browser.observe", "browser.interact",
    "file.grant.read", "file.grant.write", "file.read", "file.write", "artifact.download",
    "artifact.upload", "device.interact", "app.action", "pc.observe", "pc.execute",
    "pc.artifact.read", "pc.artifact.write"]

/-- Open the adapter of one capability, and register it. -/
def registerAndroidAdapter (engine : ChatEngine W) (actionPlan : ParsedActionPlan)
    (capability : String) : DraftM W Unit := do
  let (answer, world) := engine.openAdapter capability actionPlan (← get).session.world
  modify fun d => { d with session.world := world }
  let adapter ← check .text answer
  inSession (.fabric "register Android adapter") (registerAdapter ⟨capability⟩ adapter)

/-- The plan to work on: the one stored with the task, or a new one. -/
def preparedPlan (taskId : UInt64) (stored : Option Bytes) (task : CognitiveTask)
    (actionPlan : ParsedActionPlan) : DraftM W ActionPlanId :=
  match stored with
  | none => inSession (.fabric "prepare Android ActionFabric plan")
      (preparePlan task.id task.graph actionPlan.payloads)
  | some _ => do
    let plans := (← get).session.plans
    refuse (plans.size ≠ 1) (.text "persisted ActionFabric must contain exactly one chat plan")
    let plan ← okOr plans.toList.head? (.text "persisted ActionFabric plan is missing")
    refuse (plan.2.taskId ≠ taskId) (.text "persisted ActionFabric task identity mismatch")
    return plan.2.id

def persistFabric (taskId : UInt64) : DraftM W Unit := do
  let fabric := (← get).session.fabric
  let checkpoint ← check (.checkpoint "encode TAF97 action state")
    (encodeActionFabricCheckpoint fabric.registry fabric.state)
  inConversation "persist TAF97 in NCS97"
    (SovereignConversationState.installActionFabricCheckpoint taskId checkpoint)

/-- The summary of a step that is tried again. -/
def AssistantActionRunError.note : AssistantActionRunError → String
  | .incomplete _ _ summary => summary
  | _ => ""

/-- What follows a completed plan: its evidence becomes the prompt. -/
def installSynthesis (engine : ChatEngine W) (context : ActionContext)
    (run : VerifiedAssistantActionRun) : DraftM W Unit := do
  inConversation "clear completed TAF97 action state"
    (SovereignConversationState.clearActionFabricCheckpoint context.taskId)
  let tokens ← check id (engine.encode context.model run.synthesisPrompt)
  refuse (tokens = [] ∨ context.promptLimit < tokens.length)
    (.text "verified synthesis prompt exceeds native context budget")
  inConversation "install verified synthesis prompt"
    (SovereignConversationState.replaceActivePromptTokens context.taskId tokens)
  inConversation "record verified synthesis provenance"
    (SovereignConversationState.recordVerifiedSynthesisReady context.taskId)
  inConversation "record verified action count"
    (SovereignConversationState.recordVerifiedActionCount context.taskId run.evidence.length)
  inConversation "record action planner status"
    (SovereignConversationState.recordActionPlannerStatus context.taskId "actions")

/-- The fabric of a plan: that of an earlier call, or a new one with the plan prepared.  It is stored
with the conversation before anything is executed. -/
def openFabric (engine : ChatEngine W) (actionPlan : ParsedActionPlan) (context : ActionContext) :
    DraftM W (CognitiveTask × AuthorityGrant × ActionPlanId) := do
  let unsupported := actionPlan.graph.actions.any fun node =>
    (androidCapability node.capability.val).isNone
  (if unsupported then inConversation "record unsupported action plan"
      (SovereignConversationState.recordActionPlannerStatus context.taskId "unsupported")
    else pure ())
  refuse unsupported (.text "model requested a capability without a production Android adapter")
  let registry ← check .text (androidRegistry engine.debug actionPlan)
  let stored := (← get).conversation.actionFabricCheckpointForTask context.taskId
  let fabric ← check id (storedFabric registry stored)
  modify fun d => { d with session.fabric := fabric }
  (adapterOrder.filter (· ∈ planCapabilities actionPlan)).forM
    (registerAndroidAdapter engine actionPlan)
  let authority ← check .text (androidAuthority engine.debug actionPlan context.externalApproved)
  let task ← okOr (← get).conversation.cognition.tasks[context.taskId]?
    (.text "model-grounded cognitive task disappeared")
  let planId ← preparedPlan context.taskId stored task actionPlan
  persistFabric context.taskId
  return (task, authority, planId)

/-- What is kept of a run of the plan. -/
def settleRun (engine : ChatEngine W) (context : ActionContext) (planId : ActionPlanId) :
    Except AssistantActionRunError VerifiedAssistantActionRun →
      DraftM W AndroidActionExecutionOutcome
  | .error e => do
    refuse (!checkpointed e) (.run "execute verified Android action plan" e)
    let requiresReconfirm := actionCheckpointRequiresReconfirm (← get).session.fabric planId
    persistFabric context.taskId
    return .checkpointed e.note requiresReconfirm
  | .ok run => do
    installSynthesis engine context run
    return .completed

def executeAndroidVerifiedActions (engine : ChatEngine W) (actionPlan : ParsedActionPlan)
    (context : ActionContext) : DraftM W AndroidActionExecutionOutcome := do
  let (task, authority, planId) ← openFabric engine actionPlan context
  if context.prepareOnly then return .prepared
  let answer ← inSession id (attempt (continueVerifiedAssistantPlan planId task actionPlan authority
    engine.verifier context.userMessage))
  settleRun engine context planId answer

/-! ## The state behind the lock -/

inductive NativeChatSessionStatus where
  | running
  | waitingApproval
  | complete
  | cancelled
  | failed
  deriving DecidableEq

def chatSessionActive : NativeChatSessionStatus → Bool
  | .running | .waitingApproval => true
  | _ => false

structure NativeChatSession where
  requestId : UInt64
  taskId : UInt64
  cancel : Bool
  status : NativeChatSessionStatus
  deriving DecidableEq

structure NativeState where
  conversation : SovereignConversationState
  chatModel : Option NativeChatModel
  chatSession : Option NativeChatSession
  chatSubmitInProgress : Bool
  nextChatRequestId : UInt64

/-- One critical section. -/
abbrev NativeM := Eff NativeState ChatError

/-- The state behind the lock, and the world outside. -/
structure Bridge (W : Type) where
  native : NativeState
  world : W

abbrev BridgeM (W : Type) := Eff (Bridge W) ChatError

/-- Take the lock for one critical section. -/
def locked {α : Type} (x : NativeM α) : BridgeM W α :=
  zoom Bridge.native (fun b native => { b with native }) id x

/-- Work on a copy of a conversation, without the lock. -/
def onClone {α : Type} (conversation : SovereignConversationState) (x : DraftM W α) :
    BridgeM W (α × SovereignConversationState) := do
  let b ← get
  let (answer, draft) := exec x { conversation, session := .new .new b.world }
  modify ({ · with world := draft.session.world })
  let a ← check id answer
  return (a, draft.conversation)

/-- The session of a request. -/
def NativeState.request (self : NativeState) (requestId : UInt64) : Option NativeChatSession :=
  self.chatSession.filter (·.requestId = requestId)

/-- Change the session of a request, if it is still there. -/
def NativeState.setStatus (self : NativeState) (requestId : UInt64)
    (status : NativeChatSessionStatus) : NativeState :=
  { self with chatSession := self.chatSession.map fun session =>
      if session.requestId = requestId then { session with status } else session }

/-! ## Submitting a message -/

section Submit

def NativeChatSessionStatus.debug : NativeChatSessionStatus → String
  | .running => "Running"
  | .waitingApproval => "WaitingApproval"
  | .complete => "Complete"
  | .cancelled => "Cancelled"
  | .failed => "Failed"

/-- Why a message is refused while another request is under way. -/
def NativeState.busy (self : NativeState) : String :=
  "another native chat request is still running: submit_in_progress=" ++
    toString self.chatSubmitInProgress ++ " session=" ++
    ((self.chatSession.map fun session => "request=" ++ toString session.requestId ++ " task=" ++
      toString session.taskId ++ " status=" ++ session.status.debug).getD "none") ++
    " active_task=" ++
    ((self.conversation.active.map fun active => toString active.taskId).getD "none")

def inNativeConversation {α : Type} (what : String) (x : ConversationM α) : NativeM α :=
  zoom NativeState.conversation (fun s conversation => { s with conversation }) (.conversation what)
    x

/-- A turn left over by an interrupted call is cancelled. -/
def recoverOrphanedChatTurn : NativeM Unit := do
  match (← get).conversation.active with
  | none => return ()
  | some active => do
    inNativeConversation "cancel orphaned sovereign conversation turn"
      (SovereignConversationState.cancelTurn active.taskId
        "recovered orphaned native chat turn before new request")
    modify ({ · with chatSession := none })

/-- The first critical section of `submitChat`. -/
def reserveTurn : NativeM (NativeChatModel × List ConversationTurn × Bool) := do
  let s ← get
  refuse (s.chatSubmitInProgress ∨ s.chatSession.any (chatSessionActive ·.status)) (.text s.busy)
  let model ← okOr s.chatModel (.text "no verified native chat model is loaded")
  recoverOrphanedChatTurn
  modify ({ · with chatSubmitInProgress := true })
  let s ← get
  return (model, s.conversation.turns, s.conversation.priorConversationFailure)

/-- The loaded model must still be the one the turn was prepared for. -/
def sameModel (model : NativeChatModel) (unloaded changed : String) : NativeM Unit := do
  let loaded ← okOr (← get).chatModel (.text unloaded)
  refuse (loaded.assetId ≠ model.assetId ∨ loaded.version ≠ model.version) (.text changed)

/-- The second critical section: the conversation the turn is prepared on. -/
def snapshotTurn (model : NativeChatModel) : NativeM SovereignConversationState := do
  refuse ((← get).chatSession.any (chatSessionActive ·.status))
    (.text "another native chat request started during preflight")
  sameModel model "native chat model was unloaded during preflight"
    "native chat model changed during reasoning preflight"
  return (← get).conversation

/-- The third critical section: the prepared turn becomes the conversation, under a new request. -/
def commitTurn (model : NativeChatModel) (snapshot conversation : SovereignConversationState)
    (taskId : UInt64) (status : NativeChatSessionStatus) : NativeM UInt64 := do
  sameModel model "native chat model was unloaded before reasoning commit"
    "native chat model changed before reasoning commit"
  let s ← get
  refuse (s.conversation ≠ snapshot ∨ s.chatSession.any (chatSessionActive ·.status))
    (.text "sovereign conversation changed during native reasoning")
  let requestId := s.nextChatRequestId
  let nextChatRequestId ← okOr (checkedAdd64 requestId 1) (.text "chat request id overflow")
  modify ({ · with
    nextChatRequestId, conversation
    chatSession := some { requestId, taskId, cancel := false, status } })
  return requestId

def reasoningCycle [SovereignMemory.CharTables] (engine : ChatEngine W) (model : NativeChatModel)
    (tokens : List UInt32) (taskId : UInt64) (signals : CognitiveSignals) :
    DraftM W CognitiveCycleReport := do
  let probe ← check id (engine.probe model tokens)
  zoom (fun d : Draft W => CognitiveSession.mk d.conversation.cognition d.session.world)
    (fun d s => { d with conversation.cognition := s.state, session.world := s.world })
    (.cognitive "run budgeted native reasoning cycle")
    (CognitiveSession.advance taskId signals budgetedReasoningPlanner (nativeReasoningExecutor probe)
      nativeReasoningVerifier)

/-- What becomes of the planner's outcome. -/
def settleOutcome (engine : ChatEngine W) (context : ActionContext) :
    NativeActionPlanningOutcome → DraftM W NativeChatSessionStatus
  | .direct => do
    inConversation "record direct planner status"
      (SovereignConversationState.recordActionPlannerStatus context.taskId "direct")
    inConversation "record direct verified action count"
      (SovereignConversationState.recordVerifiedActionCount context.taskId 0)
    return .running
  | .invalid => do
    inConversation "record invalid planner status"
      (SovereignConversationState.recordActionPlannerStatus context.taskId "invalid")
    inConversation "record invalid verified action count"
      (SovereignConversationState.recordVerifiedActionCount context.taskId 0)
    return .running
  | .actions actionPlan => do
    inConversation "install model-grounded action plan"
      (SovereignConversationState.installActionPlan context.taskId actionPlan.toAssistantActionPlan)
    match ← check .text (externalWriteApproval actionPlan) with
    | some (capability, rationale) => do
      inConversation "record pending chat approval"
        (SovereignConversationState.recordChatApproval context.taskId capability rationale "pending")
      inConversation "record action planner status"
        (SovereignConversationState.recordActionPlannerStatus context.taskId "actions")
      inConversation "record pending verified action count"
        (SovereignConversationState.recordVerifiedActionCount context.taskId 0)
      return .waitingApproval
    | none => do
      let _ ← executeAndroidVerifiedActions engine actionPlan context
      return .running

/-- What is known of a new turn before it is begun. -/
structure TurnRequest where
  model : NativeChatModel
  userMessage : String
  maxNewTokens : ℕ
  promptLimit : ℕ
  signals : CognitiveSignals

def beginChatTurn [SovereignMemory.CharTables] (engine : ChatEngine W) (request : TurnRequest) :
    DraftM W (UInt64 × List UInt32) := do
  let budget := chooseReasoningBudget request.signals
  let recalled ← inConversation "recall sovereign conversation memory"
    (SovereignConversationState.recallConversationContext request.userMessage
      (memoryRecallLimitForBudget budget))
  let (tokens, retainedMemoryItems) ← check id (engine.compile request.model
    (← get).conversation.turns recalled request.userMessage request.promptLimit)
  let taskId ← inConversation "begin sovereign conversation turn"
    (SovereignConversationState.beginTurn request.model.assetId request.model.version
      request.userMessage tokens request.maxNewTokens)
  inConversation "record sovereign reasoning profile"
    (SovereignConversationState.recordReasoningProfile taskId budget request.signals
      retainedMemoryItems)
  return (taskId, tokens)

/-- `{:?}` of a budget, and of the status of a task. -/
def debugBudget : ReasoningBudget → String
  | .reflex => "Reflex"
  | .standard => "Standard"
  | .deep => "Deep"
  | .recovery => "Recovery"

def debugTaskStatus : TaskStatus → String
  | .planned => "Planned"
  | .running => "Running"
  | .completed => "Completed"
  | .failed => "Failed"
  | .paused => "Paused"

/-- What `submitChat` computes between its second and its third critical section. -/
def prepareTurn [SovereignMemory.CharTables] (engine : ChatEngine W) (request : TurnRequest) :
    DraftM W (UInt64 × NativeChatSessionStatus) := do
  let (taskId, tokens) ← beginChatTurn engine request
  let report ← reasoningCycle engine request.model tokens taskId request.signals
  refuse (report.budget ≠ chooseReasoningBudget request.signals ∨ report.status ≠ .running)
    (.text ("native reasoning cycle did not remain runnable: budget=" ++ debugBudget report.budget ++
      " status=" ++ debugTaskStatus report.status))
  inConversation "record reasoning cycle evidence"
    (SovereignConversationState.recordReasoningCycleReport taskId report)
  let outcome ← check id (engine.plan request.model request.userMessage)
  let status ← settleOutcome engine {
    model := request.model, taskId, userMessage := request.userMessage
    promptLimit := request.promptLimit, externalApproved := false, prepareOnly := false } outcome
  return (taskId, status)

def submitChatReserved [SovereignMemory.CharTables] (engine : ChatEngine W)
    (model : NativeChatModel) (history : List ConversationTurn) (priorFailure : Bool)
    (userMessage : String) (maxNewTokens : ℕ) : BridgeM W UInt64 := do
  let promptLimit := max (model.contextLimit - maxNewTokens) 1
  let signals ← check id (engine.preflight model history priorFailure userMessage promptLimit)
  let snapshot ← locked (snapshotTurn model)
  let ((taskId, status), conversation) ← onClone snapshot
    (prepareTurn engine { model, userMessage, maxNewTokens, promptLimit, signals })
  locked (commitTurn model snapshot conversation taskId status)

def submitChat [SovereignMemory.CharTables] (engine : ChatEngine W) (userMessage : String)
    (maxNewTokens : ℕ) : BridgeM W UInt64 := do
  refuse (maxNewTokens = 0) (.text "max_new_tokens must be greater than zero")
  let (model, history, priorFailure) ← locked reserveTurn
  let answer ← attempt
    (submitChatReserved engine model history priorFailure userMessage maxNewTokens)
  modify fun b => { b with native.chatSubmitInProgress := false }
  check id answer

end Submit

/-! ## The next event of a request -/

inductive ChatEvent where
  | approvalRequired (text : String)
  | complete
  | cancelled
  | error (text : String)
  | token (token : UInt32) (piece : String)
  | actionCheckpointed (note : String)
  deriving DecidableEq

section Next

/-- The event of a request that is not running. -/
def terminalChatEvent (requestId : UInt64) (s : NativeState) : Option ChatEvent := do
  let session ← s.request requestId
  match session.status with
  | .running => none
  | .waitingApproval =>
    match s.conversation.chatApprovalForTask session.taskId with
    | some (capability, rationale, _) =>
      some (.approvalRequired (capability ++ "\n" ++ rationale))
    | none => some (.error "pending approval state is missing")
  | .complete => some .complete
  | .cancelled => some .cancelled
  | .failed => some (.error "native chat generation failed")

/-- The first critical section of a continuation: there is one if the conversation holds the state
of a plan. -/
def pendingActions (requestId : UInt64) :
    NativeM (Option (UInt64 × NativeChatModel × SovereignConversationState)) := do
  let s ← get
  let session ← okOr ((s.request requestId).filter (·.status = .running))
    (.text "chat request is not running")
  if (s.conversation.actionFabricCheckpointForTask session.taskId).isNone then return none
  else do
    let model ← okOr s.chatModel (.text "native chat model is not loaded")
    return some (session.taskId, model, s.conversation)

/-- The plan of a stored text. -/
def storedPlan (protocol : String) : Except ChatError ParsedActionPlan := do
  match ← (parseNativeActionPlan protocol).mapError (.plan "reconstruct persisted action plan") with
  | .actions plan => return plan
  | .direct => throw (.text "persisted action protocol unexpectedly resolved to DIRECT")

/-- What a continuation computes: it executes the plan, and notes what that means for its
approval. -/
def continueActions (engine : ChatEngine W) (model : NativeChatModel) (taskId : UInt64) :
    DraftM W String := do
  let conversation := (← get).conversation
  let active ← okOr conversation.active (.text "persisted action state has no active turn")
  refuse (active.taskId ≠ taskId) (.text "persisted action state task identity mismatch")
  let protocol ← okOr (conversation.actionPlanProtocolForTask taskId)
    (.text "persisted action state has no canonical action protocol")
  let actionPlan ← check id (storedPlan protocol)
  let approval ← check .text (externalWriteApproval actionPlan)
  let externalApproved := conversation.approvalStatus taskId = some "approved-executing"
  refuse (approval.isSome ∧ ¬ externalApproved)
    (.text "persisted external-write plan requires reconfirmation before resume")
  let outcome ← executeAndroidVerifiedActions engine actionPlan {
    model, taskId, userMessage := active.userMessage
    promptLimit := max (model.contextLimit - active.maxNewTokens) 1
    externalApproved, prepareOnly := false }
  match outcome with
  | .prepared => throw (.text "running action execution returned to prepare-only boundary")
  | .checkpointed note requiresReconfirm => do
    (if requiresReconfirm then inConversation "require reconfirmation before external retry"
        (SovereignConversationState.setChatApprovalStatus taskId "reconfirm")
      else pure ())
    return note
  | .completed => do
    (if approval.isSome then inConversation "commit approved action status"
        (SovereignConversationState.setChatApprovalStatus taskId "approved")
      else pure ())
    return "verified action execution committed"

/-- The second critical section: the continued conversation takes the place of the one it was
continued from. -/
def commitActions (requestId taskId : UInt64)
    (conversation advanced : SovereignConversationState) : NativeM Unit := do
  let s ← get
  refuse (s.conversation ≠ conversation)
    (.text "sovereign conversation changed during action continuation")
  refuse (!(s.request requestId).any fun session =>
    session.taskId = taskId ∧ session.status = .running)
    (.text "chat request changed during action continuation")
  modify ({ · with conversation := advanced })
  modify fun s => if s.conversation.approvalStatus taskId = some "reconfirm" then
    s.setStatus requestId .waitingApproval else s

def advancePendingChatActions (engine : ChatEngine W) (requestId : UInt64) :
    BridgeM W (Option ChatEvent) := do
  match ← locked (pendingActions requestId) with
  | none => return none
  | some (taskId, model, conversation) => do
    let (note, advanced) ← onClone conversation (continueActions engine model taskId)
    locked (commitActions requestId taskId conversation advanced)
    return some (.actionCheckpointed note)

/-- What the next token depends on. -/
structure NextToken where
  model : NativeChatModel
  taskId : UInt64
  allTokens : List UInt32
  generatedLen : ℕ
  maxNewTokens : ℕ
  cancelled : Bool

def nextTurn (requestId : UInt64) : NativeM NextToken := do
  let s ← get
  let session ← okOr (s.request requestId) (.text "unknown chat request")
  let active ← okOr (s.conversation.active.filter (·.taskId = session.taskId))
    (.text "active sovereign conversation turn is missing")
  let model ← okOr s.chatModel (.text "native chat model was unloaded")
  refuse (active.modelAssetId ≠ model.assetId ∨ active.modelVersion ≠ model.version)
    (.text "active NCS97 model identity does not match loaded native model")
  let allTokens ← check (.conversation "restore active token prefix")
    s.conversation.allTokensForActive
  return {
    model, taskId := session.taskId, allTokens, generatedLen := active.generatedTokens.length
    maxNewTokens := active.maxNewTokens, cancelled := session.cancel }

/-- The answer is finished. -/
def finishTurn (requestId taskId : UInt64) : NativeM Unit := do
  inNativeConversation "commit sovereign conversation turn"
    (SovereignConversationState.completeTurn taskId)
  modify (·.setStatus requestId .complete)

/-- `cancel_chat`, and whether there was anything to cancel. -/
def cancelChat (requestId : UInt64) : NativeM Bool := do
  let s ← get
  match (s.request requestId).filter (chatSessionActive ·.status) with
  | none => return false
  | some session => do
    modify ({ · with chatSession := some { session with cancel := true } })
    if (s.conversation.active.filter (·.taskId = session.taskId)).isNone then
      modify (·.setStatus requestId .cancelled)
      return true
    else
      match ← attempt (inNativeConversation "cancel chat turn"
        (SovereignConversationState.cancelTurn session.taskId "user cancelled native generation")) with
      | .error _ => do
        modify (·.setStatus requestId .failed)
        return false
      | .ok () => do
        modify (·.setStatus requestId .cancelled)
        return true

/-- The last critical section of a token: it is appended unless the request was cancelled. -/
def appendToken (requestId taskId : UInt64) (eosToken : Option UInt32) (token : UInt32)
    (piece : String) : NativeM ChatEvent := do
  let s ← get
  if (s.request requestId).any fun session => session.status = .running ∧ !session.cancel then do
    inNativeConversation "checkpoint generated token"
      (SovereignConversationState.appendGenerated taskId token piece)
    let active ← okOr (← get).conversation.active
      (.text "active sovereign conversation turn disappeared")
    (if eosToken = some token ∨ active.maxNewTokens ≤ active.generatedTokens.length then
        finishTurn requestId taskId
      else pure ())
    return .token token piece
  else return .cancelled

def nextToken (engine : ChatEngine W) (requestId : UInt64) : BridgeM W ChatEvent := do
  let turn ← locked (nextTurn requestId)
  if turn.maxNewTokens ≤ turn.generatedLen then do
    locked (finishTurn requestId turn.taskId)
    return .complete
  else if turn.cancelled then do
    let _ ← locked (cancelChat requestId)
    return .cancelled
  else do
    let generated ← check id (engine.generate turn.model turn.allTokens)
    let token ← okOr generated.head? (.text "native chat generation returned no token")
    let piece ← check (.tokenizer "decode chat token")
      (turn.model.tokenizer.decodeAfter turn.allTokens.getLast? [token] true)
    locked (appendToken requestId turn.taskId turn.model.tokenizer.eosToken token piece)

def nextChatEvent (engine : ChatEngine W) (requestId : UInt64) : BridgeM W ChatEvent := do
  match terminalChatEvent requestId (← get).native with
  | some event => return event
  | none => do
    match ← advancePendingChatActions engine requestId with
    | some event => return event
    | none => nextToken engine requestId

/-- The entry point of the host: an error marks the request failed. -/
def nativeNextChatEvent (engine : ChatEngine W) (requestId : UInt64) : BridgeM W ChatEvent := do
  match ← attempt (nextChatEvent engine requestId) with
  | .ok event => return event
  | .error e => do
    modify fun b => { b with native := b.native.setStatus requestId .failed }
    return .error (engine.render e)

end Next

/-! ## The answer to an approval -/

section Approval

/-- The first critical section of an answer. -/
def waitingTurn (requestId : UInt64) :
    NativeM (UInt64 × NativeChatModel × SovereignConversationState) := do
  let s ← get
  let session ← okOr ((s.request requestId).filter (·.status = .waitingApproval))
    (.text "chat request is not waiting for approval")
  let model ← okOr s.chatModel (.text "native chat model is not loaded")
  return (session.taskId, model, s.conversation)

/-- There is something to approve. -/
def pendingApproval (taskId : UInt64) : DraftM W Unit := do
  let status ← okOr ((← get).conversation.approvalStatus taskId)
    (.text "pending chat approval state is missing")
  refuse (status ∉ ["pending", "reconfirm", "approved-executing"])
    (.text "chat approval is no longer pending")

def denyTurn (taskId : UInt64) : DraftM W Unit := do
  pendingApproval taskId
  inConversation "record denied chat approval"
    (SovereignConversationState.setChatApprovalStatus taskId "denied")
  inConversation "cancel denied chat task"
    (SovereignConversationState.cancelTurn taskId "user denied external-write approval")

/-- The plan is stored before any of it is executed. -/
def approveTurn (engine : ChatEngine W) (model : NativeChatModel) (taskId : UInt64) :
    DraftM W Unit := do
  pendingApproval taskId
  inConversation "record executing chat approval"
    (SovereignConversationState.setChatApprovalStatus taskId "approved-executing")
  let conversation := (← get).conversation
  let active ← okOr conversation.active (.text "approved chat task has no active turn")
  refuse (active.taskId ≠ taskId) (.text "approved chat task identity mismatch")
  let protocol ← okOr (conversation.actionPlanProtocolForTask taskId)
    (.text "approved chat task has no canonical action protocol")
  let decision ← check (.plan "reconstruct approved action plan") (parseNativeActionPlan protocol)
  match decision with
  | .direct => throw (.text "approved chat protocol did not contain actions")
  | .actions actionPlan => do
    let approval ← check .text (externalWriteApproval actionPlan)
    refuse approval.isNone (.text "approved chat plan no longer contains external writes")
    let outcome ← executeAndroidVerifiedActions engine actionPlan {
      model, taskId, userMessage := active.userMessage
      promptLimit := max (model.contextLimit - active.maxNewTokens) 1
      externalApproved := true, prepareOnly := true }
    match outcome with
    | .prepared => return ()
    | _ => throw (.text "approved external write did not stop at durable prepare boundary")

/-- The last critical section of a denial. -/
def commitDenial (requestId : UInt64) (conversation : SovereignConversationState) :
    NativeM Unit := do
  refuse ((← get).request requestId).isNone (.text "chat request changed during denial")
  modify fun s => ({ s with conversation }).setStatus requestId .cancelled

/-- The last critical section of an approval. -/
def commitApproval (requestId taskId : UInt64) (conversation : SovereignConversationState) :
    NativeM Unit := do
  let session ← okOr (((← get).request requestId).filter (·.status = .waitingApproval))
    (.text "chat request changed before durable action preparation")
  refuse (session.taskId ≠ taskId) (.text "chat task changed before durable action preparation")
  modify fun s => ({ s with conversation }).setStatus requestId .running

def resolveChatApproval (engine : ChatEngine W) (requestId : UInt64) (approved : Bool) :
    BridgeM W Bool := do
  let (taskId, model, conversation) ← locked (waitingTurn requestId)
  (if approved then do
    let ((), advanced) ← onClone conversation (approveTurn engine model taskId)
    locked (commitApproval requestId taskId advanced)
  else do
    let ((), advanced) ← onClone conversation (denyTurn taskId)
    locked (commitDenial requestId advanced))
  return true

end Approval

/-! ## Models and checkpoints -/

/-- The state in which the library is loaded. -/
def NativeState.initial : NativeState where
  conversation := .new ⟨utf8 "NTD97-ASSISTANT1", by decide +kernel⟩
  chatModel := none
  chatSession := none
  chatSubmitInProgress := false
  nextChatRequestId := 1

/-- `open_chat_model`, once the package was verified and activated. -/
def openChatModel (model : NativeChatModel) : NativeM Unit := do
  refuse (isBlank model.assetId ∨ model.version = 0 ∨ model.contextLimit = 0)
    (.text "invalid native chat model identity or context limit")
  modify ({ · with chatModel := some model })

/-- `restore_chat_checkpoint`: the request of the restored turn, or `0`. -/
def restoreChatCheckpoint (bytes : Bytes) : NativeM UInt64 := do
  let conversation ← check (.conversation "decode NCS97") (decodeConversationCheckpoint bytes)
  modify fun s => { s with
    conversation
    chatSession := s.chatSession.map ({ · with cancel := true }) }
  match conversation.active with
  | none => do
    modify ({ · with chatSession := none })
    return 0
  | some active => do
    let requestId := (← get).nextChatRequestId
    let nextChatRequestId ← okOr (checkedAdd64 requestId 1) (.text "chat request id overflow")
    modify ({ · with nextChatRequestId })
    let approvalStatus := conversation.approvalStatus active.taskId
    (if approvalStatus = some "approved-executing" then
        inNativeConversation "mark interrupted external write for reconfirmation"
          (SovereignConversationState.setChatApprovalStatus active.taskId "reconfirm")
      else pure ())
    let waitingApproval : Prop :=
      approvalStatus ∈ [some "pending", some "reconfirm", some "approved-executing"]
    modify ({ · with chatSession := some {
      requestId, taskId := active.taskId, cancel := false
      status := if waitingApproval then .waitingApproval else .running } })
    return requestId

/-! ## Runs -/

/-- A call of the host on the chat. -/
inductive ChatCall where
  | openModel (model : NativeChatModel)
  | submit (userMessage : String) (maxNewTokens : ℕ)
  | next (requestId : UInt64)
  | cancel (requestId : UInt64)
  | resolve (requestId : UInt64) (approved : Bool)
  | restore (bytes : Bytes)

/-- What a call does, its answer dropped. -/
def ChatCall.perform [SovereignMemory.CharTables] (engine : ChatEngine W) : ChatCall → BridgeM W Unit
  | .openModel model => locked (openChatModel model)
  | .submit userMessage maxNewTokens => do
    let _ ← submitChat engine userMessage maxNewTokens
  | .next requestId => do
    let _ ← nativeNextChatEvent engine requestId
  | .cancel requestId => do
    let _ ← locked (cancelChat requestId)
  | .resolve requestId approved => do
    let _ ← resolveChatApproval engine requestId approved
  | .restore bytes => do
    let _ ← locked (restoreChatCheckpoint bytes)

def Bridge.start (world : W) : Bridge W where
  native := .initial
  world

/-- One call after the other, each with a model and a platform that answer as they like. -/
def Bridge.step [SovereignMemory.CharTables] (b : Bridge W) (call : ChatEngine W × ChatCall) :
    Bridge W :=
  (exec (call.2.perform call.1) b).2

end NTD97
