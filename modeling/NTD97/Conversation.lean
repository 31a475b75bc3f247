import Mathlib
import NTD97.ActionCheckpoint
import NTD97.CognitiveCheckpoint

/-!
# Conversation — turns, and the one being answered

    beginTurn ▸ active ──append…──▸ active ──completeTurn──▸ two turns of history
                  └──────────cancelTurn──────────▸ nothing

A conversation is a mind, a history of finished turns and at most one turn being answered.  The
answer grows token by token; completing the turn reports the task to the mind and appends the
question and the answer to the history.  Calls that may fail half way work on a copy.
-/

namespace NTD97

open Guard Effect Text Wire

/-- Who speaks. -/
inductive ConversationRole where
  | user
  | assistant
  deriving DecidableEq

/-- What was said. -/
structure ConversationTurn where
  role : ConversationRole
  content : String
  deriving DecidableEq

/-- A question. -/
def ConversationTurn.user (content : String) : ConversationTurn where
  role := .user
  content := content

/-- An answer. -/
def ConversationTurn.assistant (content : String) : ConversationTurn where
  role := .assistant
  content := content

/-- The limits on what is stored. -/
def maxTurns : ℕ := 4096
def maxTextBytes : ℕ := 1024 * 1024
def maxTokens : ℕ := 1000000
def maxActionFabricCheckpointBytes : ℕ := 4 * 1024 * 1024

/-- The turn being answered, with the answer so far. -/
structure ActiveConversationTurn where
  taskId : UInt64
  modelAssetId : String
  modelVersion : UInt32
  userMessage : String
  promptTokens : List UInt32
  generatedTokens : List UInt32
  generatedText : String
  maxNewTokens : ℕ
  actionFabricCheckpoint : Option Bytes
  deriving DecidableEq

/-- A conversation. -/
structure SovereignConversationState where
  cognition : CognitiveState
  turns : List ConversationTurn
  active : Option ActiveConversationTurn
  deriving DecidableEq

/-- Why a call is refused, or a file not restored. -/
inductive ConversationStateError where
  | emptyUserMessage
  | emptyAssistantResponse
  | invalidTokenBudget
  | activeTurnExists
  | missingActiveTurn
  | taskMismatch (expected actual : UInt64)
  | invalidHistory
  | invalidActiveTurn
  | invalidTaskGraph
  | limitExceeded
  | truncated
  | invalidMagic
  | invalidHeader
  | unsupportedVersion (major minor : UInt16)
  | invalidUtf8
  | invalidRole (raw : UInt8)
  | nonCanonicalEncoding
  | overflow
  | cognitive (error : CognitiveError)
  | checkpoint (error : CheckpointError)
  | memory (error : MemoryError)
  deriving DecidableEq

/-- What is used of a plan of actions. -/
structure AssistantActionPlan where
  graph : TaskGraph
  canonicalText : String

/-! ## What is checked before a conversation is stored

Encoder and decoder check the history and the turn in progress; of the calls only completing a turn
checks the history. -/

/-- Questions stand at the even places, answers at the odd ones. -/
def expectedRole (index : ℕ) : ConversationRole := if index % 2 = 0 then .user else .assistant

/-- `validate_turns`: pairs of a question and an answer that are not blank or too long. -/
def validateTurns (turns : List ConversationTurn) : Except ConversationStateError Unit := do
  refuse (maxTurns < turns.length ∨ turns.length % 2 ≠ 0) .invalidHistory
  turns.zipIdx.forM fun (turn, index) => do
    refuse (isBlank turn.content ∨ maxTextBytes < turn.content.utf8ByteSize) .invalidHistory
    refuse (turn.role ≠ expectedRole index) .invalidHistory

/-- The bytes are not a `TAF97` file, by their length and first bytes. -/
def notFabricCheckpoint (checkpoint : Bytes) : Prop :=
  checkpoint.length < headerLen ∨ maxActionFabricCheckpointBytes < checkpoint.length ∨
    checkpoint.take taf97Magic.length ≠ taf97Magic

instance (checkpoint : Bytes) : Decidable (notFabricCheckpoint checkpoint) :=
  inferInstanceAs (Decidable (_ ∨ _ ∨ _))

/-- `validate_active`: the turn in progress within all limits, and on a task of the mind. -/
def validateActive (cognition : CognitiveState) :
    Option ActiveConversationTurn → Except ConversationStateError Unit
  | none => return ()
  | some active => do
    refuse (active.taskId = 0 ∨ isBlank active.modelAssetId ∨
      maxTextBytes < active.modelAssetId.utf8ByteSize ∨ active.modelVersion = 0 ∨
      isBlank active.userMessage ∨ maxTextBytes < active.userMessage.utf8ByteSize ∨
      active.promptTokens = [] ∨ maxTokens < active.promptTokens.length ∨
      active.maxNewTokens < active.generatedTokens.length ∨
      maxTokens < active.generatedTokens.length ∨
      maxTextBytes < active.generatedText.utf8ByteSize ∨
      active.actionFabricCheckpoint.any (notFabricCheckpoint ·) ∨ active.maxNewTokens = 0 ∨
      maxTokens < active.maxNewTokens) .invalidActiveTurn
    let task ← okOr cognition.tasks[active.taskId]? .invalidActiveTurn
    refuse (task.intent.objective ≠ active.userMessage ∨ task.status.isTerminal) .invalidActiveTurn

/-! ## The calls

Each call is one method; those that change the mind as well work on copies. -/

/-- Computations on a conversation; an error exit keeps what was written before it. -/
abbrev ConversationM := Eff SovereignConversationState ConversationStateError

namespace SovereignConversationState

/-- A conversation without history. -/
def new (identity : CognitiveIdentity) : SovereignConversationState where
  cognition := .new identity
  turns := []
  active := none

/-- A conversation from its parts, checked as a file is. -/
def fromParts (cognition : CognitiveState) (turns : List ConversationTurn)
    (active : Option ActiveConversationTurn) :
    Except ConversationStateError SovereignConversationState := do
  validateTurns turns
  validateActive cognition active
  return { cognition, turns, active }

/-- Work on a copy of the mind. -/
def clone {α : Type} (x : CognitionM α) (cognition : CognitiveState) :
    ConversationM (α × CognitiveState) := do
  let (answer, cognition) := exec x cognition
  let a ← check .cognitive answer
  return (a, cognition)

/-- A call must name the task of the turn. -/
def ensureTask (expected actual : UInt64) : ConversationM Unit :=
  refuse (expected ≠ actual) (.taskMismatch expected actual)

/-- The turn being answered, which must be the given one. -/
def activeTurn (taskId : UInt64) : ConversationM ActiveConversationTurn := do
  let self ← get
  let active ← okOr self.active .missingActiveTurn
  ensureTask active.taskId taskId
  return active

/-- `begin_turn`: the task is submitted and started before the turn stands. -/
def beginTurn (modelAssetId : String) (modelVersion : UInt32) (userMessage : String)
    (promptTokens : List UInt32) (maxNewTokens : ℕ) : ConversationM UInt64 := do
  let self ← get
  refuse self.active.isSome .activeTurnExists
  refuse (isBlank modelAssetId ∨ modelVersion = 0) .invalidActiveTurn
  refuse (isBlank userMessage) .emptyUserMessage
  refuse (maxNewTokens = 0) .invalidTokenBudget
  refuse (promptTokens = [] ∨ maxTokens < promptTokens.length) .invalidActiveTurn
  let (taskId, cognition) ←
    clone (CognitiveState.submitTask (Intent.new userMessage) {} none) self.cognition
  let ((), cognition) ← clone (CognitiveRuntime.startExternalTask taskId) cognition
  modify ({ · with
    cognition
    active := some {
      taskId, modelAssetId, modelVersion, userMessage, promptTokens, generatedTokens := []
      generatedText := "", maxNewTokens, actionFabricCheckpoint := none } })
  return taskId

/-- `append_generated`: one token of the answer and the text it stands for. -/
def appendGenerated (taskId : UInt64) (token : UInt32) (textPiece : String) :
    ConversationM Unit := do
  let active ← activeTurn taskId
  refuse (active.maxNewTokens ≤ active.generatedTokens.length) .invalidActiveTurn
  let nextTextLen := active.generatedText.utf8ByteSize + textPiece.utf8ByteSize
  refuse (2 ^ 64 ≤ nextTextLen) .overflow
  refuse (maxTextBytes < nextTextLen) .limitExceeded
  modify ({ · with
    active := some { active with
      generatedTokens := active.generatedTokens ++ [token]
      generatedText := active.generatedText ++ textPiece } })

/-- `complete_turn`: the answer must say something; the exchange is remembered. -/
def completeTurn (taskId : UInt64) : ConversationM Unit := do
  let self ← get
  let active ← activeTurn taskId
  refuse (isBlank active.generatedText) .emptyAssistantResponse
  let ((), cognition) ←
    clone (CognitiveRuntime.completeExternalTask taskId active.generatedText) self.cognition
  let (_, memory) ← check .memory (cognition.memory.store .episodic
    ("user: " ++ active.userMessage ++ "\nassistant: " ++ active.generatedText)
    ["conversation", "dialogue"] 650 cognition.tick)
  let turns := self.turns ++ [.user active.userMessage, .assistant active.generatedText]
  check id (validateTurns turns)
  modify fun _ => { cognition := { cognition with memory }, turns, active := none }

/-- `cancel_turn`: the task is paused and the turn dropped. -/
def cancelTurn (taskId : UInt64) (reason : String) : ConversationM Unit := do
  let self ← get
  let _ ← activeTurn taskId
  let ((), cognition) ← clone (CognitiveRuntime.pauseExternalTask taskId reason) self.cognition
  modify ({ · with cognition, active := none })

/-- A fact about the world, written straight into the mind. -/
def setFact (key value : String) : ConversationM Unit :=
  zoom cognition (fun self cognition => { self with cognition }) .cognitive
    (CognitiveState.setWorldFact key value)

/-- The key of a fact about a task. -/
def taskKey (taskId : UInt64) (name : String) : String :=
  "conversation.task." ++ toString taskId ++ "." ++ name

/-- Every node has an id of its own, not `0`, and names a capability. -/
def validateTaskGraph (graph : TaskGraph) : Except ConversationStateError Unit := do
  refuse (graph.actions = []) .invalidTaskGraph
  let _ ← graph.actions.foldlM (fun (seen : Std.ExtTreeSet UInt32) (node : ActionNode) => do
    refuse (node.id = 0 ∨ seen.contains node.id ∨ isBlank node.capability.val) .invalidTaskGraph
    return seen.insert node.id) ∅

/-- `install_action_task_graph`: the graph becomes that of the turn's task. -/
def installActionTaskGraph (taskId : UInt64) (graph : TaskGraph) : ConversationM Unit := do
  let self ← get
  let _ ← activeTurn taskId
  check id (validateTaskGraph graph)
  let task ← okOr self.cognition.tasks[taskId]? .invalidTaskGraph
  refuse task.status.isTerminal .invalidTaskGraph
  let ((), cognition) ← clone (do
    modify fun c => { c with tasks := c.tasks.modify taskId ({ · with graph }) }
    CognitiveState.setWorldFact (taskKey taskId "action_count") (toString graph.actions.length))
    self.cognition
  modify ({ · with cognition })

/-- `install_action_plan`: graph and text of a plan, both or neither. -/
def installActionPlan (taskId : UInt64) (plan : AssistantActionPlan) : ConversationM Unit := do
  refuse (maxTextBytes < plan.canonicalText.utf8ByteSize) .limitExceeded
  let self ← get
  let (answer, candidate) := exec (do
    installActionTaskGraph taskId plan.graph
    setFact (taskKey taskId "action_protocol") plan.canonicalText) self
  check id answer
  modify fun _ => candidate

/-- `install_action_fabric_checkpoint`: the saved actions of the turn. -/
def installActionFabricCheckpoint (taskId : UInt64) (checkpoint : Bytes) : ConversationM Unit := do
  refuse (notFabricCheckpoint checkpoint) .invalidActiveTurn
  let active ← activeTurn taskId
  modify ({ · with active := some { active with actionFabricCheckpoint := some checkpoint } })

/-- `clear_action_fabric_checkpoint`: the turn has no saved actions. -/
def clearActionFabricCheckpoint (taskId : UInt64) : ConversationM Unit := do
  let active ← activeTurn taskId
  modify ({ · with active := some { active with actionFabricCheckpoint := none } })

/-- The task must be one of the mind's. -/
def knownTask (taskId : UInt64) : ConversationM Unit := do
  let self ← get
  refuse (!self.cognition.tasks.contains taskId) (.taskMismatch taskId 0)

/-- The words for how an approval stands. -/
def isApprovalStatus (status : String) : Bool :=
  status ∈ ["pending", "approved-executing", "approved", "denied", "reconfirm"]

/-- `record_chat_approval`: three facts about the task. -/
def recordChatApproval (taskId : UInt64) (capability rationale status : String) :
    ConversationM Unit := do
  refuse (!isApprovalStatus status ∨ isBlank capability ∨ isBlank rationale ∨
    maxTextBytes < capability.utf8ByteSize ∨ maxTextBytes < rationale.utf8ByteSize)
    .invalidTaskGraph
  knownTask taskId
  setFact (taskKey taskId "approval.capability") capability
  setFact (taskKey taskId "approval.rationale") rationale
  setFact (taskKey taskId "approval.status") status

/-- `set_chat_approval_status`: only where an approval was recorded. -/
def setChatApprovalStatus (taskId : UInt64) (status : String) : ConversationM Unit := do
  refuse (!isApprovalStatus status) .invalidTaskGraph
  let self ← get
  refuse (!self.cognition.world.contains (taskKey taskId "approval.status")) .invalidTaskGraph
  setFact (taskKey taskId "approval.status") status

/-- `record_action_planner_status`: how the planner answered. -/
def recordActionPlannerStatus (taskId : UInt64) (status : String) : ConversationM Unit := do
  refuse (status ∉ ["direct", "actions", "invalid", "unsupported"]) .invalidTaskGraph
  knownTask taskId
  setFact (taskKey taskId "action_planner_status") status

/-- `record_verified_action_count`. -/
def recordVerifiedActionCount (taskId : UInt64) (count : ℕ) : ConversationM Unit := do
  knownTask taskId
  setFact (taskKey taskId "verified_action_count") (toString count)

/-- `record_verified_synthesis_ready`. -/
def recordVerifiedSynthesisReady (taskId : UInt64) : ConversationM Unit := do
  knownTask taskId
  setFact (taskKey taskId "verified_synthesis") "ready"

/-- `replace_active_prompt_tokens`: only before the first token of the answer. -/
def replaceActivePromptTokens (taskId : UInt64) (promptTokens : List UInt32) :
    ConversationM Unit := do
  refuse (promptTokens = [] ∨ maxTokens < promptTokens.length) .invalidActiveTurn
  let active ← activeTurn taskId
  refuse (active.generatedTokens ≠ [] ∨ !active.generatedText.isEmpty) .invalidActiveTurn
  modify ({ · with active := some { active with promptTokens } })

/-- The name of a budget. -/
def reasoningBudgetName : ReasoningBudget → String
  | .reflex => "reflex"
  | .standard => "standard"
  | .deep => "deep"
  | .recovery => "recovery"

/-- A signal between `0` and `1`, in thousandths. -/
def signalMilli (value : Float32) : UInt16 := (clampUnit value * 1000).round.toUInt16

/-- `record_reasoning_profile`: four facts about the task. -/
def recordReasoningProfile (taskId : UInt64) (budget : ReasoningBudget) (signals : CognitiveSignals)
    (recalledMemoryItems : ℕ) : ConversationM Unit := do
  knownTask taskId
  setFact (taskKey taskId "reasoning_budget") (reasoningBudgetName budget)
  setFact (taskKey taskId "complexity_milli") (toString (signalMilli signals.complexity))
  setFact (taskKey taskId "uncertainty_milli") (toString (signalMilli signals.uncertainty))
  setFact (taskKey taskId "recalled_memory_items") (toString recalledMemoryItems)

/-- `record_reasoning_cycle_report`: two facts about the task. -/
def recordReasoningCycleReport (taskId : UInt64) (report : CognitiveCycleReport) :
    ConversationM Unit := do
  refuse (report.taskId ≠ taskId) (.taskMismatch taskId report.taskId)
  knownTask taskId
  setFact (taskKey taskId "reasoning_iterations") (toString report.iterations)
  setFact (taskKey taskId "reasoning_verification_failures") (toString report.verificationFailures)

/-- `recall_conversation_context`: earlier exchanges that fit a query; a limit of zero changes
nothing. -/
def recallConversationContext [SovereignMemory.CharTables] (query : String) (limit : ℕ) :
    ConversationM (List String) :=
  if limit = 0 then return []
  else do
    let self ← get
    let tick ← okOr (checkedAdd64 self.cognition.tick 1) .overflow
    let (answer, memory) := self.cognition.memory.retrieve
      { text := query, kinds := [.episodic], tags := ["conversation"], limit } tick
    modify fun self => { self with cognition.tick := tick, cognition.memory := memory }
    let hits ← check .memory answer
    return hits.map fun hit => hit.record.content

end SovereignConversationState

/-- A call on a conversation. -/
inductive ConversationOp where
  | beginTurn (modelAssetId : String) (modelVersion : UInt32) (userMessage : String)
    (promptTokens : List UInt32) (maxNewTokens : ℕ)
  | appendGenerated (taskId : UInt64) (token : UInt32) (textPiece : String)
  | completeTurn (taskId : UInt64)
  | cancelTurn (taskId : UInt64) (reason : String)
  | installActionTaskGraph (taskId : UInt64) (graph : TaskGraph)
  | installActionPlan (taskId : UInt64) (plan : AssistantActionPlan)
  | installActionFabricCheckpoint (taskId : UInt64) (checkpoint : Bytes)
  | clearActionFabricCheckpoint (taskId : UInt64)
  | recordChatApproval (taskId : UInt64) (capability rationale status : String)
  | setChatApprovalStatus (taskId : UInt64) (status : String)
  | recordActionPlannerStatus (taskId : UInt64) (status : String)
  | recordVerifiedActionCount (taskId : UInt64) (count : ℕ)
  | recordVerifiedSynthesisReady (taskId : UInt64)
  | replaceActivePromptTokens (taskId : UInt64) (promptTokens : List UInt32)
  | recordReasoningProfile (taskId : UInt64) (budget : ReasoningBudget) (signals : CognitiveSignals)
    (recalledMemoryItems : ℕ)
  | recordReasoningCycleReport (taskId : UInt64) (report : CognitiveCycleReport)
  | recallConversationContext (query : String) (limit : ℕ)

namespace SovereignConversationState

/-- What a call leaves, whether it answered or failed. -/
def step [SovereignMemory.CharTables] (s : SovereignConversationState) :
    ConversationOp → SovereignConversationState
  | .beginTurn asset version message prompt max =>
    (exec (beginTurn asset version message prompt max) s).2
  | .appendGenerated taskId token piece => (exec (appendGenerated taskId token piece) s).2
  | .completeTurn taskId => (exec (completeTurn taskId) s).2
  | .cancelTurn taskId reason => (exec (cancelTurn taskId reason) s).2
  | .installActionTaskGraph taskId graph => (exec (installActionTaskGraph taskId graph) s).2
  | .installActionPlan taskId plan => (exec (installActionPlan taskId plan) s).2
  | .installActionFabricCheckpoint taskId checkpoint =>
    (exec (installActionFabricCheckpoint taskId checkpoint) s).2
  | .clearActionFabricCheckpoint taskId => (exec (clearActionFabricCheckpoint taskId) s).2
  | .recordChatApproval taskId capability rationale status =>
    (exec (recordChatApproval taskId capability rationale status) s).2
  | .setChatApprovalStatus taskId status => (exec (setChatApprovalStatus taskId status) s).2
  | .recordActionPlannerStatus taskId status =>
    (exec (recordActionPlannerStatus taskId status) s).2
  | .recordVerifiedActionCount taskId count =>
    (exec (recordVerifiedActionCount taskId count) s).2
  | .recordVerifiedSynthesisReady taskId => (exec (recordVerifiedSynthesisReady taskId) s).2
  | .replaceActivePromptTokens taskId prompt =>
    (exec (replaceActivePromptTokens taskId prompt) s).2
  | .recordReasoningProfile taskId budget signals items =>
    (exec (recordReasoningProfile taskId budget signals items) s).2
  | .recordReasoningCycleReport taskId report =>
    (exec (recordReasoningCycleReport taskId report) s).2
  | .recallConversationContext query limit =>
    (exec (recallConversationContext query limit) s).2

end SovereignConversationState

end NTD97
