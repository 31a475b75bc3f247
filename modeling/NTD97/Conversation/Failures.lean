import Mathlib
import NTD97.Conversation.Steps
import NTD97.Lib.Atomic
import NTD97.Lib.Run

/-!
# Conversation/Failures — a call that fails leaves the conversation as it was

    check … check │ write … write

Every call checks before it writes, or works on a copy it drops.  The calls that write several
facts in place could only fail at a blank key, and no key of a task is blank; recalling a context
writes the tick first, and the retrieval after it finds every record it has ranked.
-/

namespace NTD97

open Guard Effect Text SortedMap Machine

/-! ## A retrieval always answers -/

namespace SovereignMemory

/-- What is ranked is there. -/
theorem mem_of_mem_rank [CharTables] {self : SovereignMemory} {query : MemoryQuery}
    {hit : UInt64 × UInt64} (h : hit ∈ self.rank query) : hit.1 ∈ self.records := by
  rw [rank] at h
  have hmatching := (List.mem_insertionSort _).1 (List.mem_of_mem_take h)
  obtain ⟨⟨id, record⟩, hmem, hscore⟩ := List.mem_filterMap.1 hmatching
  have hrecord := Std.ExtTreeMap.mem_toList_iff_getElem?_eq_some.1 hmem
  have hid : hit.1 = id := by
    dsimp only at hscore
    split at hscore
    · obtain ⟨score, -, rfl⟩ := Option.map_eq_some_iff.1 hscore
      exact (self.sound.entry id record hrecord).keyed.symm
    · exact nomatch hscore
  rw [hid]
  exact Std.ExtTreeMap.mem_iff_isSome_getElem?.2 (by rw [hrecord]; rfl)

/-- Recalling what was ranked answers, and keeps it there. -/
theorem answers_recallHit {ids : List (UInt64 × UInt64)} (tick : UInt64) {hit : UInt64 × UInt64}
    (h : hit ∈ ids) :
    Answers (fun m : SovereignMemory => ∀ hit ∈ ids, hit.1 ∈ m.records) (recallHit tick hit) := by
  refine .read_bind fun m hm => .okOr_bind (fun record _ => ?_) fun hnone => ?_
  · refine .write_bind (.ret fun _ h => h) fun t ht hit' hmem => ?_
    subst t
    exact Std.ExtTreeMap.mem_modify.2 (hm hit' hmem)
  · have hsome := Std.ExtTreeMap.mem_iff_isSome_getElem?.1 (hm hit h)
    exact absurd hnone (Option.isSome_iff_ne_none.1 hsome)

/-- **A retrieval always answers**: every ranked id is one of the memory's. -/
theorem exists_retrieve [CharTables] (self : SovereignMemory) (query : MemoryQuery)
    (tick : UInt64) : ∃ hits, (self.retrieve query tick).1 = .ok hits := by
  rw [retrieve]
  split
  · exact ⟨[], rfl⟩
  · exact (Answers.mapM fun hit h => answers_recallHit tick h).exists_ok fun hit => mem_of_mem_rank

end SovereignMemory

namespace SovereignConversationState

variable {taskId : UInt64}

/-! ## Facts about a task -/

theorem isBlank_keyPrefix : isBlank "conversation.task." = false :=
  Bool.eq_false_iff.2 fun h => absurd (isBlank_iff.1 h 'c' (by decide)) (by decide)

/-- The key of a fact about a task is never blank. -/
theorem isBlank_taskKey (taskId : UInt64) (name : String) :
    isBlank (taskKey taskId name) = false :=
  Bool.eq_false_iff.2 fun h => Bool.eq_false_iff.1 isBlank_keyPrefix
    (isBlank_append.1 (isBlank_append.1 (isBlank_append.1 h).1).1).1

/-- A fact about a task is always taken. -/
theorem exec_setFact (taskId : UInt64) (name value : String) (s : SovereignConversationState) :
    (exec (setFact (taskKey taskId name) value) s).1 = .ok () := by
  rw [setFact, exec_zoom, CognitiveState.setWorldFact,
    exec_refuse_of_neg (Bool.eq_false_iff.1 (isBlank_taskKey taskId name)), exec_get_bind,
    exec_modify]
  rfl

/-- So setting one answers. -/
theorem answers_setFact (taskId : UInt64) (name value : String) :
    Answers (fun _ => True) (setFact (taskKey taskId name) value) :=
  .of_ok (exec_setFact taskId name value)

/-! ## The calls -/

/-- Work on a clone is given back whole or not at all. -/
theorem atomic_clone_bind {α β : Type} {x : CognitionM α} {c : CognitiveState}
    {f : α × CognitiveState → ConversationM β} (h : ∀ a, Atomic (f a)) :
    Atomic (clone x c >>= f) :=
  fun s => triple_clone_bind (fun a c' _ => h (a, c') s) fun _ => rfl

/-- A check of the active turn changes nothing. -/
theorem atomic_activeTurn_bind {β : Type} {f : ActiveConversationTurn → ConversationM β}
    (h : ∀ active, Atomic (f active)) : Atomic (activeTurn taskId >>= f) :=
  fun s => triple_activeTurn_bind (fun active _ _ => h active s) fun _ => rfl

/-- Nor does a check of the task. -/
theorem atomic_knownTask_bind {β : Type} {f : Unit → ConversationM β} (h : ∀ u, Atomic (f u)) :
    Atomic (knownTask taskId >>= f) :=
  .bind (fun _ => .conseq keeps_knownTask.triple (fun _ hs => hs) (fun _ _ hs => hs)
    fun _ _ hs => hs) h

theorem atomic_setFact (name value : String) : Atomic (setFact (taskKey taskId name) value) :=
  .of_answers (answers_setFact taskId name value)

theorem atomic_beginTurn (modelAssetId : String) (modelVersion : UInt32) (userMessage : String)
    (promptTokens : List UInt32) (maxNewTokens : ℕ) :
    Atomic (beginTurn modelAssetId modelVersion userMessage promptTokens maxNewTokens) := by
  refine .read_bind fun self => .refuse_bind fun _ => .refuse_bind fun _ => ?_
  refine .refuse_bind fun _ => .refuse_bind fun _ => .refuse_bind fun _ => ?_
  refine atomic_clone_bind fun _ => atomic_clone_bind fun _ => ?_
  exact (Atomic.write _).bind_answers fun _ => .ret _

theorem atomic_appendGenerated (token : UInt32) (piece : String) :
    Atomic (appendGenerated taskId token piece) := by
  refine atomic_activeTurn_bind fun active => .refuse_bind fun _ => ?_
  exact .refuse_bind fun _ => .refuse_bind fun _ => .write _

theorem atomic_completeTurn : Atomic (completeTurn taskId) := by
  refine .read_bind fun self => atomic_activeTurn_bind fun active => .refuse_bind fun _ => ?_
  refine atomic_clone_bind fun _ => .check_bind fun _ => .check_bind fun _ => .write _

theorem atomic_cancelTurn (reason : String) : Atomic (cancelTurn taskId reason) :=
  .read_bind fun _ => atomic_activeTurn_bind fun _ => atomic_clone_bind fun _ => .write _

theorem atomic_installActionTaskGraph (graph : TaskGraph) :
    Atomic (installActionTaskGraph taskId graph) := by
  refine .read_bind fun self => atomic_activeTurn_bind fun _ => .check_bind fun _ => ?_
  refine .okOr_bind fun task => .refuse_bind fun _ => ?_
  exact atomic_clone_bind fun _ => .write _

theorem atomic_installActionPlan (plan : AssistantActionPlan) :
    Atomic (installActionPlan taskId plan) :=
  .refuse_bind fun _ => .read_bind fun _ => .check_bind fun _ => .write _

theorem atomic_installActionFabricCheckpoint (checkpoint : Bytes) :
    Atomic (installActionFabricCheckpoint taskId checkpoint) :=
  .refuse_bind fun _ => atomic_activeTurn_bind fun _ => .write _

theorem atomic_clearActionFabricCheckpoint : Atomic (clearActionFabricCheckpoint taskId) :=
  atomic_activeTurn_bind fun _ => .write _

theorem atomic_recordChatApproval (capability rationale status : String) :
    Atomic (recordChatApproval taskId capability rationale status) := by
  refine .refuse_bind fun _ => atomic_knownTask_bind fun _ => .of_answers ?_
  refine (answers_setFact ..).bind fun _ => (answers_setFact ..).bind fun _ => answers_setFact ..

theorem atomic_setChatApprovalStatus (status : String) :
    Atomic (setChatApprovalStatus taskId status) :=
  .refuse_bind fun _ => .read_bind fun _ => .refuse_bind fun _ => atomic_setFact _ _

theorem atomic_recordActionPlannerStatus (status : String) :
    Atomic (recordActionPlannerStatus taskId status) :=
  .refuse_bind fun _ => atomic_knownTask_bind fun _ => atomic_setFact _ _

theorem atomic_recordVerifiedActionCount (count : ℕ) :
    Atomic (recordVerifiedActionCount taskId count) :=
  atomic_knownTask_bind fun _ => atomic_setFact _ _

theorem atomic_recordVerifiedSynthesisReady : Atomic (recordVerifiedSynthesisReady taskId) :=
  atomic_knownTask_bind fun _ => atomic_setFact _ _

theorem atomic_replaceActivePromptTokens (prompt : List UInt32) :
    Atomic (replaceActivePromptTokens taskId prompt) :=
  .refuse_bind fun _ => atomic_activeTurn_bind fun _ => .refuse_bind fun _ => .write _

theorem atomic_recordReasoningProfile (budget : ReasoningBudget) (signals : CognitiveSignals)
    (items : ℕ) : Atomic (recordReasoningProfile taskId budget signals items) := by
  refine atomic_knownTask_bind fun _ => .of_answers ?_
  refine (answers_setFact ..).bind fun _ => (answers_setFact ..).bind fun _ => ?_
  exact (answers_setFact ..).bind fun _ => answers_setFact ..

theorem atomic_recordReasoningCycleReport (report : CognitiveCycleReport) :
    Atomic (recordReasoningCycleReport taskId report) := by
  refine .refuse_bind fun _ => atomic_knownTask_bind fun _ => .of_answers ?_
  exact (answers_setFact ..).bind fun _ => answers_setFact ..

/-- The tick is written before the retrieval, which always answers. -/
theorem atomic_recallConversationContext [SovereignMemory.CharTables] (query : String)
    (limit : ℕ) : Atomic (recallConversationContext query limit) := by
  unfold recallConversationContext
  split
  · exact .ret []
  · refine .read_bind fun self => .okOr_bind fun tick => ?_
    obtain ⟨hits, hhits⟩ := self.cognition.memory.exists_retrieve
      { text := query, kinds := [.episodic], tags := ["conversation"], limit } tick
    rcases hretrieve : self.cognition.memory.retrieve
      { text := query, kinds := [.episodic], tags := ["conversation"], limit } tick
      with ⟨answer, memory⟩
    rw [hretrieve] at hhits
    obtain rfl : answer = .ok hits := hhits
    exact (Atomic.write _).bind_answers fun _ => .ret _

/-! ## Any call -/

/-- The call itself, its answer dropped. -/
def perform [SovereignMemory.CharTables] : ConversationOp → ConversationM Unit
  | .beginTurn asset version message prompt max => do
    let _ ← beginTurn asset version message prompt max
  | .appendGenerated taskId token piece => appendGenerated taskId token piece
  | .completeTurn taskId => completeTurn taskId
  | .cancelTurn taskId reason => cancelTurn taskId reason
  | .installActionTaskGraph taskId graph => installActionTaskGraph taskId graph
  | .installActionPlan taskId plan => installActionPlan taskId plan
  | .installActionFabricCheckpoint taskId checkpoint =>
    installActionFabricCheckpoint taskId checkpoint
  | .clearActionFabricCheckpoint taskId => clearActionFabricCheckpoint taskId
  | .recordChatApproval taskId capability rationale status =>
    recordChatApproval taskId capability rationale status
  | .setChatApprovalStatus taskId status => setChatApprovalStatus taskId status
  | .recordActionPlannerStatus taskId status => recordActionPlannerStatus taskId status
  | .recordVerifiedActionCount taskId count => recordVerifiedActionCount taskId count
  | .recordVerifiedSynthesisReady taskId => recordVerifiedSynthesisReady taskId
  | .replaceActivePromptTokens taskId prompt => replaceActivePromptTokens taskId prompt
  | .recordReasoningProfile taskId budget signals items =>
    recordReasoningProfile taskId budget signals items
  | .recordReasoningCycleReport taskId report => recordReasoningCycleReport taskId report
  | .recallConversationContext query limit => do
    let _ ← recallConversationContext query limit

section Calls

variable [SovereignMemory.CharTables]

/-- **Every operation is atomic.** -/
theorem atomic_perform (op : ConversationOp) : Atomic (perform op) := by
  cases op with
  | beginTurn asset version message prompt max =>
    exact (atomic_beginTurn asset version message prompt max).bind_answers fun _ => .ret ()
  | appendGenerated taskId token piece => exact atomic_appendGenerated token piece
  | completeTurn taskId => exact atomic_completeTurn
  | cancelTurn taskId reason => exact atomic_cancelTurn reason
  | installActionTaskGraph taskId graph => exact atomic_installActionTaskGraph graph
  | installActionPlan taskId plan => exact atomic_installActionPlan plan
  | installActionFabricCheckpoint taskId checkpoint =>
    exact atomic_installActionFabricCheckpoint checkpoint
  | clearActionFabricCheckpoint taskId => exact atomic_clearActionFabricCheckpoint
  | recordChatApproval taskId capability rationale status =>
    exact atomic_recordChatApproval capability rationale status
  | setChatApprovalStatus taskId status => exact atomic_setChatApprovalStatus status
  | recordActionPlannerStatus taskId status => exact atomic_recordActionPlannerStatus status
  | recordVerifiedActionCount taskId count => exact atomic_recordVerifiedActionCount count
  | recordVerifiedSynthesisReady taskId => exact atomic_recordVerifiedSynthesisReady
  | replaceActivePromptTokens taskId prompt => exact atomic_replaceActivePromptTokens prompt
  | recordReasoningProfile taskId budget signals items =>
    exact atomic_recordReasoningProfile budget signals items
  | recordReasoningCycleReport taskId report => exact atomic_recordReasoningCycleReport report
  | recallConversationContext query limit =>
    exact (atomic_recallConversationContext query limit).bind_answers fun _ => .ret ()

/-- **A call that fails leaves the conversation as it was** — mind, history and turn in progress. -/
theorem exec_perform_error {s t : SovereignConversationState} {op : ConversationOp}
    {e : ConversationStateError} (h : exec (perform op) s = (.error e, t)) : t = s :=
  (atomic_perform op).final h

end Calls

namespace FailureSample

scoped instance : SovereignMemory.CharTables := ⟨Char.isAlphanum⟩

theorem length_zeros : (List.replicate 16 (0 : UInt8)).length = 16 := rfl

/-- A memory with one number left. -/
def nearlyFull : SovereignMemory where
  nextId := 0xfffffffffffffffe
  records := ∅
  sound := {
    next_ne := by decide
    id_lt _ _ h := by simp at h
    entry _ _ h := by simp at h }

/-- A question was asked and answered with one word. -/
def answered : SovereignConversationState :=
  run step { SovereignConversationState.new ⟨.replicate 16 0, length_zeros⟩ with
    cognition.memory := nearlyFull }
    [.beginTurn "model" 1 "hello" [1] 4, .appendGenerated 1 7 "yes"]

end FailureSample

open FailureSample in
/-- Completing the turn takes the last number for the task, and finds none for the exchange. -/
theorem exec_perform_error_completeTurn :
    (exec (CognitiveRuntime.completeExternalTask 1 "yes") answered.cognition).1 = .ok () ∧
      (exec (perform (.completeTurn 1)) answered).1 = .error (.memory .overflow) ∧
      (exec (perform (.completeTurn 1)) answered).2 = answered := by
  have hcopy : (exec (CognitiveRuntime.completeExternalTask 1 "yes") answered.cognition).1 =
      .ok () := by decide +kernel
  have hfails : (exec (perform (.completeTurn 1)) answered).1 = .error (.memory .overflow) := by
    decide +kernel
  rcases hrun : exec (perform (.completeTurn 1)) answered with ⟨answer, after⟩
  rw [hrun] at hfails
  obtain rfl : answer = .error (.memory .overflow) := hfails
  exact ⟨hcopy, rfl, exec_perform_error hrun⟩

end SovereignConversationState

end NTD97
