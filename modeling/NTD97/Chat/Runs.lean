import Mathlib
import NTD97.Chat
import NTD97.Conversation.Runs

/-!
# Chat/Runs — the conversation stays valid

    copy ──calls──▸ copy ──reason──▸ copy ──calls──▸ copy        one task is open throughout

The chat changes the conversation through its calls, puts a decoded one in its place, and thinks about
the task of the turn on a copy.  Thinking may close the task; then the copy is dropped.  So the
conversation behind the lock is valid in every state a run of calls leads to.
-/

namespace NTD97

open Guard Effect SortedMap Text Wire SovereignConversationState

/-! ## The calls on a conversation -/

section Calls

variable [SovereignMemory.CharTables]

/-- A call on a conversation keeps it valid. -/
theorem keeps_valid {α : Type} {x : ConversationM α} (op : ConversationOp)
    (hx : ∀ s, (exec x s).2 = s.step op) : Keeps (ConversationValid False) x :=
  .of_final fun s hs => by
    rw [hx]
    exact (conversationValid_step_iff hs op).2 False.elim

end Calls

variable {W : Type} {taskId : UInt64}

/-- The copy is valid. -/
def Draft.Sound (d : Draft W) : Prop := ConversationValid False d.conversation

theorem keeps_inConversation {α : Type} (what : String) {x : ConversationM α}
    (h : Keeps (ConversationValid False) x) : Keeps (Draft.Sound (W := W)) (inConversation what x) :=
  h.zoom (fun _ hd => hd) fun _ _ _ h => h

theorem keeps_inSession {ε α : Type} (embed : ε → ChatError) (x : Eff (Session W) ε α) :
    Keeps (Draft.Sound (W := W)) (inSession embed x) :=
  .zoom_of_put fun _ _ hd => hd

/-! ## Work on a copy -/

theorem keeps_registerAndroidAdapter (engine : ChatEngine W) (actionPlan : ParsedActionPlan)
    (capability : String) :
    Keeps Draft.Sound (registerAndroidAdapter engine actionPlan capability) := by
  unfold registerAndroidAdapter
  refine .bind .read fun d => ?_
  rcases engine.openAdapter capability actionPlan d.session.world with ⟨answer, world⟩
  refine .bind (.write fun _ hd => hd) fun _ => .bind (.checked _ _) fun adapter => ?_
  exact keeps_inSession _ _

theorem keeps_preparedPlan (stored : Option Bytes) (task : CognitiveTask)
    (actionPlan : ParsedActionPlan) :
    Keeps (Draft.Sound (W := W)) (preparedPlan taskId stored task actionPlan) := by
  unfold preparedPlan
  split
  · exact keeps_inSession _ _
  · refine .bind .read fun d => .refuse_bind fun _ => .bind (.option _ _) fun plan => ?_
    exact .refuse_bind fun _ => .ret _

theorem keeps_pendingApproval : Keeps (Draft.Sound (W := W)) (pendingApproval taskId) := by
  unfold pendingApproval
  refine .bind .read fun d => .bind (.option _ _) fun status => ?_
  exact .branch (fun _ => .of_triple (.raise fun _ hd => hd)) fun _ => .ret _

section Copies

variable [SovereignMemory.CharTables]

/-- A call on the copy keeps it valid. -/
theorem keeps_call {α : Type} (what : String) {x : ConversationM α} (op : ConversationOp)
    (hx : ∀ s, (exec x s).2 = s.step op) : Keeps (Draft.Sound (W := W)) (inConversation what x) :=
  keeps_inConversation what (keeps_valid op hx)

theorem keeps_plannerStatus (what status : String) :
    Keeps (Draft.Sound (W := W)) (inConversation what (recordActionPlannerStatus taskId status)) :=
  keeps_call what (.recordActionPlannerStatus taskId status) fun _ => rfl

theorem keeps_actionCount (what : String) (count : ℕ) :
    Keeps (Draft.Sound (W := W)) (inConversation what (recordVerifiedActionCount taskId count)) :=
  keeps_call what (.recordVerifiedActionCount taskId count) fun _ => rfl

theorem keeps_setApproval (what status : String) :
    Keeps (Draft.Sound (W := W)) (inConversation what (setChatApprovalStatus taskId status)) :=
  keeps_call what (.setChatApprovalStatus taskId status) fun _ => rfl

theorem keeps_persistFabric : Keeps (Draft.Sound (W := W)) (persistFabric taskId) := by
  unfold persistFabric
  refine .bind .read fun d => .bind (.checked _ _) fun checkpoint => ?_
  exact keeps_call _ (.installActionFabricCheckpoint taskId checkpoint) fun _ => rfl

theorem keeps_installSynthesis (engine : ChatEngine W) (context : ActionContext)
    (run : VerifiedAssistantActionRun) :
    Keeps Draft.Sound (installSynthesis engine context run) := by
  unfold installSynthesis
  refine .bind (keeps_call _ (.clearActionFabricCheckpoint context.taskId) fun _ => rfl) fun _ => ?_
  refine .bind (.checked _ _) fun tokens => .refuse_bind fun _ => ?_
  refine .bind (keeps_call _ (.replaceActivePromptTokens context.taskId tokens) fun _ => rfl)
    fun _ => ?_
  refine .bind (keeps_call _ (.recordVerifiedSynthesisReady context.taskId) fun _ => rfl)
    fun _ => ?_
  exact .bind (keeps_actionCount _ _) fun _ => keeps_plannerStatus _ _

theorem keeps_openFabric (engine : ChatEngine W) (actionPlan : ParsedActionPlan)
    (context : ActionContext) : Keeps Draft.Sound (openFabric engine actionPlan context) := by
  unfold openFabric
  refine .bind (.branch (fun _ => keeps_plannerStatus _ _) fun _ => .ret _) fun _ => ?_
  refine .refuse_bind fun _ => .bind (.checked _ _) fun registry => .bind .read fun d => ?_
  refine .bind (.checked _ _) fun fabric => .bind (.write fun _ hd => hd) fun _ => ?_
  refine .bind (Keeps.forM (keeps_registerAndroidAdapter engine actionPlan) _) fun _ => ?_
  refine .bind (.checked _ _) fun authority => .bind .read fun d => .bind (.option _ _) fun task => ?_
  refine .bind (keeps_preparedPlan _ task actionPlan) fun planId => ?_
  exact .bind keeps_persistFabric fun _ => .ret _

theorem keeps_settleRun (engine : ChatEngine W) (context : ActionContext) (planId : ActionPlanId)
    (answer : Except AssistantActionRunError VerifiedAssistantActionRun) :
    Keeps Draft.Sound (settleRun engine context planId answer) := by
  cases answer with
  | error e =>
    refine .refuse_bind fun _ => .bind .read fun d => ?_
    exact .bind keeps_persistFabric fun _ => .ret _
  | ok run => exact .bind (keeps_installSynthesis engine context run) fun _ => .ret _

/-- **The plan of a turn keeps the copy valid.** -/
theorem keeps_executeAndroidVerifiedActions (engine : ChatEngine W) (actionPlan : ParsedActionPlan)
    (context : ActionContext) :
    Keeps Draft.Sound (executeAndroidVerifiedActions engine actionPlan context) := by
  unfold executeAndroidVerifiedActions
  refine .bind (keeps_openFabric engine actionPlan context) ?_
  rintro ⟨task, authority, planId⟩
  refine .branch (fun _ => .ret _) fun _ => .bind (keeps_inSession _ _) fun answer => ?_
  exact keeps_settleRun engine context planId answer

theorem keeps_continueActions (engine : ChatEngine W) (model : NativeChatModel) :
    Keeps Draft.Sound (continueActions engine model taskId) := by
  unfold continueActions
  refine .bind .read fun d => .bind (.option _ _) fun active => .refuse_bind fun _ => ?_
  refine .bind (.option _ _) fun protocol => .bind (.checked _ _) fun actionPlan => ?_
  refine .bind (.checked _ _) fun approval => .refuse_bind fun _ => ?_
  refine .bind (keeps_executeAndroidVerifiedActions engine actionPlan _) fun outcome => ?_
  cases outcome with
  | prepared => exact .of_triple (.raise fun _ hd => hd)
  | checkpointed note requiresReconfirm =>
    exact .bind (.branch (fun _ => keeps_setApproval _ _) fun _ => .ret _) fun _ => .ret _
  | completed =>
    exact .bind (.branch (fun _ => keeps_setApproval _ _) fun _ => .ret _) fun _ => .ret _

theorem keeps_denyTurn : Keeps (Draft.Sound (W := W)) (denyTurn taskId) :=
  .bind keeps_pendingApproval fun _ => .bind (keeps_setApproval _ _) fun _ =>
    keeps_call _ (.cancelTurn taskId _) fun _ => rfl

theorem keeps_approveTurn (engine : ChatEngine W) (model : NativeChatModel) :
    Keeps Draft.Sound (approveTurn engine model taskId) := by
  unfold approveTurn
  refine .bind keeps_pendingApproval fun _ => .bind (keeps_setApproval _ _) fun _ => ?_
  refine .bind .read fun d => .bind (.option _ _) fun active => .refuse_bind fun _ => ?_
  refine .bind (.option _ _) fun protocol => .bind (.checked _ _) fun decision => ?_
  cases decision with
  | direct => exact .of_triple (.raise fun _ hd => hd)
  | actions actionPlan =>
    refine .bind (.checked _ _) fun approval => .refuse_bind fun _ => ?_
    refine .bind (keeps_executeAndroidVerifiedActions engine actionPlan _) fun outcome => ?_
    cases outcome with
    | prepared => exact .ret _
    | checkpointed | completed => exact .of_triple (.raise fun _ hd => hd)

theorem keeps_settleOutcome (engine : ChatEngine W) (context : ActionContext)
    (outcome : NativeActionPlanningOutcome) :
    Keeps Draft.Sound (settleOutcome engine context outcome) := by
  cases outcome with
  | direct | invalid =>
    exact .bind (keeps_plannerStatus _ _) fun _ => .bind (keeps_actionCount _ _) fun _ => .ret _
  | actions actionPlan =>
    refine .bind (keeps_call _ (.installActionPlan context.taskId actionPlan.toAssistantActionPlan)
      fun _ => rfl) fun _ => .bind (.checked _ _) fun approval => ?_
    rcases approval with _ | ⟨capability, rationale⟩
    · exact .bind (keeps_executeAndroidVerifiedActions engine actionPlan context) fun _ => .ret _
    · refine .bind (keeps_call _ (.recordChatApproval context.taskId capability rationale "pending")
        fun _ => rfl) fun _ => ?_
      exact .bind (keeps_plannerStatus _ _) fun _ => .bind (keeps_actionCount _ _) fun _ => .ret _

theorem keeps_beginChatTurn (engine : ChatEngine W) (request : TurnRequest) :
    Keeps Draft.Sound (beginChatTurn engine request) := by
  unfold beginChatTurn
  refine .bind (keeps_call _ (.recallConversationContext request.userMessage
    (memoryRecallLimitForBudget (chooseReasoningBudget request.signals))) fun _ => rfl)
    fun recalled => .bind .read fun d => .bind (.checked _ _) ?_
  rintro ⟨tokens, retained⟩
  refine .bind (keeps_call _ (.beginTurn request.model.assetId request.model.version
    request.userMessage tokens request.maxNewTokens) fun _ => rfl) fun taskId => ?_
  exact .bind (keeps_call _ (.recordReasoningProfile taskId _ request.signals retained)
    fun _ => rfl) fun _ => .ret _

end Copies

/-! ## Thinking about the task of the turn -/

/-- A task that asks for something, and is open unless it is the one thought about. -/
def TaskAsks (taskId id : UInt64) (message : String) (c : CognitiveState) : Prop :=
  ∃ t, c.tasks[id]? = some t ∧ t.intent.objective = message ∧
    (id ≠ taskId → t.status.isTerminal = false)

/-- What happens to the task thought about leaves what it asks for. -/
theorem TaskAsks.modify {id : UInt64} {message : String} {c : CognitiveState}
    {f : CognitiveTask → CognitiveTask} (h : TaskAsks taskId id message c)
    (hf : ∀ t, (f t).intent = t.intent) :
    TaskAsks taskId id message { c with tasks := c.tasks.modify taskId f } := by
  obtain ⟨t, ht, hobjective, hopen⟩ := h
  by_cases hid : id = taskId
  · subst hid
    refine ⟨f t, getElem?_modify_eq_some.2 (.inl ⟨rfl, t, ht, rfl⟩), ?_, fun hne => absurd rfl hne⟩
    rw [hf, hobjective]
  · exact ⟨t, getElem?_modify_eq_some.2 (.inr ⟨hid, ht⟩), hobjective, hopen⟩

theorem closedAt_taskAsks (id : UInt64) (message : String) :
    ClosedAt taskId (TaskAsks taskId id message) where
  tick _ _ h := h
  memory _ _ h := h
  fact _ _ _ h _ := h
  goal _ _ _ _ h := h
  delta _ _ h := h
  move _ _ h hf := h.modify fun t => (hf t).intent

section Thinking

variable [SovereignMemory.CharTables]

open CognitiveRuntime CognitiveSession in
/-- The report tells the status of the task. -/
theorem triple_advance_status (taskId : UInt64) (signals : CognitiveSignals)
    (planner : CognitivePlanner W) (executor : CognitiveExecutor W)
    (verifier : CognitiveVerifier W) :
    Triple (fun _ => True) (advance taskId signals planner executor verifier)
      (fun report s => ∃ t, s.state.tasks[taskId]? = some t ∧ report.status = t.status)
      (fun _ _ => True) := by
  unfold advance
  refine triple_task_bind (fun s t _ ht => .branch (fun _ => .ret ?_) fun _ => ?_) fun _ _ => trivial
  · rintro _ rfl
    exact ⟨t, ht, rfl⟩
  · refine .bind (Q := fun _ _ => True) (.write fun _ _ => trivial) fun _ => ?_
    refine .bind (Q := fun _ _ => True) (Keeps.of_final fun _ _ => trivial).triple fun _ => ?_
    refine triple_task_bind (fun s t _ ht => .ret ?_) fun _ _ => trivial
    rintro _ rfl
    exact ⟨t, ht, rfl⟩

/-- What thinking leaves of a valid mind, and of a task that was open. -/
theorem triple_advance (taskId : UInt64) (signals : CognitiveSignals) (planner : CognitivePlanner W)
    (executor : CognitiveExecutor W) (verifier : CognitiveVerifier W) {s : CognitiveSession W}
    (hs : StateValid False s.state) :
    Triple (· = s) (CognitiveSession.advance taskId signals planner executor verifier)
      (fun report s' => StateValid False s'.state ∧ (report.status = .running →
        ∀ id message, OnTask s.state id message → OnTask s'.state id message))
      (fun _ _ => True) := by
  refine .of_exec fun t ht => ?_
  subst t
  have hvalid := (stateValid_step_iff (s := s) hs
    (.advance taskId signals planner executor verifier)).2 False.elim
  have hstatus := (triple_advance_status taskId signals planner executor verifier).exec_of
    (s := s) trivial
  have hasked : ∀ id message, OnTask s.state id message → TaskAsks taskId id message
      (exec (CognitiveSession.advance taskId signals planner executor verifier) s).2.state := by
    rintro id message ⟨t, ht, hobjective, hopen⟩
    have closed : ClosedAt taskId (TaskAsks taskId id message) := closedAt_taskAsks id message
    exact (CognitiveSession.keeps_advance closed closed.toClosed (fun _ h => h)
      (fun _ _ h _ _ => h) (fun _ f h hf => h.modify fun t => (hf t).intent) signals planner
      executor verifier).final (s := s) ⟨t, ht, hobjective, fun _ => hopen⟩
  simp only [CognitiveSession.step] at hvalid
  rcases hx : exec (CognitiveSession.advance taskId signals planner executor verifier) s
    with ⟨e | report, s'⟩
  · trivial
  · rw [hx] at hvalid hasked hstatus
    refine ⟨hvalid, fun hrunning id message honTask => ?_⟩
    obtain ⟨t, ht, hobjective, hopen⟩ := hasked id message honTask
    by_cases hid : id = taskId
    · subst hid
      obtain ⟨t', ht', heq⟩ := hstatus
      obtain rfl : t = t' := Option.some.inj (ht.symm.trans ht')
      exact ⟨t, ht, hobjective, by rw [← heq, hrunning]; rfl⟩
    · exact ⟨t, ht, hobjective, hopen hid⟩

/-- **Thinking that leaves the task running leaves the copy valid.** -/
theorem triple_reasoningCycle (engine : ChatEngine W) (model : NativeChatModel)
    (tokens : List UInt32) (signals : CognitiveSignals) :
    Triple Draft.Sound (reasoningCycle engine model tokens taskId signals)
      (fun report d => report.status = .running → d.Sound) (fun _ _ => True) := by
  unfold reasoningCycle
  refine .check_bind (fun probe _ => .of_exec fun d hd => ?_) fun _ _ _ _ => trivial
  refine Triple.exec_of (P := (· = d)) (.zoom (triple_advance taskId signals _ _ _ hd.cognition)
    (by rintro _ rfl; rfl) ?_ fun _ _ _ _ _ => trivial) rfl
  rintro _ report s' rfl ⟨hvalid, hopen⟩ hrunning
  exact ⟨hvalid, hd.turns, fun active hactive =>
    (hd.active active hactive).onward (hopen hrunning)⟩

/-- **A turn that was prepared is valid.** -/
theorem triple_prepareTurn (engine : ChatEngine W) (request : TurnRequest) :
    Triple Draft.Sound (prepareTurn engine request) (fun _ => Draft.Sound) (fun _ _ => True) := by
  unfold prepareTurn
  refine .bind (keeps_beginChatTurn engine request).weaken ?_
  rintro ⟨taskId, tokens⟩
  refine .bind (triple_reasoningCycle engine request.model tokens request.signals) fun report => ?_
  refine .refuse_bind (fun hruns => ?_) fun _ _ _ => trivial
  have hrunning : report.status = .running := not_not.1 fun h => hruns (.inr h)
  refine .conseq (P := Draft.Sound) ?_ (fun _ h => h hrunning) (fun _ _ h => h) fun _ _ h => h
  refine Keeps.weaken (.bind (keeps_call _ (.recordReasoningCycleReport taskId report)
    fun _ => rfl) fun _ => .bind (.checked _ _) fun outcome => ?_)
  exact .bind (keeps_settleOutcome engine _ outcome) fun _ => .ret _

end Thinking

/-! ## Behind the lock -/

/-- The conversation behind the lock is valid. -/
def NativeState.Sound (s : NativeState) : Prop := ConversationValid False s.conversation

def Bridge.Sound (b : Bridge W) : Prop := b.native.Sound

theorem keeps_setStatus (requestId : UInt64) (status : NativeChatSessionStatus) :
    Keeps NativeState.Sound (modify (·.setStatus requestId status) : NativeM PUnit) :=
  .write fun _ hs => hs

theorem keeps_sameModel (model : NativeChatModel) (unloaded changed : String) :
    Keeps NativeState.Sound (sameModel model unloaded changed) := by
  unfold sameModel
  refine .bind .read fun s => .bind (.option _ _) fun loaded => ?_
  exact .branch (fun _ => .of_triple (.raise fun _ hd => hd)) fun _ => .ret _

theorem keeps_nextTurn (requestId : UInt64) : Keeps NativeState.Sound (nextTurn requestId) := by
  unfold nextTurn
  refine .bind .read fun s => .bind (.option _ _) fun session => .bind (.option _ _) fun active => ?_
  refine .bind (.option _ _) fun model => .refuse_bind fun _ => ?_
  exact .bind (.checked _ _) fun allTokens => .ret _

/-- The copy a plan is continued on is valid. -/
theorem triple_pendingActions (requestId : UInt64) :
    Triple NativeState.Sound (pendingActions requestId)
      (fun pending s => s.Sound ∧ ∀ p ∈ pending, ConversationValid False p.2.2)
      (fun _ => NativeState.Sound) := by
  unfold pendingActions
  refine .read_bind fun s hs => .okOr_bind (fun session _ => .branch (fun _ => .ret ?_) fun _ => ?_)
    fun _ _ h => h ▸ hs
  · rintro _ rfl
    exact ⟨hs, fun p hp => absurd hp (Option.not_mem_none p)⟩
  · refine .okOr_bind (fun model _ => .ret ?_) fun _ _ h => h ▸ hs
    rintro _ rfl
    refine ⟨hs, fun p hp => ?_⟩
    obtain rfl := Option.some.inj hp
    exact hs

theorem keeps_commitActions (requestId taskId : UInt64) (conversation : SovereignConversationState)
    {advanced : SovereignConversationState} (h : ConversationValid False advanced) :
    Keeps NativeState.Sound (commitActions requestId taskId conversation advanced) := by
  unfold commitActions
  refine .bind .read fun s => .refuse_bind fun _ => .refuse_bind fun _ => ?_
  refine .bind (.write fun _ _ => h) fun _ => .write fun s hs => ?_
  split <;> exact hs

/-- The copy an approval works on is valid. -/
theorem triple_waitingTurn (requestId : UInt64) :
    Triple NativeState.Sound (waitingTurn requestId)
      (fun p s => s.Sound ∧ ConversationValid False p.2.2) (fun _ => NativeState.Sound) := by
  unfold waitingTurn
  refine .read_bind fun s hs => .okOr_bind (fun session _ => ?_) fun _ _ h => h ▸ hs
  refine .okOr_bind (fun model _ => .ret ?_) fun _ _ h => h ▸ hs
  rintro _ rfl
  exact ⟨hs, hs⟩

theorem keeps_commitDenial (requestId : UInt64) {conversation : SovereignConversationState}
    (h : ConversationValid False conversation) :
    Keeps NativeState.Sound (commitDenial requestId conversation) := by
  unfold commitDenial
  exact .bind .read fun s => .refuse_bind fun _ => .write fun _ _ => h

theorem keeps_commitApproval (requestId taskId : UInt64)
    {conversation : SovereignConversationState} (h : ConversationValid False conversation) :
    Keeps NativeState.Sound (commitApproval requestId taskId conversation) := by
  unfold commitApproval
  refine .bind .read fun s => .bind (.option _ _) fun session => .refuse_bind fun _ => ?_
  exact .write fun _ _ => h

theorem keeps_openChatModel (model : NativeChatModel) :
    Keeps NativeState.Sound (openChatModel model) :=
  .refuse_bind fun _ => .write fun _ hs => hs

/-- The copy a turn is prepared on is valid. -/
theorem triple_snapshotTurn (model : NativeChatModel) :
    Triple NativeState.Sound (snapshotTurn model)
      (fun conversation s => s.Sound ∧ ConversationValid False conversation)
      (fun _ => NativeState.Sound) := by
  unfold snapshotTurn
  refine .bind (Keeps.read (I := NativeState.Sound)).triple fun s => ?_
  refine .refuse_bind (fun _ => ?_) fun _ _ hs => hs
  refine .bind (keeps_sameModel model _ _).triple fun _ => .read_bind fun s hs => .ret ?_
  rintro _ rfl
  exact ⟨hs, hs⟩

theorem keeps_commitTurn (model : NativeChatModel) (snapshot : SovereignConversationState)
    {conversation : SovereignConversationState} (h : ConversationValid False conversation)
    (taskId : UInt64) (status : NativeChatSessionStatus) :
    Keeps NativeState.Sound (commitTurn model snapshot conversation taskId status) := by
  unfold commitTurn
  refine .bind (keeps_sameModel model _ _) fun _ => .bind .read fun s => .refuse_bind fun _ => ?_
  exact .bind (.option _ _) fun next => .bind (.write fun _ _ => h) fun _ => .ret _

section Locked

variable [SovereignMemory.CharTables]

theorem keeps_native {α : Type} (what : String) {x : ConversationM α} (op : ConversationOp)
    (hx : ∀ s, (exec x s).2 = s.step op) : Keeps NativeState.Sound (inNativeConversation what x) :=
  .zoom (keeps_valid op hx) (fun _ hs => hs) fun _ _ _ h => h

theorem keeps_recoverOrphanedChatTurn : Keeps NativeState.Sound recoverOrphanedChatTurn := by
  unfold recoverOrphanedChatTurn
  refine .bind .read fun s => ?_
  split
  · exact .ret _
  · exact .bind (keeps_native _ (.cancelTurn _ _) fun _ => rfl) fun _ => .write fun _ hs => hs

theorem keeps_reserveTurn : Keeps NativeState.Sound reserveTurn := by
  unfold reserveTurn
  refine .bind .read fun s => .refuse_bind fun _ => .bind (.option _ _) fun model => ?_
  refine .bind keeps_recoverOrphanedChatTurn fun _ => .bind (.write fun _ hs => hs) fun _ => ?_
  exact .bind .read fun s => .ret _

theorem keeps_finishTurn (requestId taskId : UInt64) :
    Keeps NativeState.Sound (finishTurn requestId taskId) :=
  .bind (keeps_native _ (.completeTurn taskId) fun _ => rfl) fun _ => keeps_setStatus _ _

theorem keeps_cancelChat (requestId : UInt64) : Keeps NativeState.Sound (cancelChat requestId) := by
  unfold cancelChat
  refine .bind .read fun s => ?_
  split
  · exact .ret _
  · refine .bind (.write fun _ hs => hs) fun _ => .branch (fun _ => ?_) fun _ => ?_
    · exact .bind (keeps_setStatus _ _) fun _ => .ret _
    · refine .bind (Secrecy.keeps_attempt (keeps_native _ (.cancelTurn _ _) fun _ => rfl)) fun answer => ?_
      cases answer <;> exact .bind (keeps_setStatus _ _) fun _ => .ret _

theorem keeps_appendToken (requestId taskId : UInt64) (eosToken : Option UInt32) (token : UInt32)
    (piece : String) :
    Keeps NativeState.Sound (appendToken requestId taskId eosToken token piece) := by
  unfold appendToken
  refine .bind .read fun s => .branch (fun _ => ?_) fun _ => .ret _
  refine .bind (keeps_native _ (.appendGenerated taskId token piece) fun _ => rfl) fun _ => ?_
  refine .bind .read fun s => .bind (.option _ _) fun active => ?_
  exact .bind (.branch (fun _ => keeps_finishTurn _ _) fun _ => .ret _) fun _ => .ret _

end Locked

/-- A state within its budgets is a state. -/
theorem StateValid.mono {bounded bounded' : Prop} {s : CognitiveState} (h : StateValid bounded s)
    (hb : bounded' → bounded) : StateValid bounded' s :=
  ⟨h.goals, h.tasks.mono fun _ _ ht => ⟨ht.keyed, ht.objective, ht.budget_ne, ht.goal,
    fun hb' => ht.within (hb hb')⟩, h.world, h.deltas⟩

theorem ActiveValid.mono {bounded bounded' : Prop} {c : CognitiveState}
    {active : ActiveConversationTurn} (h : ActiveValid bounded c active) (hb : bounded' → bounded) :
    ActiveValid bounded' c active :=
  { h with limits := fun hb' => h.limits (hb hb') }

/-- **A restored conversation is valid.** -/
theorem conversationValid_of_decode {bytes : Bytes} {conversation : SovereignConversationState}
    (h : decodeConversationCheckpoint bytes = .ok conversation) :
    ConversationValid False conversation := by
  obtain ⟨⟨minor, payload⟩, -, h⟩ := bind_eq_ok.1 h
  obtain ⟨p, hp, hparts⟩ := bind_eq_ok.1 h
  obtain ⟨len, r₁, -, hread⟩ := reads_bind.1 (readAll_eq_ok.1 hp)
  obtain ⟨embedded, r₂, hembedded, hread⟩ := reads_bind.1 hread
  obtain ⟨turns, r₃, -, hread⟩ := reads_bind.1 hread
  obtain ⟨active, r₄, -, hread⟩ := reads_bind.1 hread
  obtain ⟨rfl, -⟩ := reads_pure.1 hread
  obtain ⟨b, r₅, -, hfile⟩ := reads_bind.1 hembedded
  obtain ⟨state, r₆, -, hfile⟩ := reads_bind.1 hfile
  obtain ⟨cognition, r₇, hcognition, hfile⟩ := reads_bind.1 hfile
  obtain ⟨rfl, -⟩ := reads_pure.1 hfile
  obtain ⟨hfrom, -⟩ := reads_lift.1 hcognition
  obtain ⟨hstate, rfl⟩ := fromState_eq_ok.1 (mapError_eq_ok.1 hfrom)
  have hvalid : StateValid False state :=
    (validateState_eq_ok.1 hstate).mono False.elim
  obtain ⟨haccepted, hp⟩ := fromParts_eq_ok.1 hparts
  have hmind : conversation.cognition = state := by
    rw [SovereignConversationState.payload] at hp
    exact (congrArg (fun p : ConversationCheckpoint.Payload => p.embedded.2) hp).symm
  refine ⟨hmind ▸ hvalid, validateTurns_eq_ok.1 haccepted.turns, fun active hactive => ?_⟩
  exact (validateActive_eq_ok.1 haccepted.active active hactive).mono False.elim

/-! ## The calls of the host -/

theorem keeps_locked {α : Type} {x : NativeM α} (h : Keeps NativeState.Sound x) :
    Keeps (Bridge.Sound (W := W)) (locked x) :=
  h.zoom (fun _ hb => hb) fun _ _ _ h => h

theorem triple_locked {α : Type} {x : NativeM α} {Q : α → Prop}
    (h : Triple NativeState.Sound x (fun a s => s.Sound ∧ Q a) (fun _ => NativeState.Sound)) :
    Triple (Bridge.Sound (W := W)) (locked x) (fun a b => b.Sound ∧ Q a) (fun _ => Bridge.Sound) :=
  h.zoom (fun _ hb => hb) (fun _ _ _ _ h => h) fun _ _ _ _ h => h

/-- Work on a valid copy gives a valid copy back, or nothing. -/
theorem triple_onClone {α : Type} {conversation : SovereignConversationState} {x : DraftM W α}
    (hvalid : ConversationValid False conversation)
    (h : Triple Draft.Sound x (fun _ => Draft.Sound) (fun _ _ => True)) :
    Triple Bridge.Sound (onClone conversation x)
      (fun r b => b.Sound ∧ ConversationValid False r.2) (fun _ => Bridge.Sound) := by
  unfold onClone
  refine .read_bind fun b hb => .of_exec fun b' heq => ?_
  obtain rfl : b' = b := heq
  have hx := h.exec_of (s := { conversation, session := .new .new b'.world }) hvalid
  rcases hexec : exec x { conversation, session := .new .new b'.world } with ⟨e | a, draft⟩
  · simp only [exec_modify_bind, exec_check_error_bind]
    exact hb
  · rw [hexec] at hx
    simp only [exec_modify_bind, exec_check_ok_bind, exec_pure]
    exact ⟨hb, hx⟩

section Entry

variable [SovereignMemory.CharTables]

theorem keeps_submitChat (engine : ChatEngine W) (userMessage : String) (maxNewTokens : ℕ) :
    Keeps Bridge.Sound (submitChat engine userMessage maxNewTokens) := by
  have hreserved : ∀ (model : NativeChatModel) (history : List ConversationTurn) (failed : Bool),
      Keeps Bridge.Sound
        (submitChatReserved engine model history failed userMessage maxNewTokens) := by
    intro model history failed
    unfold submitChatReserved
    refine .bind (.checked _ _) fun signals => .of_triple ?_
    refine .bind (triple_locked (triple_snapshotTurn model)) fun snapshot => ?_
    refine .of_exec fun b hb => Triple.exec_of (P := Bridge.Sound) ?_ hb.1
    refine .bind (triple_onClone hb.2 (triple_prepareTurn engine _)) ?_
    rintro ⟨⟨taskId, status⟩, conversation⟩
    refine .of_exec fun b hb => Triple.exec_of (P := Bridge.Sound) ?_ hb.1
    exact (keeps_locked (keeps_commitTurn model snapshot hb.2 taskId status)).triple
  unfold submitChat
  refine .refuse_bind fun _ => .bind (keeps_locked keeps_reserveTurn) ?_
  rintro ⟨model, history, failed⟩
  refine .bind (Secrecy.keeps_attempt (hreserved model history failed)) fun answer => ?_
  exact .bind (.write fun _ hb => hb) fun _ => .checked _ _

theorem keeps_advancePendingChatActions (engine : ChatEngine W) (requestId : UInt64) :
    Keeps Bridge.Sound (advancePendingChatActions engine requestId) := by
  unfold advancePendingChatActions
  refine .of_triple (.bind (triple_locked (triple_pendingActions requestId)) fun pending => ?_)
  refine .of_exec fun b hb => Triple.exec_of (P := Bridge.Sound) ?_ hb.1
  rcases pending with _ | ⟨taskId, model, conversation⟩
  · exact (Keeps.ret (I := Bridge.Sound) _).triple
  · refine .bind (triple_onClone (hb.2 _ rfl) (keeps_continueActions engine model).weaken) ?_
    rintro ⟨note, advanced⟩
    refine .of_exec fun b hb => Triple.exec_of (P := Bridge.Sound) ?_ hb.1
    exact (Keeps.bind (keeps_locked (keeps_commitActions requestId taskId conversation hb.2))
      fun _ => .ret _).triple

theorem keeps_nextToken (engine : ChatEngine W) (requestId : UInt64) :
    Keeps Bridge.Sound (nextToken engine requestId) := by
  unfold nextToken
  refine .bind (keeps_locked (keeps_nextTurn requestId)) fun turn => .branch (fun _ => ?_) fun _ => ?_
  · exact .bind (keeps_locked (keeps_finishTurn _ _)) fun _ => .ret _
  · refine .branch (fun _ => .bind (keeps_locked (keeps_cancelChat _)) fun _ => .ret _) fun _ => ?_
    refine .bind (.checked _ _) fun generated => .bind (.option _ _) fun token => ?_
    exact .bind (.checked _ _) fun piece => keeps_locked (keeps_appendToken _ _ _ _ _)

theorem keeps_nextChatEvent (engine : ChatEngine W) (requestId : UInt64) :
    Keeps Bridge.Sound (nextChatEvent engine requestId) := by
  unfold nextChatEvent
  refine .bind .read fun b => ?_
  split
  · exact .ret _
  · refine .bind (keeps_advancePendingChatActions engine requestId) fun pending => ?_
    cases pending with
    | some event => exact .ret _
    | none => exact keeps_nextToken engine requestId

theorem keeps_nativeNextChatEvent (engine : ChatEngine W) (requestId : UInt64) :
    Keeps Bridge.Sound (nativeNextChatEvent engine requestId) := by
  unfold nativeNextChatEvent
  refine .bind (Secrecy.keeps_attempt (keeps_nextChatEvent engine requestId)) fun answer => ?_
  cases answer with
  | ok event => exact .ret _
  | error e => exact .bind (.write fun _ hb => hb) fun _ => .ret _

theorem keeps_resolveChatApproval (engine : ChatEngine W) (requestId : UInt64) (approved : Bool) :
    Keeps Bridge.Sound (resolveChatApproval engine requestId approved) := by
  unfold resolveChatApproval
  refine .of_triple (.bind (triple_locked (triple_waitingTurn requestId)) ?_)
  rintro ⟨taskId, model, conversation⟩
  refine .of_exec fun b hb => Triple.exec_of (P := Bridge.Sound) ?_ hb.1
  refine .bind (Q := fun _ => Bridge.Sound) (.branch (fun _ => ?_) fun _ => ?_) fun _ =>
    (Keeps.ret (I := Bridge.Sound) _).triple
  · refine .bind (triple_onClone hb.2 (keeps_approveTurn engine model).weaken) ?_
    rintro ⟨⟨⟩, advanced⟩
    refine .of_exec fun b hb => Triple.exec_of (P := Bridge.Sound) ?_ hb.1
    exact (keeps_locked (keeps_commitApproval requestId taskId hb.2)).triple
  · refine .bind (triple_onClone hb.2 keeps_denyTurn.weaken) ?_
    rintro ⟨⟨⟩, advanced⟩
    refine .of_exec fun b hb => Triple.exec_of (P := Bridge.Sound) ?_ hb.1
    exact (keeps_locked (keeps_commitDenial requestId hb.2)).triple

theorem keeps_restoreChatCheckpoint (bytes : Bytes) :
    Keeps NativeState.Sound (restoreChatCheckpoint bytes) := by
  unfold restoreChatCheckpoint
  refine .of_triple (.check_bind (fun conversation hdecode => ?_) fun _ _ _ hs => hs)
  have hvalid := conversationValid_of_decode hdecode
  refine Keeps.triple (.bind (.write fun _ _ => hvalid) fun _ => ?_)
  split
  · exact .bind (.write fun _ hs => hs) fun _ => .ret _
  · refine .bind .read fun s => .bind (.option _ _) fun next => .bind (.write fun _ hs => hs) fun _ => ?_
    refine .bind (.branch (fun _ => ?_) fun _ => .ret _) fun _ => ?_
    · exact keeps_native _ (.setChatApprovalStatus _ _) fun _ => rfl
    · exact .bind (.write fun _ hs => hs) fun _ => .ret _

/-- **Every call keeps the conversation valid.** -/
theorem sound_step {b : Bridge W} (hb : b.Sound) (call : ChatEngine W × ChatCall) :
    (b.step call).Sound := by
  obtain ⟨engine, call⟩ := call
  have hkeeps : Keeps Bridge.Sound (call.perform engine) := by
    cases call with
    | openModel model => exact keeps_locked (keeps_openChatModel model)
    | submit message max => exact .bind (keeps_submitChat engine message max) fun _ => .ret _
    | next requestId => exact .bind (keeps_nativeNextChatEvent engine requestId) fun _ => .ret _
    | cancel requestId => exact .bind (keeps_locked (keeps_cancelChat requestId)) fun _ => .ret _
    | resolve requestId approved =>
      exact .bind (keeps_resolveChatApproval engine requestId approved) fun _ => .ret _
    | restore bytes => exact .bind (keeps_locked (keeps_restoreChatCheckpoint bytes)) fun _ => .ret _
  exact hkeeps.final hb

/-- **The states that runs of calls lead to**, whatever the models and the platform answer. -/
def Bridge.Reached (b : Bridge W) : Prop :=
  ∃ world calls, b = Machine.run Bridge.step (.start world) calls

/-- **In every state reached the conversation is valid.** -/
theorem Bridge.Reached.sound {b : Bridge W} (h : b.Reached) : b.Sound := by
  obtain ⟨world, calls, rfl⟩ := h
  refine Machine.invariant_run (I := Bridge.Sound) (fun b call hb => sound_step hb call) calls ?_
  exact conversationValid_new False _

end Entry

end NTD97
