import Mathlib
import NTD97.Conversation

/-!
# Conversation/Steps — what the validators decide, and what each call does

    thought │ edited │ completed │ cancelled          begun

`Moves s s'` lists what a call other than `beginTurn` can do to a conversation, failures included;
every invariant is read off that list.  The limits on the texts and the token budget of a turn are
part of `ActiveValid bounded` only when `bounded` holds, since `beginTurn` does not ask for them.
-/

namespace NTD97

open Guard Effect Text SortedMap Machine Wire

/-! ## The valid histories

A history alternates between the two speakers, starting with the user, and ends with an answer. -/

/-- A turn that says something, is short enough, and is of the speaker whose place it is. -/
structure TurnValid (index : ℕ) (turn : ConversationTurn) : Prop where
  said : isBlank turn.content = false
  short : turn.content.utf8ByteSize ≤ maxTextBytes
  role : turn.role = expectedRole index

/-- A history whose turns are valid and come in pairs. -/
structure TurnsValid (turns : List ConversationTurn) : Prop where
  few : turns.length ≤ maxTurns
  even : turns.length % 2 = 0
  turn : ∀ i t, turns[i]? = some t → TurnValid i t

/-- **What the validator of histories decides.** -/
theorem validateTurns_eq_ok {turns : List ConversationTurn} :
    validateTurns turns = .ok () ↔ TurnsValid turns := by
  have hturn : ∀ (t : ConversationTurn) (i : ℕ), ((isBlank t.content = false ∧
      t.content.utf8ByteSize ≤ maxTextBytes) ∧ t.role = expectedRole i) ↔ TurnValid i t := by
    intro t i
    constructor
    · rintro ⟨⟨h₁, h₂⟩, h₃⟩
      exact ⟨h₁, h₂, h₃⟩
    · rintro ⟨h₁, h₂, h₃⟩
      exact ⟨⟨h₁, h₂⟩, h₃⟩
  simp only [validateTurns, bind_eq_ok, exists_unit, refuse_eq_ok, forM_eq_ok, not_or,
    Bool.not_eq_true, hturn, Prod.forall, List.mem_zipIdx_iff_getElem?, not_lt, ne_eq, not_not]
  constructor
  · rintro ⟨⟨h₁, h₂⟩, h₃⟩
    exact ⟨h₁, h₂, fun i t ht => h₃ t i ht⟩
  · rintro ⟨h₁, h₂, h₃⟩
    exact ⟨⟨h₁, h₂⟩, fun t i ht => h₃ i t ht⟩

/-- The history of a new conversation. -/
theorem turnsValid_nil : TurnsValid [] := ⟨Nat.zero_le _, rfl, fun _ _ h => by simp at h⟩

/-- **A question and its answer fit a valid history** if there is room and both say something and
are short enough. -/
theorem turnsValid_append_iff {turns : List ConversationTurn} (h : TurnsValid turns)
    {message answer : String} (hmessage : isBlank message = false)
    (hanswer : isBlank answer = false) (hshort : answer.utf8ByteSize ≤ maxTextBytes) :
    TurnsValid (turns ++ [.user message, .assistant answer]) ↔
      turns.length + 2 ≤ maxTurns ∧ message.utf8ByteSize ≤ maxTextBytes := by
  have hfirst : (turns ++ [ConversationTurn.user message, .assistant answer])[turns.length]? =
      some (.user message) := by simp
  have heven : expectedRole turns.length = .user := if_pos h.even
  have hodd : expectedRole (turns.length + 1) = .assistant := by
    have heven := h.even
    exact if_neg (by omega)
  constructor
  · intro hall
    have hfew := hall.few
    rw [List.length_append] at hfew
    exact ⟨hfew, (hall.turn _ _ hfirst).short⟩
  · rintro ⟨hroom, hlen⟩
    refine ⟨?_, ?_, fun i t ht => ?_⟩
    · rw [List.length_append]
      exact hroom
    · have heven := h.even
      rw [List.length_append, List.length_cons, List.length_singleton]
      omega
    · rcases Nat.lt_or_ge i turns.length with hi | hi
      · rw [List.getElem?_append_left hi] at ht
        exact h.turn i t ht
      · obtain ⟨k, rfl⟩ := Nat.exists_eq_add_of_le hi
        rw [List.getElem?_append_right hi, Nat.add_sub_cancel_left] at ht
        match k, ht with
        | 0, ht =>
          obtain rfl := Option.some.inj ht
          exact ⟨hmessage, hlen, heven.symm⟩
        | 1, ht =>
          obtain rfl := Option.some.inj ht
          exact ⟨hanswer, hshort, hodd.symm⟩

/-! ## The valid turns in progress

What is stored of a turn in progress is checked against the mind's task for it. -/

/-- The limits a stored turn has to respect and `beginTurn` does not check. -/
structure WithinLimits (asset message : String) (maxNewTokens : ℕ) : Prop where
  asset : asset.utf8ByteSize ≤ maxTextBytes
  message : message.utf8ByteSize ≤ maxTextBytes
  tokens : maxNewTokens ≤ maxTokens

/-- The mind works on the task of the turn. -/
def OnTask (cognition : CognitiveState) (taskId : UInt64) (message : String) : Prop :=
  ∃ t, cognition.tasks[taskId]? = some t ∧ t.intent.objective = message ∧
    t.status.isTerminal = false

/-- **A valid turn in progress**, within the limits if `bounded`. -/
structure ActiveValid (bounded : Prop) (cognition : CognitiveState)
    (active : ActiveConversationTurn) : Prop where
  taskId_ne : active.taskId ≠ 0
  asset : isBlank active.modelAssetId = false
  version_ne : active.modelVersion ≠ 0
  message : isBlank active.userMessage = false
  prompt_ne : active.promptTokens ≠ []
  prompt_le : active.promptTokens.length ≤ maxTokens
  generated : active.generatedTokens.length ≤ active.maxNewTokens
  text : active.generatedText.utf8ByteSize ≤ maxTextBytes
  checkpoint : ∀ c, active.actionFabricCheckpoint = some c → ¬ notFabricCheckpoint c
  max_ne : active.maxNewTokens ≠ 0
  limits : bounded → WithinLimits active.modelAssetId active.userMessage active.maxNewTokens
  task : OnTask cognition active.taskId active.userMessage

/-- The saved action fabric, if there is one, is a file of the fabric. -/
theorem any_notFabricCheckpoint_iff {o : Option Bytes} :
    o.any (notFabricCheckpoint ·) = false ↔ ∀ c, o = some c → ¬ notFabricCheckpoint c := by
  cases o with
  | none => simp
  | some c => simp

/-- **What the validator of a turn in progress decides**: all limits are asked for. -/
theorem validateActive_some_eq_ok {cognition : CognitiveState} {active : ActiveConversationTurn} :
    validateActive cognition (some active) = .ok () ↔ ActiveValid True cognition active := by
  simp only [validateActive, bind_eq_ok, exists_unit, refuse_eq_ok, okOr_eq_ok, not_or, not_lt,
    Bool.not_eq_true, any_notFabricCheckpoint_iff, ne_eq, not_not]
  constructor
  · rintro ⟨⟨h₁, h₂, h₃, h₄, h₅, h₆, h₇, h₈, h₉, -, h₁₁, h₁₂, h₁₃, h₁₄⟩, t, ht, hobj, hstatus⟩
    exact ⟨h₁, h₂, h₄, h₅, h₇, h₈, h₉, h₁₁, h₁₂, h₁₃, fun _ => ⟨h₃, h₆, h₁₄⟩,
      t, ht, hobj, hstatus⟩
  · intro h
    obtain ⟨hasset, hmessage, htokens⟩ := h.limits trivial
    exact ⟨⟨h.taskId_ne, h.asset, hasset, h.version_ne, h.message, hmessage, h.prompt_ne,
      h.prompt_le, h.generated, h.generated.trans htokens, h.text, h.checkpoint, h.max_ne, htokens⟩,
      h.task⟩

/-- **A valid conversation**, its turn in progress within the limits if `bounded`. -/
structure ConversationValid (bounded : Prop) (s : SovereignConversationState) : Prop where
  cognition : StateValid False s.cognition
  turns : TurnsValid s.turns
  active : ∀ active, s.active = some active → ActiveValid bounded s.cognition active

/-- A new conversation is valid, its mind being so. -/
theorem conversationValid_new (bounded : Prop) (identity : CognitiveIdentity) :
    ConversationValid bounded (.new identity) :=
  ⟨stateValid_new False identity, turnsValid_nil, fun _ h => nomatch h⟩

/-! ## What the calls do

Most calls are a thought of the mind or an edit of the turn in progress; two end the turn. -/

/-- The mind moved on without touching a task's objective or status, or storing anything. -/
structure Thought (c c' : CognitiveState) : Prop where
  valid : StateValid False c → StateValid False c'
  tick_le : c.tick.toNat ≤ c'.tick.toNat
  nextId_eq : c'.memory.nextId = c.memory.nextId
  onTask : ∀ id message, OnTask c id message → OnTask c' id message

/-- No thought. -/
theorem Thought.refl (c : CognitiveState) : Thought c c :=
  ⟨fun h => h, Nat.le_refl _, rfl, fun _ _ h => h⟩

/-- One thought after another. -/
theorem Thought.trans {a b c : CognitiveState} (hab : Thought a b) (hbc : Thought b c) :
    Thought a c :=
  ⟨fun h => hbc.valid (hab.valid h), hab.tick_le.trans hbc.tick_le,
    hbc.nextId_eq.trans hab.nextId_eq, fun id m h => hbc.onTask id m (hab.onTask id m h)⟩

/-- What a call other than `beginTurn` can do to a conversation. -/
inductive Moves (s : SovereignConversationState) : SovereignConversationState → Prop
  | thought (cognition : CognitiveState) (h : Thought s.cognition cognition) :
    Moves s { s with cognition }
  | edited (active active' : ActiveConversationTurn) (hs : s.active = some active)
    (h : ∀ bounded c, ActiveValid bounded c active → ActiveValid bounded c active') :
    Moves s { s with active := some active' }
  | completed (active : ActiveConversationTurn) (cognition : CognitiveState)
    (hs : s.active = some active)
    (valid : StateValid False s.cognition → StateValid False cognition)
    (htick : cognition.tick.toNat = s.cognition.tick.toNat + 1)
    (hnext : cognition.memory.nextId.toNat = s.cognition.memory.nextId.toNat + 2)
    (hturns : TurnsValid (s.turns ++ [.user active.userMessage, .assistant active.generatedText])) :
    Moves s {
      cognition
      turns := s.turns ++ [.user active.userMessage, .assistant active.generatedText]
      active := none }
  | cancelled (active : ActiveConversationTurn) (cognition : CognitiveState)
    (hs : s.active = some active)
    (valid : StateValid False s.cognition → StateValid False cognition)
    (htick : cognition.tick.toNat = s.cognition.tick.toNat + 1)
    (hnext : cognition.memory.nextId.toNat ≤ s.cognition.memory.nextId.toNat + 1) :
    Moves s { s with cognition, active := none }

/-- A call that does nothing, as one that is refused. -/
theorem Moves.refl (s : SovereignConversationState) : Moves s s := .thought s.cognition (.refl _)

/-! ### The parts of a call

A call works on a copy of the mind and puts it back only when it succeeds. -/

namespace SovereignConversationState

section Rules

variable {s : SovereignConversationState} {taskId : UInt64} {α β : Type}
  {R : β → SovereignConversationState → Prop}
  {E : ConversationStateError → SovereignConversationState → Prop}

/-- A step on a copy that succeeds hands the copy on. -/
theorem exec_clone_ok {x : CognitionM α} {c c' : CognitiveState} {a : α}
    {f : α × CognitiveState → ConversationM β} (h : exec x c = (.ok a, c')) :
    exec (clone x c >>= f) s = exec (f (a, c')) s := by
  refine exec_bind_ok ?_
  rw [clone, h]
  rfl

/-- A step on a copy that fails leaves the conversation alone. -/
theorem exec_clone_error {x : CognitionM α} {c c' : CognitiveState} {e : CognitiveError}
    {f : α × CognitiveState → ConversationM β} (h : exec x c = (.error e, c')) :
    exec (clone x c >>= f) s = (.error (.cognitive e), s) := by
  refine exec_bind_error ?_
  rw [clone, h]
  rfl

/-- The rule for a step on a copy. -/
theorem triple_clone_bind {x : CognitionM α} {c : CognitiveState}
    {f : α × CognitiveState → ConversationM β}
    (hok : ∀ a c', exec x c = (.ok a, c') → Triple (· = s) (f (a, c')) R E)
    (herr : ∀ e, E e s) : Triple (· = s) (clone x c >>= f) R E := by
  refine .of_exec fun t ht => ?_
  subst t
  rcases hx : exec x c with ⟨e | a, c'⟩
  · rw [exec_clone_error hx]
    exact herr _
  · rw [exec_clone_ok hx]
    exact (hok a c' hx).exec_of rfl

/-- The turn in progress, asked for by its own task. -/
theorem exec_activeTurn {active : ActiveConversationTurn} (hactive : s.active = some active)
    (htask : active.taskId = taskId) : exec (activeTurn taskId) s = (.ok active, s) := by
  rw [activeTurn, exec_get_bind, hactive, exec_okOr_some_bind, ensureTask,
    exec_refuse_of_neg (not_not.2 htask), exec_pure]

/-- The rule for asking for the turn in progress. -/
theorem triple_activeTurn_bind {f : ActiveConversationTurn → ConversationM β}
    (hok : ∀ active, s.active = some active → active.taskId = taskId →
      Triple (· = s) (f active) R E)
    (herr : ∀ e, E e s) : Triple (· = s) (activeTurn taskId >>= f) R E := by
  refine .of_exec fun t ht => ?_
  subst t
  cases hactive : s.active with
  | none =>
    have hexec : exec (activeTurn taskId) s = (.error .missingActiveTurn, s) := by
      rw [activeTurn, exec_get_bind, hactive, exec_okOr_none_bind]
    rw [exec_bind_error hexec]
    exact herr _
  | some active =>
    by_cases htask : active.taskId = taskId
    · rw [exec_bind_ok (exec_activeTurn hactive htask)]
      exact (hok active hactive htask).exec_of rfl
    · have hexec : exec (activeTurn taskId) s = (.error (.taskMismatch active.taskId taskId), s) := by
        rw [activeTurn, exec_get_bind, hactive, exec_okOr_some_bind, ensureTask,
          exec_refuse_of_pos htask]
      rw [exec_bind_error hexec]
      exact herr _

end Rules

/-! ### Facts about the world

Recording a fact changes nothing that the validators look at. -/

/-- The conversation is as it was, but for a thought of the mind. -/
def Thoughtful (s s' : SovereignConversationState) : Prop :=
  ∃ cognition, Thought s.cognition cognition ∧ s' = { s with cognition }

/-- No thought. -/
theorem Thoughtful.refl (s : SovereignConversationState) : Thoughtful s s :=
  ⟨s.cognition, .refl _, rfl⟩

/-- A thought is a move. -/
theorem Thoughtful.moves {s s' : SovereignConversationState} : Thoughtful s s' → Moves s s'
  | ⟨cognition, h, heq⟩ => heq ▸ .thought cognition h

/-- **Recording a fact is a thought**: ticks, memory and tasks are as before. -/
theorem thought_setWorldFact (c : CognitiveState) (key value : String) :
    Thought c (exec (CognitiveState.setWorldFact key value) c).2 := by
  have hframe : Keeps (fun c' => c'.tick = c.tick ∧ c'.memory = c.memory ∧ c'.tasks = c.tasks)
      (CognitiveState.setWorldFact key value) := by
    unfold CognitiveState.setWorldFact
    exact .refuse_bind fun _ => .bind .read fun _ => .write fun _ h => h
  have hvalid : StateValid False c → StateValid False _ :=
    (closed_stateValid.setWorldFact key value).final (s := c)
  have hleft := hframe.final (s := c) ⟨rfl, rfl, rfl⟩
  generalize (exec (CognitiveState.setWorldFact key value) c).2 = c' at hvalid hleft ⊢
  obtain ⟨htick, hmemory, htasks⟩ := hleft
  refine ⟨hvalid, ?_, ?_, fun id m h => ?_⟩
  · rw [htick]
  · rw [hmemory]
  · rw [OnTask, htasks]
    exact h

variable {s : SovereignConversationState} {taskId : UInt64}

/-- Recording a fact leaves the rest of the conversation. -/
theorem keeps_setFact (key value : String) : Keeps (Thoughtful s) (setFact key value) := by
  refine .of_final fun t ht => ?_
  obtain ⟨cognition, hthought, rfl⟩ := ht
  rw [setFact, exec_zoom]
  exact ⟨_, hthought.trans (thought_setWorldFact cognition key value), rfl⟩

/-- Looking a task up changes nothing. -/
theorem keeps_knownTask {I : SovereignConversationState → Prop} : Keeps I (knownTask taskId) :=
  .bind .read fun _ => .of_triple (.branch (fun _ => .raise fun _ h => h) fun _ => .ret fun _ h => h)

/-- Three facts about an approval. -/
theorem keeps_recordChatApproval (capability rationale status : String) :
    Keeps (Thoughtful s) (recordChatApproval taskId capability rationale status) := by
  unfold recordChatApproval
  refine .refuse_bind fun _ => .bind keeps_knownTask fun _ => ?_
  exact .bind (keeps_setFact ..) fun _ => .bind (keeps_setFact ..) fun _ => keeps_setFact ..

theorem keeps_setChatApprovalStatus (status : String) :
    Keeps (Thoughtful s) (setChatApprovalStatus taskId status) := by
  unfold setChatApprovalStatus
  exact .refuse_bind fun _ => .bind .read fun _ => .refuse_bind fun _ => keeps_setFact ..

theorem keeps_recordActionPlannerStatus (status : String) :
    Keeps (Thoughtful s) (recordActionPlannerStatus taskId status) := by
  unfold recordActionPlannerStatus
  exact .refuse_bind fun _ => .bind keeps_knownTask fun _ => keeps_setFact ..

theorem keeps_recordVerifiedActionCount (count : ℕ) :
    Keeps (Thoughtful s) (recordVerifiedActionCount taskId count) :=
  .bind keeps_knownTask fun _ => keeps_setFact ..

theorem keeps_recordVerifiedSynthesisReady :
    Keeps (Thoughtful s) (recordVerifiedSynthesisReady taskId) :=
  .bind keeps_knownTask fun _ => keeps_setFact ..

theorem keeps_recordReasoningProfile (budget : ReasoningBudget) (signals : CognitiveSignals)
    (items : ℕ) : Keeps (Thoughtful s) (recordReasoningProfile taskId budget signals items) := by
  unfold recordReasoningProfile
  refine .bind keeps_knownTask fun _ => .bind (keeps_setFact ..) fun _ => ?_
  exact .bind (keeps_setFact ..) fun _ => .bind (keeps_setFact ..) fun _ => keeps_setFact ..

theorem keeps_recordReasoningCycleReport (report : CognitiveCycleReport) :
    Keeps (Thoughtful s) (recordReasoningCycleReport taskId report) := by
  unfold recordReasoningCycleReport
  refine .refuse_bind fun _ => .bind keeps_knownTask fun _ => ?_
  exact .bind (keeps_setFact ..) fun _ => keeps_setFact ..

/-! ### Plans and recollections

The plan of a task and a recollection are thoughts, too. -/

/-- A task's plan does not touch its objective or status. -/
theorem thought_planned (c : CognitiveState) (taskId : UInt64) (graph : TaskGraph) :
    Thought c { c with tasks := c.tasks.modify taskId ({ · with graph }) } := by
  refine ⟨fun h => ?_, Nat.le_refl _, rfl, fun id m ⟨t, ht, hobj, hstatus⟩ => ?_⟩
  · exact (closedAt_stateValid taskId).move c _ h fun _ => ⟨rfl, rfl, rfl, rfl⟩
  · by_cases hid : id = taskId
    · subst hid
      exact ⟨_, getElem?_modify_eq_some.2 (.inl ⟨rfl, t, ht, rfl⟩), hobj, hstatus⟩
    · exact ⟨t, getElem?_modify_eq_some.2 (.inr ⟨hid, ht⟩), hobj, hstatus⟩

/-- The graph is installed in the mind's task. -/
theorem triple_installActionTaskGraph (graph : TaskGraph) :
    Triple (· = s) (installActionTaskGraph taskId graph) (fun _ => Thoughtful s)
      (fun _ => Thoughtful s) := by
  have hrefl : ∀ t, t = s → Thoughtful s t := fun t ht => ht ▸ .refl s
  unfold installActionTaskGraph
  refine .read_bind fun t ht => ?_
  subst t
  refine triple_activeTurn_bind (fun _ _ _ => ?_) fun _ => .refl s
  refine .check_bind (fun _ _ => .okOr_bind (fun task _ => ?_) fun _ => hrefl) fun _ _ => hrefl
  refine .refuse_bind (fun _ => ?_) fun _ => hrefl
  refine triple_clone_bind (fun _ c' hexec => ?_) fun _ => .refl s
  rw [exec_modify_bind] at hexec
  have hfact := thought_setWorldFact { s.cognition with
    tasks := s.cognition.tasks.modify taskId ({ · with graph }) } (taskKey taskId "action_count")
    (toString graph.actions.length)
  rw [hexec] at hfact
  refine .write fun t ht => ?_
  subst t
  exact ⟨c', (thought_planned s.cognition taskId graph).trans hfact, rfl⟩

/-- The graph and the canonical text of an action plan. -/
theorem triple_installActionPlan (plan : AssistantActionPlan) :
    Triple (· = s) (installActionPlan taskId plan) (fun _ => Thoughtful s)
      (fun _ => Thoughtful s) := by
  have hrefl : ∀ t, t = s → Thoughtful s t := fun t ht => ht ▸ .refl s
  have hboth : Triple (· = s) (do
      installActionTaskGraph taskId plan.graph
      setFact (taskKey taskId "action_protocol") plan.canonicalText) (fun _ => Thoughtful s)
      (fun _ => Thoughtful s) :=
    (triple_installActionTaskGraph plan.graph).bind fun _ => (keeps_setFact ..).triple
  unfold installActionPlan
  refine .refuse_bind (fun _ => .read_bind fun t ht => ?_) fun _ => hrefl
  subst t
  have hcandidate := hboth.final rfl
  rcases hexec : exec (do
      installActionTaskGraph taskId plan.graph
      setFact (taskKey taskId "action_protocol") plan.canonicalText) s with ⟨answer, candidate⟩
  rw [hexec] at hcandidate
  exact .check_bind (fun _ _ => .write fun _ _ => hcandidate) fun _ _ => hrefl

/-- A recollection stores nothing. -/
theorem triple_recallConversationContext [SovereignMemory.CharTables] (query : String) (limit : ℕ) :
    Triple (· = s) (recallConversationContext query limit) (fun _ => Thoughtful s)
      (fun _ => Thoughtful s) := by
  have hrefl : ∀ t, t = s → Thoughtful s t := fun t ht => ht ▸ .refl s
  unfold recallConversationContext
  refine .branch (fun _ => .ret hrefl) fun _ => .read_bind fun t ht => ?_
  subst t
  refine .okOr_bind (fun tick htick => ?_) fun _ => hrefl
  have hnext := SovereignMemory.nextId_retrieve s.cognition.memory
    { text := query, kinds := [.episodic], tags := ["conversation"], limit } tick
  rcases hretrieve : s.cognition.memory.retrieve
    { text := query, kinds := [.episodic], tags := ["conversation"], limit } tick
    with ⟨answer, memory⟩
  rw [hretrieve] at hnext
  refine .write_bind (J := Thoughtful s) ?_ fun t ht => ?_
  · exact .check_bind (fun _ _ => .ret fun _ h => h) fun _ _ _ h => h
  · subst t
    refine ⟨{ s.cognition with tick, memory }, ⟨fun h => ?_, ?_, hnext, fun _ _ h => h⟩, rfl⟩
    · exact closed_stateValid.memory _ memory (closed_stateValid.tick _ tick h)
    · rw [checkedAdd64_eq_some.1 htick]
      exact Nat.le_add_right _ _

/-! ### Work on the turn in progress

Each call edits the turn so that a valid one stays valid, whether or not the limits are asked for.
-/

/-- One token more, while the budget and the text limit last. -/
theorem triple_appendGenerated (token : UInt32) (piece : String) :
    Triple (· = s) (appendGenerated taskId token piece) (fun _ => Moves s) (fun _ => Moves s) := by
  have hrefl : ∀ t, t = s → Moves s t := fun t ht => ht ▸ .refl s
  unfold appendGenerated
  refine triple_activeTurn_bind (fun active hactive _ => ?_) fun _ => .refl s
  refine .refuse_bind (fun htokens => .refuse_bind (fun _ => .refuse_bind (fun htext => ?_)
    fun _ => hrefl) fun _ => hrefl) fun _ => hrefl
  refine .write fun t ht => ?_
  subst t
  refine .edited active _ hactive fun bounded c h => ⟨h.taskId_ne, h.asset, h.version_ne, h.message,
    h.prompt_ne, h.prompt_le, ?_, ?_, h.checkpoint, h.max_ne, h.limits, h.task⟩
  · rw [List.length_append]
    exact Nat.lt_of_not_le htokens
  · rw [String.utf8ByteSize_append]
    exact Nat.le_of_not_lt htext

/-- A file of the fabric, checked as the validator does. -/
theorem triple_installActionFabricCheckpoint (checkpoint : Bytes) :
    Triple (· = s) (installActionFabricCheckpoint taskId checkpoint) (fun _ => Moves s)
      (fun _ => Moves s) := by
  have hrefl : ∀ t, t = s → Moves s t := fun t ht => ht ▸ .refl s
  unfold installActionFabricCheckpoint
  refine .refuse_bind (fun hfile => ?_) fun _ => hrefl
  refine triple_activeTurn_bind (fun active hactive _ => .write fun t ht => ?_) fun _ => .refl s
  subst t
  refine .edited active _ hactive fun bounded c h => ⟨h.taskId_ne, h.asset, h.version_ne, h.message,
    h.prompt_ne, h.prompt_le, h.generated, h.text, fun c hc => ?_, h.max_ne, h.limits, h.task⟩
  exact Option.some.inj hc ▸ hfile

/-- No file of the fabric. -/
theorem triple_clearActionFabricCheckpoint :
    Triple (· = s) (clearActionFabricCheckpoint taskId) (fun _ => Moves s) (fun _ => Moves s) := by
  unfold clearActionFabricCheckpoint
  refine triple_activeTurn_bind (fun active hactive _ => .write fun t ht => ?_) fun _ => .refl s
  subst t
  exact .edited active _ hactive fun bounded c h => ⟨h.taskId_ne, h.asset, h.version_ne, h.message,
    h.prompt_ne, h.prompt_le, h.generated, h.text, fun _ hc => (nomatch hc), h.max_ne, h.limits,
    h.task⟩

/-- Another prompt, of an allowed length. -/
theorem triple_replaceActivePromptTokens (prompt : List UInt32) :
    Triple (· = s) (replaceActivePromptTokens taskId prompt) (fun _ => Moves s)
      (fun _ => Moves s) := by
  have hrefl : ∀ t, t = s → Moves s t := fun t ht => ht ▸ .refl s
  unfold replaceActivePromptTokens
  refine .refuse_bind (fun hprompt => ?_) fun _ => hrefl
  refine triple_activeTurn_bind (fun active hactive _ => ?_) fun _ => .refl s
  refine .refuse_bind (fun _ => .write fun t ht => ?_) fun _ => hrefl
  subst t
  obtain ⟨hne, hle⟩ := not_or.1 hprompt
  exact .edited active _ hactive fun bounded c h => ⟨h.taskId_ne, h.asset, h.version_ne, h.message,
    hne, Nat.le_of_not_lt hle, h.generated, h.text, h.checkpoint, h.max_ne, h.limits, h.task⟩

end SovereignConversationState

end NTD97
