import Mathlib
import NTD97.Conversation.Steps

/-!
# Conversation/Runs — any sequence of calls

    begin ──▸ append* ──▸ complete │ cancel

Two of the limits a stored conversation has to respect are not looked at when a turn begins: the
size of the texts and the token budget.  `conversationValid_step_iff` says what follows for a run,
and `completeTurn_iff` when a turn that was answered can be completed.
-/

namespace NTD97

open Guard Effect Text SortedMap Machine Wire

namespace SovereignConversationState

variable {s : SovereignConversationState} {taskId : UInt64}

/-! ## Ending a turn -/

/-- One tick later, and nothing stored. -/
def Ticked (c c' : CognitiveState) : Prop :=
  c'.tick.toNat = c.tick.toNat + 1 ∧ c'.memory = c.memory

/-- One tick later, and at most one memory more. -/
def Paused (c c' : CognitiveState) : Prop :=
  c'.tick.toNat = c.tick.toNat + 1 ∧ c'.memory.nextId.toNat ≤ c.memory.nextId.toNat + 1

theorem triple_nextTick (c : CognitiveState) :
    Triple (· = c) CognitiveRuntime.nextTick (fun _ => Ticked c) (fun _ _ => True) := by
  unfold CognitiveRuntime.nextTick
  refine .read_bind fun t ht => .okOr_bind (fun tick htick => .write fun t' ht' => ?_)
    fun _ _ _ => trivial
  subst t t'
  exact ⟨checkedAdd64_eq_some.1 htick, rfl⟩

theorem keeps_taskMut_ticked {c : CognitiveState} (f : CognitiveTask → CognitiveTask) :
    Keeps (Ticked c) (CognitiveRuntime.taskMut taskId f) :=
  .bind (Closed.task taskId) fun _ => .write fun _ h => h

theorem triple_remember {c : CognitiveState} (kind : MemoryKind) (content : String)
    (tags : List String) (importance : UInt16) :
    Triple (Ticked c) (CognitiveRuntime.remember kind content tags importance)
      (fun _ => Paused c) (fun _ _ => True) := by
  unfold CognitiveRuntime.remember CognitiveState.storeMemory
  refine .read_bind fun t ht => .bind (Q := fun _ => Paused c) ?_ fun _ => .ret fun _ h => h
  refine .read_bind fun t' ht' => .check_bind (fun r hr => ?_) fun _ _ _ _ => trivial
  subst t'
  refine .write_bind (J := Paused c) (.ret fun _ h => h) fun t' ht' => ?_
  subst t'
  refine ⟨ht.1, ?_⟩
  rw [← ht.2, ← SovereignMemory.nextId_of_store hr]

theorem triple_pauseExternalTask (c : CognitiveState) (taskId : UInt64) (reason : String) :
    Triple (· = c) (CognitiveRuntime.pauseExternalTask taskId reason) (fun _ => Paused c)
      (fun _ _ => True) := by
  have hpaused : ∀ c', Ticked c c' → Paused c c' := fun c' h =>
    ⟨h.1, by rw [h.2]; exact Nat.le_add_right _ _⟩
  unfold CognitiveRuntime.pauseExternalTask
  refine .refuse_bind (fun _ => .bind (triple_nextTick c) fun _ => ?_) fun _ _ _ => trivial
  refine .bind ((Closed.task taskId).triple_of fun _ _ => trivial) fun current => ?_
  refine .branch (fun _ => .ret hpaused) fun _ => ?_
  exact .bind ((keeps_taskMut_ticked _).triple_of fun _ _ => trivial) fun _ => triple_remember ..

theorem triple_cancelTurn (reason : String) :
    Triple (· = s) (cancelTurn taskId reason) (fun _ => Moves s) (fun _ => Moves s) := by
  unfold cancelTurn
  refine .read_bind fun t ht => ?_
  subst t
  refine triple_activeTurn_bind (fun active hactive _ => ?_) fun _ => .refl s
  refine triple_clone_bind (fun _ c' hexec => .write fun t ht => ?_) fun _ => .refl s
  subst t
  have hpaused := (triple_pauseExternalTask s.cognition taskId reason).ok_of rfl hexec
  have closed : ClosedAt taskId (StateValid False) := closedAt_stateValid taskId
  have hvalid := (closed.pauseExternalTask reason).final (s := s.cognition)
  rw [hexec] at hvalid
  exact .cancelled active c' hactive hvalid hpaused.1 hpaused.2

/-- The episode a completed turn leaves. -/
def episode (active : ActiveConversationTurn) : String :=
  "user: " ++ active.userMessage ++ "\nassistant: " ++ active.generatedText

theorem isBlank_episode (active : ActiveConversationTurn) : isBlank (episode active) = false := by
  have huser : isBlank "user: " = false := by decide +kernel
  rw [episode, ← Bool.not_eq_true, isBlank_append, isBlank_append, isBlank_append, huser]
  exact fun h => Bool.false_ne_true h.1.1.1

theorem triple_completeTurn :
    Triple (· = s) (completeTurn taskId) (fun _ => Moves s) (fun _ => Moves s) := by
  have hrefl : ∀ t, t = s → Moves s t := fun t ht => ht ▸ .refl s
  unfold completeTurn
  refine .read_bind fun t ht => ?_
  subst t
  refine triple_activeTurn_bind (fun active hactive _ => ?_) fun _ => .refl s
  refine .refuse_bind (fun _ => ?_) fun _ => hrefl
  refine triple_clone_bind (fun _ c' hexec => ?_) fun _ => .refl s
  refine .check_bind (fun r hr => .check_bind (fun _ hturns => .write fun t ht => ?_)
    fun _ _ => hrefl) fun _ _ => hrefl
  subst t
  have hvalid : StateValid False s.cognition →
      StateValid False (exec (CognitiveRuntime.completeExternalTask taskId active.generatedText)
        s.cognition).2 :=
    fun h => (stateValid_completeExternalTask_iff h).2 False.elim
  rcases completeExternalTask_cases s.cognition taskId active.generatedText with
    ⟨-, e, c, herr, -⟩ | ⟨t, tick, memory, -, htick, hnext, hok⟩
  · exact nomatch (Prod.mk.inj (hexec.symm.trans herr)).1
  · rw [hexec] at hvalid
    obtain rfl : c' = _ := (Prod.mk.inj (hexec.symm.trans hok)).2
    refine .completed active _ hactive (fun h => ?_) htick ?_ (validateTurns_eq_ok.1 hturns)
    · exact closed_stateValid.memory _ r.2 (hvalid h)
    · exact (SovereignMemory.nextId_of_store hr).trans (congrArg (· + 1) hnext)

/-! ## Beginning a turn -/

/-- The turn begins: no other is in progress, its parts pass the checks, and ids and ticks last. -/
structure Begins (s : SovereignConversationState) (asset : String) (version : UInt32)
    (message : String) (prompt : List UInt32) (maxNewTokens : ℕ) : Prop where
  idle : s.active = none
  asset : isBlank asset = false
  version_ne : version ≠ 0
  message : isBlank message = false
  max_ne : maxNewTokens ≠ 0
  prompt_ne : prompt ≠ []
  prompt_le : prompt.length ≤ maxTokens
  ids : s.cognition.nextTaskId.toNat + 1 < 2 ^ 64
  tick : s.cognition.tick.toNat + 1 < 2 ^ 64

/-- What beginning a turn does to the mind. -/
structure Begun (c : CognitiveState) (message : String) (c' : CognitiveState) : Prop where
  valid : StateValid False c → StateValid False c'
  ticked : Ticked c c'
  onTask : OnTask c' c.nextTaskId message

/-- The mind with a new task. -/
def submitted (c : CognitiveState) (message : String) (nextTaskId : UInt64) : CognitiveState :=
  { c with
    nextTaskId
    tasks := c.tasks.insert c.nextTaskId {
      id := c.nextTaskId, goalId := none, intent := Intent.new message, graph := {}
      status := .planned, stepsTaken := 0, verificationFailures := 0, lastObservation := none
      createdTick := c.tick, updatedTick := c.tick } }

theorem exec_submitTask {c : CognitiveState} {message : String}
    (hmessage : isBlank message = false) :
    exec (CognitiveState.submitTask (Intent.new message) {} none) c =
      match checkedAdd64 c.nextTaskId 1 with
      | some next => (.ok c.nextTaskId, submitted c message next)
      | none => (.error .overflow, c) := by
  have hsaid : ¬ isBlank (Intent.new message).objective = true := by
    rw [Bool.not_eq_true]
    exact hmessage
  have hsteps : ¬ (Intent.new message).maxSteps = 0 := by
    change ¬ (32 : UInt32) = 0
    decide
  rw [CognitiveState.submitTask, exec_refuse_of_neg hsaid, exec_refuse_of_neg hsteps, exec_get_bind,
    exec_refuse_of_neg (by simp)]
  dsimp only
  cases checkedAdd64 c.nextTaskId 1 <;> rfl

/-- The mind started on the new task. -/
theorem exec_startExternalTask (c : CognitiveState) (message : String) (next : UInt64) :
    exec (CognitiveRuntime.startExternalTask c.nextTaskId) (submitted c message next) =
      match checkedAdd64 c.tick 1 with
      | some tick => (.ok (), { submitted c message next with
          tick
          tasks := (submitted c message next).tasks.modify c.nextTaskId fun t =>
            { t with status := .running, updatedTick := tick } })
      | none => (.error .overflow, submitted c message next) := by
  have hstored : (submitted c message next).tasks[c.nextTaskId]? = some _ :=
    getElem?_insert_eq_some.2 (.inl ⟨rfl, rfl⟩)
  rw [CognitiveRuntime.startExternalTask]
  cases htick : checkedAdd64 c.tick 1 with
  | none => exact exec_bind_error (exec_nextTick_none (s := submitted c message next) htick)
  | some tick =>
    rw [exec_bind_ok (exec_nextTick_some (s := submitted c message next) htick),
      exec_bind_ok (exec_task_some (s := { submitted c message next with tick }) hstored),
      if_neg (by exact Bool.false_ne_true),
      exec_taskMut_some (s := { submitted c message next with tick }) hstored]

theorem begun_submitted {c : CognitiveState} {message : String} {next tick : UInt64}
    (hmessage : isBlank message = false) (hnext : checkedAdd64 c.nextTaskId 1 = some next)
    (htick : checkedAdd64 c.tick 1 = some tick) :
    Begun c message { submitted c message next with
      tick
      tasks := (submitted c message next).tasks.modify c.nextTaskId fun t =>
        { t with status := .running, updatedTick := tick } } := by
  have hstored : (submitted c message next).tasks[c.nextTaskId]? = some _ :=
    getElem?_insert_eq_some.2 (.inl ⟨rfl, rfl⟩)
  refine ⟨fun h => ?_, ⟨checkedAdd64_eq_some.1 htick, rfl⟩, ?_⟩
  · have hsubmit := (keeps_submitTask (Intent.new message) {} none).final h
    rw [exec_submitTask hmessage, hnext] at hsubmit
    have hstart := (closedAt_stateValid c.nextTaskId).startExternalTask.final hsubmit
    rw [exec_startExternalTask, htick] at hstart
    exact hstart
  · exact ⟨_, getElem?_modify_eq_some.2 (.inl ⟨rfl, _, hstored, rfl⟩), rfl, rfl⟩

/-- A turn of which nothing is generated yet. -/
def fresh (taskId : UInt64) (asset : String) (version : UInt32) (message : String)
    (prompt : List UInt32) (maxNewTokens : ℕ) : ActiveConversationTurn where
  taskId := taskId
  modelAssetId := asset
  modelVersion := version
  userMessage := message
  promptTokens := prompt
  generatedTokens := []
  generatedText := ""
  maxNewTokens := maxNewTokens
  actionFabricCheckpoint := none

/-- **A turn begins exactly if its parts pass the checks**; otherwise nothing changes. -/
theorem beginTurn_cases (s : SovereignConversationState) (asset : String) (version : UInt32)
    (message : String) (prompt : List UInt32) (maxNewTokens : ℕ) :
    (¬ Begins s asset version message prompt maxNewTokens ∧
      (exec (beginTurn asset version message prompt maxNewTokens) s).2 = s) ∨
    (Begins s asset version message prompt maxNewTokens ∧
      ∃ cognition, Begun s.cognition message cognition ∧
        exec (beginTurn asset version message prompt maxNewTokens) s =
          (.ok s.cognition.nextTaskId, { s with
            cognition
            active := some (fresh s.cognition.nextTaskId asset version message prompt
              maxNewTokens) })) := by
  rw [beginTurn, exec_get_bind]
  by_cases hidle : s.active.isSome = true
  · refine .inl ⟨fun h => ?_, by rw [exec_refuse_of_pos hidle]⟩
    rw [h.idle] at hidle
    exact nomatch hidle
  by_cases hasset : isBlank asset = true ∨ version = 0
  · refine .inl ⟨fun h => ?_, by rw [exec_refuse_of_neg hidle, exec_refuse_of_pos hasset]⟩
    exact hasset.elim (fun hb => Bool.false_ne_true (h.asset.symm.trans hb)) h.version_ne
  by_cases hmessage : isBlank message = true
  · refine .inl ⟨fun h => Bool.false_ne_true (h.message.symm.trans hmessage), ?_⟩
    rw [exec_refuse_of_neg hidle, exec_refuse_of_neg hasset, exec_refuse_of_pos hmessage]
  by_cases hmax : maxNewTokens = 0
  · refine .inl ⟨fun h => h.max_ne hmax, ?_⟩
    rw [exec_refuse_of_neg hidle, exec_refuse_of_neg hasset, exec_refuse_of_neg hmessage,
      exec_refuse_of_pos hmax]
  by_cases hprompt : prompt = [] ∨ maxTokens < prompt.length
  · refine .inl ⟨fun h => ?_, ?_⟩
    · exact hprompt.elim h.prompt_ne (Nat.not_lt.2 h.prompt_le)
    · rw [exec_refuse_of_neg hidle, exec_refuse_of_neg hasset, exec_refuse_of_neg hmessage,
        exec_refuse_of_neg hmax, exec_refuse_of_pos hprompt]
  rw [exec_refuse_of_neg hidle, exec_refuse_of_neg hasset, exec_refuse_of_neg hmessage,
    exec_refuse_of_neg hmax, exec_refuse_of_neg hprompt]
  have hsaid : isBlank message = false := Bool.not_eq_true _ ▸ hmessage
  have hsubmit := exec_submitTask (c := s.cognition) hsaid
  cases hnext : checkedAdd64 s.cognition.nextTaskId 1 with
  | none =>
    rw [hnext] at hsubmit
    refine .inl ⟨fun h => absurd h.ids (Nat.not_lt.2 (checkedAdd64_eq_none.1 hnext)), ?_⟩
    rw [exec_clone_error hsubmit]
  | some next =>
    rw [hnext] at hsubmit
    rw [exec_clone_ok hsubmit]
    have hstart := exec_startExternalTask s.cognition message next
    cases htick : checkedAdd64 s.cognition.tick 1 with
    | none =>
      rw [htick] at hstart
      refine .inl ⟨fun h => absurd h.tick (Nat.not_lt.2 (checkedAdd64_eq_none.1 htick)), ?_⟩
      dsimp only
      rw [exec_clone_error hstart]
    | some tick =>
      rw [htick] at hstart
      obtain ⟨hblank, hversion⟩ := not_or.1 hasset
      obtain ⟨hne, hle⟩ := not_or.1 hprompt
      refine .inr ⟨⟨?_, Bool.not_eq_true _ ▸ hblank, hversion, hsaid, hmax, hne,
        Nat.le_of_not_lt hle, ?_, ?_⟩, _, begun_submitted hsaid hnext htick, ?_⟩
      · exact Option.not_isSome_iff_eq_none.1 hidle
      · have hlt : next.toNat = s.cognition.nextTaskId.toNat + 1 := checkedAdd64_eq_some.1 hnext
        exact hlt ▸ next.toNat_lt
      · have hlt : tick.toNat = s.cognition.tick.toNat + 1 := checkedAdd64_eq_some.1 htick
        exact hlt ▸ tick.toNat_lt
      · dsimp only
        rw [exec_clone_ok hstart]
        rfl

/-! ## One call -/

/-- What a call has to respect: a turn that begins is within the limits. -/
def BoundedStep (s : SovereignConversationState) : ConversationOp → Prop
  | .beginTurn asset version message prompt max =>
    Begins s asset version message prompt max → WithinLimits asset message max
  | _ => True

/-- **What a call can do**: begin a turn, or make one of the moves. -/
theorem step_cases [SovereignMemory.CharTables] (s : SovereignConversationState)
    (op : ConversationOp) :
    (∃ asset version message prompt max, op = .beginTurn asset version message prompt max) ∨
      (BoundedStep s op ∧ Moves s (s.step op)) := by
  cases op <;> simp only [step]
  case beginTurn asset version message prompt max =>
    exact .inl ⟨asset, version, message, prompt, max, rfl⟩
  case appendGenerated taskId token piece =>
    exact .inr ⟨trivial, (triple_appendGenerated token piece).final rfl⟩
  case completeTurn taskId => exact .inr ⟨trivial, triple_completeTurn.final rfl⟩
  case cancelTurn taskId reason => exact .inr ⟨trivial, (triple_cancelTurn reason).final rfl⟩
  case installActionTaskGraph taskId graph =>
    exact .inr ⟨trivial, ((triple_installActionTaskGraph graph).final rfl).moves⟩
  case installActionPlan taskId plan =>
    exact .inr ⟨trivial, ((triple_installActionPlan plan).final rfl).moves⟩
  case installActionFabricCheckpoint taskId checkpoint =>
    exact .inr ⟨trivial, (triple_installActionFabricCheckpoint checkpoint).final rfl⟩
  case clearActionFabricCheckpoint taskId =>
    exact .inr ⟨trivial, triple_clearActionFabricCheckpoint.final rfl⟩
  case recordChatApproval taskId capability rationale status =>
    exact .inr ⟨trivial,
      ((keeps_recordChatApproval capability rationale status).final (.refl s)).moves⟩
  case setChatApprovalStatus taskId status =>
    exact .inr ⟨trivial, ((keeps_setChatApprovalStatus status).final (.refl s)).moves⟩
  case recordActionPlannerStatus taskId status =>
    exact .inr ⟨trivial, ((keeps_recordActionPlannerStatus status).final (.refl s)).moves⟩
  case recordVerifiedActionCount taskId count =>
    exact .inr ⟨trivial, ((keeps_recordVerifiedActionCount count).final (.refl s)).moves⟩
  case recordVerifiedSynthesisReady taskId =>
    exact .inr ⟨trivial, (keeps_recordVerifiedSynthesisReady.final (.refl s)).moves⟩
  case replaceActivePromptTokens taskId prompt =>
    exact .inr ⟨trivial, (triple_replaceActivePromptTokens prompt).final rfl⟩
  case recordReasoningProfile taskId budget signals items =>
    exact .inr ⟨trivial,
      ((keeps_recordReasoningProfile budget signals items).final (.refl s)).moves⟩
  case recordReasoningCycleReport taskId report =>
    exact .inr ⟨trivial, ((keeps_recordReasoningCycleReport report).final (.refl s)).moves⟩
  case recallConversationContext query limit =>
    exact .inr ⟨trivial, ((triple_recallConversationContext query limit).final rfl).moves⟩

end SovereignConversationState

open SovereignConversationState

section Valid

variable {bounded : Prop} {s s' : SovereignConversationState}

theorem ActiveValid.onward {c c' : CognitiveState} {active : ActiveConversationTurn}
    (h : ActiveValid bounded c active) (hc : ∀ id message, OnTask c id message → OnTask c' id message) :
    ActiveValid bounded c' active :=
  ⟨h.taskId_ne, h.asset, h.version_ne, h.message, h.prompt_ne, h.prompt_le, h.generated, h.text,
    h.checkpoint, h.max_ne, h.limits, hc _ _ h.task⟩

theorem conversationValid_of_moves (h : ConversationValid bounded s) (hm : Moves s s') :
    ConversationValid bounded s' := by
  cases hm with
  | thought cognition hthought =>
    refine ⟨hthought.valid h.cognition, h.turns, fun active hactive => ?_⟩
    exact (h.active active hactive).onward hthought.onTask
  | edited active active' hs hedit =>
    refine ⟨h.cognition, h.turns, fun a ha => ?_⟩
    obtain rfl : active' = a := Option.some.inj ha
    exact hedit bounded s.cognition (h.active active hs)
  | completed active cognition hs hvalid htick hnext hturns =>
    exact ⟨hvalid h.cognition, hturns, fun _ ha => nomatch ha⟩
  | cancelled active cognition hs hvalid htick hnext =>
    exact ⟨hvalid h.cognition, h.turns, fun _ ha => nomatch ha⟩

/-- A turn that has just begun is valid, within the limits exactly if its parts are. -/
theorem conversationValid_begun_iff (h : ConversationValid bounded s) {asset message : String}
    {version : UInt32} {prompt : List UInt32} {max : ℕ} {cognition : CognitiveState}
    (hbegins : Begins s asset version message prompt max)
    (hbegun : Begun s.cognition message cognition) :
    ConversationValid bounded { s with
      cognition
      active := some (fresh s.cognition.nextTaskId asset version message prompt max) } ↔
      (bounded → WithinLimits asset message max) := by
  refine ⟨fun h' => (h'.active _ rfl).limits, fun hlimits => ?_⟩
  refine ⟨hbegun.valid h.cognition, h.turns, fun active hactive => ?_⟩
  obtain rfl := Option.some.inj hactive
  exact ⟨h.cognition.tasks.next_ne, hbegins.asset, hbegins.version_ne, hbegins.message,
    hbegins.prompt_ne, hbegins.prompt_le, Nat.zero_le _, Nat.zero_le _, fun _ hc => (nomatch hc),
    hbegins.max_ne, hlimits, hbegun.onTask⟩

/-- **Every call keeps a conversation valid, `beginTurn` exactly if the turn is within the
limits.** -/
theorem conversationValid_step_iff [SovereignMemory.CharTables] (h : ConversationValid bounded s)
    (op : ConversationOp) :
    ConversationValid bounded (s.step op) ↔ (bounded → BoundedStep s op) := by
  rcases step_cases s op with ⟨asset, version, message, prompt, max, rfl⟩ | ⟨hbounded, hm⟩
  · simp only [step, BoundedStep]
    rcases beginTurn_cases s asset version message prompt max with ⟨hno, hsame⟩ |
      ⟨hbegins, cognition, hbegun, hexec⟩
    · rw [hsame]
      exact ⟨fun _ _ hyes => absurd hyes hno, fun _ => h⟩
    · rw [hexec, conversationValid_begun_iff h hbegins hbegun]
      exact ⟨fun hl hb _ => hl hb, fun hl hb => hl hb hbegins⟩
  · exact ⟨fun _ _ => hbounded, fun _ => conversationValid_of_moves h hm⟩

end Valid

/-! ## Completing a turn

Every turn costs two ticks and stores at most two memories, so memory ids last as long as ticks
do. -/

section Complete

variable {s s' : SovereignConversationState} {active : ActiveConversationTurn}

/-- Memories do not run ahead of ticks. -/
def Paced (s : SovereignConversationState) : Prop :=
  2 * s.cognition.memory.nextId.toNat + (if s.active.isSome then 1 else 0) ≤
    s.cognition.tick.toNat + s.turns.length + 2

theorem paced_new (identity : CognitiveIdentity) : Paced (.new identity) := Nat.le_refl 2

theorem paced_of_moves (h : Paced s) (hm : Moves s s') : Paced s' := by
  unfold Paced at h ⊢
  cases hm with
  | thought cognition hthought =>
    have htick := hthought.tick_le
    rw [hthought.nextId_eq]
    dsimp only at h ⊢
    omega
  | edited active active' hs hedit =>
    rw [hs] at h
    exact h
  | completed active cognition hs hvalid htick hnext hturns =>
    rw [hs] at h
    simp only [Option.isSome_some, if_true, Option.isSome_none, Bool.false_eq_true, if_false,
      List.length_append, List.length_cons, List.length_nil] at h ⊢
    omega
  | cancelled active cognition hs hvalid htick hnext =>
    rw [hs] at h
    simp only [Option.isSome_some, if_true, Option.isSome_none, Bool.false_eq_true,
      if_false] at h ⊢
    omega

theorem paced_step [SovereignMemory.CharTables] (h : Paced s) (op : ConversationOp) :
    Paced (s.step op) := by
  rcases step_cases s op with ⟨asset, version, message, prompt, max, rfl⟩ | ⟨-, hm⟩
  · simp only [step]
    rcases beginTurn_cases s asset version message prompt max with ⟨-, hsame⟩ |
      ⟨hbegins, cognition, hbegun, hexec⟩
    · rw [hsame]
      exact h
    · rw [hexec]
      obtain ⟨htick, hmemory⟩ := hbegun.ticked
      unfold Paced at h ⊢
      rw [hbegins.idle] at h
      simp only [Option.isSome_some, if_true, Option.isSome_none, Bool.false_eq_true,
        if_false, hmemory, htick] at h ⊢
      omega
  · exact paced_of_moves h hm

/-- The conversations the calls lead to. -/
def Reached [SovereignMemory.CharTables] (s : SovereignConversationState) : Prop :=
  ∃ identity ops, s = run step (.new identity) ops

theorem Reached.valid_paced [SovereignMemory.CharTables] (h : Reached s) :
    ConversationValid False s ∧ Paced s := by
  obtain ⟨identity, ops, rfl⟩ := h
  refine invariant_run (I := fun s => ConversationValid False s ∧ Paced s) (fun s op hs => ?_) ops
    ⟨conversationValid_new False identity, paced_new identity⟩
  exact ⟨(conversationValid_step_iff hs.1 op).2 False.elim, paced_step hs.2 op⟩

/-- The history after the turn. -/
def turnsAfter (s : SovereignConversationState) (active : ActiveConversationTurn) :
    List ConversationTurn :=
  s.turns ++ [.user active.userMessage, .assistant active.generatedText]

/-- With ids left for two memories, completing an answered turn comes down to whether its history is
one that can be stored. -/
theorem exec_completeTurn_of_room (h : ConversationValid False s) (hactive : s.active = some active)
    (hsaid : isBlank active.generatedText = false) (htick : s.cognition.tick.toNat + 1 < 2 ^ 64)
    (hroom : s.cognition.memory.nextId.toNat + 2 < 2 ^ 64) :
    ∃ cognition, exec (completeTurn active.taskId) s = match validateTurns (turnsAfter s active) with
      | .ok () => (.ok (), { cognition, turns := turnsAfter s active, active := none })
      | .error e => (.error e, s) := by
  obtain ⟨t, hstored, -, -⟩ := (h.active active hactive).task
  have hcompletes : Completes s.cognition active.taskId active.generatedText t :=
    ⟨hsaid, htick, hstored, Nat.lt_of_succ_lt hroom⟩
  rcases completeExternalTask_cases s.cognition active.taskId active.generatedText with
    ⟨hno, -⟩ | ⟨t, tick, memory, -, -, hnext, hok⟩
  · exact absurd hcompletes (hno t)
  have himportance : (650 : UInt16) ≤ 1000 := by decide
  have hstore : ∃ r, memory.store .episodic (episode active) ["conversation", "dialogue"] 650 tick
      = .ok r :=
    SovereignMemory.exists_store_iff.2 ⟨isBlank_episode active, himportance, hnext ▸ hroom⟩
  obtain ⟨⟨recordId, memory'⟩, hr⟩ := hstore
  refine ⟨{ s.cognition.completed active.taskId active.generatedText t tick memory with
    memory := memory' }, ?_⟩
  rw [completeTurn, exec_get_bind, exec_bind_ok (exec_activeTurn hactive rfl),
    exec_refuse_of_neg (by rw [Bool.not_eq_true]; exact hsaid), exec_clone_ok hok]
  change exec (check _ (memory.store .episodic (episode active) _ 650 tick) >>= _) s = _
  rw [hr, exec_check_ok_bind]
  change exec (check id (validateTurns (turnsAfter s active)) >>= _) s = _
  cases validateTurns (turnsAfter s active) <;> rfl

/-- Completing an answered turn comes down to whether its history is one that can be stored. -/
theorem exec_completeTurn (h : ConversationValid False s) (hpaced : Paced s)
    (hactive : s.active = some active) (hsaid : isBlank active.generatedText = false)
    (htick : s.cognition.tick.toNat + 1 < 2 ^ 64) :
    ∃ cognition, exec (completeTurn active.taskId) s = match validateTurns (turnsAfter s active) with
      | .ok () => (.ok (), { cognition, turns := turnsAfter s active, active := none })
      | .error e => (.error e, s) := by
  have hroom : s.cognition.memory.nextId.toNat + 2 < 2 ^ 64 := by
    have hfew := h.turns.few
    unfold Paced at hpaced
    unfold maxTurns at hfew
    omega
  exact exec_completeTurn_of_room h hactive hsaid htick hroom

/-- **A turn that was answered can be completed exactly if the history has room and the question is
short enough**; it then appends the question and the answer and leaves no turn in progress. -/
theorem completeTurn_of_valid (h : ConversationValid False s) (hpaced : Paced s)
    (hactive : s.active = some active) (hsaid : isBlank active.generatedText = false)
    (htick : s.cognition.tick.toNat + 1 < 2 ^ 64) :
    (∃ s', exec (completeTurn active.taskId) s = (.ok (), s') ∧ s'.turns = turnsAfter s active ∧
      s'.active = none) ↔
      s.turns.length + 2 ≤ maxTurns ∧ active.userMessage.utf8ByteSize ≤ maxTextBytes := by
  have hvalid := h.active active hactive
  have hturns := turnsValid_append_iff h.turns hvalid.message hsaid hvalid.text
  obtain ⟨cognition, hexec⟩ := exec_completeTurn h hpaced hactive hsaid htick
  rw [← hturns, ← validateTurns_eq_ok, hexec]
  change _ ↔ validateTurns (turnsAfter s active) = .ok ()
  cases validateTurns (turnsAfter s active) with
  | ok u => exact ⟨fun _ => rfl, fun _ => ⟨_, rfl, rfl, rfl⟩⟩
  | error e => exact ⟨fun ⟨_, h, _⟩ => (nomatch h), fun h => (nomatch h)⟩

/-- **No answered turn gets stuck, exactly if the history has room for it and its question is short
enough.** -/
theorem completeTurn_iff [SovereignMemory.CharTables] (s : SovereignConversationState)
    (active : ActiveConversationTurn) (hreached : Reached s) (hactive : s.active = some active)
    (hsaid : isBlank active.generatedText = false)
    (htick : s.cognition.tick.toNat < 2 ^ 64 - 1) :
    (∃ s', exec (completeTurn active.taskId) s = (.ok (), s') ∧
      s'.turns = s.turns ++ [.user active.userMessage, .assistant active.generatedText] ∧
      s'.active = none) ↔
      s.turns.length + 2 ≤ maxTurns ∧ active.userMessage.utf8ByteSize ≤ maxTextBytes := by
  obtain ⟨hvalid, hpaced⟩ := hreached.valid_paced
  exact completeTurn_of_valid hvalid hpaced hactive hsaid (by omega)

theorem exec_appendGenerated (token : UInt32) (piece : String) (hactive : s.active = some active)
    (hroom : active.generatedTokens.length < active.maxNewTokens)
    (hshort : active.generatedText.utf8ByteSize + piece.utf8ByteSize ≤ maxTextBytes) :
    exec (appendGenerated active.taskId token piece) s = (.ok (), { s with
      active := some { active with
        generatedTokens := active.generatedTokens ++ [token]
        generatedText := active.generatedText ++ piece } }) := by
  have hsmall : ¬ 2 ^ 64 ≤ active.generatedText.utf8ByteSize + piece.utf8ByteSize := by
    unfold maxTextBytes at hshort
    omega
  rw [appendGenerated, exec_bind_ok (exec_activeTurn hactive rfl),
    exec_refuse_of_neg (Nat.not_le.2 hroom)]
  dsimp only
  rw [exec_refuse_of_neg hsmall, exec_refuse_of_neg (Nat.not_lt.2 hshort), exec_modify]

end Complete

namespace ConversationSample

open CognitionSample

/-- A conversation in which a question was asked and answered with one word. -/
def answered (message : String) : SovereignConversationState :=
  run step (.new identity) [.beginTurn "model" 1 message [1] 4, .appendGenerated 1 7 "yes"]

/-- A text of `2 ^ n` bytes. -/
def doubled : ℕ → String
  | 0 => "a"
  | n + 1 => doubled n ++ doubled n

theorem utf8ByteSize_doubled : ∀ n, (doubled n).utf8ByteSize = 2 ^ n
  | 0 => rfl
  | n + 1 => by
      rw [doubled, String.utf8ByteSize_append, utf8ByteSize_doubled n]
      omega

theorem isBlank_doubled : ∀ n, isBlank (doubled n) = false
  | 0 => by decide +kernel
  | n + 1 => by
      rw [doubled, ← Bool.not_eq_true, isBlank_append, isBlank_doubled n]
      exact fun h => Bool.false_ne_true h.1

/-- The turn in progress. -/
def turn (message : String) : ActiveConversationTurn :=
  { fresh 1 "model" 1 message [1] 4 with generatedTokens := [7], generatedText := "yes" }

theorem begins {message : String} (hmessage : isBlank message = false) :
    Begins (.new identity) "model" 1 message [1] 4 where
  idle := rfl
  asset := by decide +kernel
  version_ne := by decide
  message := hmessage
  max_ne := by decide
  prompt_ne := by decide
  prompt_le := by decide
  ids := by decide +kernel
  tick := by decide +kernel

theorem answered_spec {message : String} (hmessage : isBlank message = false) :
    (answered message).active = some (turn message) ∧ (answered message).turns = [] ∧
      (answered message).cognition.tick.toNat = 1 := by
  rcases beginTurn_cases (.new identity) "model" 1 message [1] 4 with ⟨hno, -⟩ |
    ⟨-, cognition, hbegun, hexec⟩
  · exact absurd (begins hmessage) hno
  · let begun : SovereignConversationState :=
      { cognition, turns := [], active := some (fresh 1 "model" 1 message [1] 4) }
    have hactive : begun.active = some (fresh 1 "model" 1 message [1] 4) := rfl
    have hroom : (0 : ℕ) < 4 := by decide
    have hshort : "".utf8ByteSize + "yes".utf8ByteSize ≤ maxTextBytes := by decide +kernel
    have happend := exec_appendGenerated 7 "yes" hactive hroom hshort
    have hrun : answered message = (exec (appendGenerated 1 7 "yes") begun).2 := by
      simp only [answered, run_cons, run_nil, step, hexec]
      rfl
    have htick : cognition.tick.toNat = 1 := hbegun.ticked.1
    rw [hrun]
    change exec (appendGenerated 1 7 "yes") begun = _ at happend
    rw [happend]
    exact ⟨rfl, rfl, htick⟩

theorem reached_answered (message : String) : Reached (answered message) :=
  ⟨identity, _, rfl⟩

/-- One byte more than a text may have. -/
def tooLong : String := doubled 20 ++ "a"

theorem isBlank_tooLong : isBlank tooLong = false := by
  rw [tooLong, ← Bool.not_eq_true, isBlank_append, isBlank_doubled]
  exact fun h => Bool.false_ne_true h.1

theorem utf8ByteSize_tooLong : tooLong.utf8ByteSize = maxTextBytes + 1 := by
  rw [tooLong, String.utf8ByteSize_append, utf8ByteSize_doubled]
  rfl

end ConversationSample

open ConversationSample CognitionSample in
theorem completeTurn_iff_answered : ∃ s',
    exec (completeTurn 1) (answered "hello") = (.ok (), s') ∧
      s'.turns = [.user "hello", .assistant "yes"] ∧ s'.active = none := by
  have hmessage : isBlank "hello" = false := by decide +kernel
  have hyes : isBlank "yes" = false := by decide +kernel
  have hlen : "hello".utf8ByteSize ≤ maxTextBytes := by decide +kernel
  have hroom : ([] : List ConversationTurn).length + 2 ≤ maxTurns := by decide
  obtain ⟨hactive, hturns, htick⟩ := answered_spec hmessage
  have h := completeTurn_iff (answered "hello") (turn "hello") (reached_answered "hello") hactive hyes
    (by omega)
  rw [hturns] at h
  exact h.2 ⟨hroom, hlen⟩

open ConversationSample CognitionSample in
/-- A question of one byte too many is accepted, answered, and can never be completed. -/
theorem not_completeTurn_tooLong :
    Reached (answered tooLong) ∧ (answered tooLong).active = some (turn tooLong) ∧
      isBlank (turn tooLong).generatedText = false ∧ ¬ ∃ s',
        exec (completeTurn (turn tooLong).taskId) (answered tooLong) = (.ok (), s') ∧
        s'.turns = (answered tooLong).turns ++ [.user tooLong, .assistant "yes"] ∧
        s'.active = none := by
  have hyes : isBlank "yes" = false := by decide +kernel
  obtain ⟨hactive, -, htick⟩ := answered_spec isBlank_tooLong
  obtain ⟨hvalid, hpaced⟩ := (reached_answered tooLong).valid_paced
  refine ⟨reached_answered tooLong, hactive, hyes, fun h => ?_⟩
  have hshort := ((completeTurn_of_valid hvalid hpaced hactive hyes (by omega)).1 h).2
  change tooLong.utf8ByteSize ≤ maxTextBytes at hshort
  rw [utf8ByteSize_tooLong] at hshort
  omega

end NTD97
