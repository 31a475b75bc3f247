import Mathlib
import NTD97.Cognition.Valid

/-!
# Cognition/Runs — any sequence of calls

Every call but one keeps a state valid: `completeExternalTask` counts a step without asking whether
one is left, and settles a task that may be settled already.  `completeExternalTask_cases` is what
it does, on every exit; the two conditions of this file are read off it.
-/

namespace NTD97

open Guard Effect Text SortedMap Machine

/-! ## Calls -/

/-- A call on a session, with whatever planner, executor, verifier or hook it brings along. -/
inductive CognitiveOp (W : Type) where
  | addGoal (objective : String) (completionCriteria : List String)
  | submitTask (intent : Intent) (graph : TaskGraph) (goalId : Option UInt64)
  | setWorldFact (key value : String)
  | installDelta (nameSpace : String) (generation : UInt64) (payload : Bytes)
  | activateDelta (deltaId : UInt64) (hook : DeltaActivationHook W)
  | storeMemory (kind : MemoryKind) (content : String) (tags : List String) (importance : UInt16)
    (tick : UInt64)
  | retrieveMemory (query : MemoryQuery) (tick : UInt64)
  | forgetMemory (id : UInt64)
  | startExternalTask (taskId : UInt64)
  | completeExternalTask (taskId : UInt64) (summary : String)
  | pauseExternalTask (taskId : UInt64) (reason : String)
  | advance (taskId : UInt64) (signals : CognitiveSignals) (planner : CognitivePlanner W)
    (executor : CognitiveExecutor W) (verifier : CognitiveVerifier W)

namespace CognitiveSession

open CognitiveRuntime

variable {W : Type} [SovereignMemory.CharTables]

/-- What a call leaves, whether it answered or failed. -/
def step (s : CognitiveSession W) : CognitiveOp W → CognitiveSession W
  | .addGoal objective criteria => (exec (inside (CognitiveState.addGoal objective criteria)) s).2
  | .submitTask intent graph goalId =>
    (exec (inside (CognitiveState.submitTask intent graph goalId)) s).2
  | .setWorldFact key value => (exec (inside (CognitiveState.setWorldFact key value)) s).2
  | .installDelta nameSpace generation payload =>
    (exec (inside (CognitiveState.installDelta nameSpace generation payload)) s).2
  | .activateDelta deltaId hook => (exec (activateDelta deltaId hook) s).2
  | .storeMemory kind content tags importance tick =>
    (exec (inside (CognitiveState.storeMemory kind content tags importance tick)) s).2
  | .retrieveMemory query tick => (exec (inside (CognitiveState.retrieveMemory query tick)) s).2
  | .forgetMemory id => (exec (inside (CognitiveState.forgetMemory id)) s).2
  | .startExternalTask taskId => (exec (inside (startExternalTask taskId)) s).2
  | .completeExternalTask taskId summary =>
    (exec (inside (completeExternalTask taskId summary)) s).2
  | .pauseExternalTask taskId reason => (exec (inside (pauseExternalTask taskId reason)) s).2
  | .advance taskId signals planner executor verifier =>
    (exec (advance taskId signals planner executor verifier) s).2

end CognitiveSession

/-! ## What the parts of a call do -/

section Parts

open CognitiveRuntime

variable {s : CognitiveState} {taskId tick : UInt64} {t : CognitiveTask} {β : Type}
  {f : CognitiveTask → CognitionM β} {g : CognitiveTask → CognitiveTask} {kind : MemoryKind}
  {content : String} {tags : List String} {importance : UInt16}

theorem exec_nextTick_some (h : checkedAdd64 s.tick 1 = some tick) :
    exec nextTick s = (.ok (), { s with tick }) := by
  rw [nextTick, exec_get_bind, h]
  rfl

theorem exec_nextTick_none (h : checkedAdd64 s.tick 1 = none) :
    exec nextTick s = (.error .overflow, s) := by
  rw [nextTick, exec_get_bind, h]
  rfl

theorem exec_task_some (h : s.tasks[taskId]? = some t) : exec (task taskId) s = (.ok t, s) := by
  rw [task, exec_get_bind, h]
  rfl

theorem exec_task_none (h : s.tasks[taskId]? = none) :
    exec (task taskId) s = (.error (.missingTask taskId), s) := by
  rw [task, exec_get_bind, h]
  rfl

theorem exec_taskMut_some (h : s.tasks[taskId]? = some t) : exec (taskMut taskId g) s =
    (.ok (), { s with
      tasks := s.tasks.modify taskId fun t => { g t with updatedTick := s.tick } }) := by
  rw [taskMut, exec_bind_ok (exec_task_some h)]
  rfl

theorem exec_remember_ok {id : UInt64} {memory : SovereignMemory}
    (h : s.memory.store kind content tags importance s.tick = .ok (id, memory)) :
    exec (remember kind content tags importance) s = (.ok (), { s with memory }) := by
  rw [remember, exec_get_bind, CognitiveState.storeMemory, bind_assoc, exec_get_bind, h]
  rfl

theorem exec_remember_error {e : MemoryError}
    (h : s.memory.store kind content tags importance s.tick = .error e) :
    exec (remember kind content tags importance) s = (.error (.memory e), s) := by
  rw [remember, exec_get_bind, CognitiveState.storeMemory, bind_assoc, exec_get_bind, h]
  rfl

end Parts

/-! ## What an external completion does -/

section Complete

open CognitiveRuntime

variable {s : CognitiveState} {taskId : UInt64} {summary : String} {t : CognitiveTask}

/-- The completion goes through: there is something to say, and ticks and memory ids last. -/
structure Completes (s : CognitiveState) (taskId : UInt64) (summary : String) (t : CognitiveTask) :
    Prop where
  said : isBlank summary = false
  tick : s.tick.toNat + 1 < 2 ^ 64
  stored : s.tasks[taskId]? = some t
  memory : s.memory.nextId.toNat + 1 < 2 ^ 64

/-- The state a completion leaves. -/
def CognitiveState.completed (s : CognitiveState) (taskId : UInt64) (summary : String)
    (t : CognitiveTask) (tick : UInt64) (memory : SovereignMemory) : CognitiveState :=
  { s with
    tick, memory
    goals := settleGoal s.goals .completed tick t.goalId
    tasks := s.tasks.modify taskId fun t =>
      { committed (.complete summary) { summary } t with updatedTick := tick } }

theorem isBlank_completion (taskId : UInt64) (verb summary : String) :
    isBlank ("task " ++ toString taskId ++ verb ++ summary) = false := by
  have htask : isBlank "task " = false := by decide +kernel
  rw [← Bool.not_eq_true, isBlank_append, isBlank_append, isBlank_append, htask]
  exact fun h => Bool.false_ne_true h.1.1.1

/-- **A completion that does not go through only makes changes next to the task; one that does
counts a step and settles it.** -/
theorem completeExternalTask_cases (s : CognitiveState) (taskId : UInt64) (summary : String) :
    ((∀ t, ¬ Completes s taskId summary t) ∧ ∃ e s',
      exec (completeExternalTask taskId summary) s = (.error e, s') ∧ ∀ I, Closed I → I s → I s') ∨
    ∃ t tick memory, Completes s taskId summary t ∧ tick.toNat = s.tick.toNat + 1 ∧
      memory.nextId.toNat = s.memory.nextId.toNat + 1 ∧
      exec (completeExternalTask taskId summary) s
        = (.ok (), s.completed taskId summary t tick memory) := by
  unfold completeExternalTask
  by_cases hblank : isBlank summary = true
  · refine .inl ⟨fun t h => ?_, _, s, exec_refuse_of_pos hblank _ _ s, fun I _ hs => hs⟩
    rw [h.said] at hblank
    exact Bool.false_ne_true hblank
  have hsaid : isBlank summary = false := Bool.not_eq_true _ ▸ hblank
  rw [exec_refuse_of_neg hblank]
  cases htick : checkedAdd64 s.tick 1 with
  | none =>
    refine .inl ⟨fun t h => ?_, _, s, exec_bind_error (exec_nextTick_none htick), fun I _ hs => hs⟩
    exact absurd h.tick (Nat.not_lt.2 (checkedAdd64_eq_none.1 htick))
  | some tick =>
    have hnext : tick.toNat = s.tick.toNat + 1 := checkedAdd64_eq_some.1 htick
    rw [exec_bind_ok (exec_nextTick_some htick), commitDirective, applyDirective, bind_assoc]
    cases hstored : s.tasks[taskId]? with
    | none =>
      refine .inl ⟨fun t h => (nomatch h.stored.symm.trans hstored), _, { s with tick },
        exec_bind_error (exec_task_none hstored), fun I hI hs => hI.tick s tick hs⟩
    | some t =>
      rw [exec_bind_ok (exec_task_some (s := { s with tick }) hstored), goalMut, bind_assoc,
        exec_modify_bind]
      have hgoals : ∀ I, Closed I → I s → I { s with
          tick, goals := settleGoal s.goals .completed tick t.goalId } := by
        intro I hI hs
        cases t.goalId with
        | none => exact hI.tick s tick hs
        | some id => exact hI.goal _ id .completed tick (hI.tick s tick hs)
      let settled : CognitiveState :=
        { s with tick, goals := settleGoal s.goals .completed tick t.goalId }
      cases hstore : s.memory.store .episodic
          ("task " ++ toString taskId ++ " completed: " ++ summary) ["task", "completion"] 700
          tick with
      | error e =>
        refine .inl ⟨fun t' h => ?_, _, settled,
          exec_bind_error (exec_remember_error (s := settled) hstore), hgoals⟩
        have himportance : (700 : UInt16) ≤ 1000 := by decide
        obtain ⟨r, hr⟩ := SovereignMemory.exists_store_iff.2
          ⟨isBlank_completion taskId " completed: " summary, himportance, h.memory⟩
        exact nomatch hr.symm.trans hstore
      | ok r =>
        obtain ⟨id, memory⟩ := r
        have hmemory := (SovereignMemory.exists_store_iff.1 ⟨_, hstore⟩).2.2
        refine .inr ⟨t, tick, memory, ⟨hsaid, hnext ▸ tick.toNat_lt, hstored, hmemory⟩, hnext,
          SovereignMemory.nextId_of_store hstore, ?_⟩
        rw [exec_bind_ok (exec_remember_ok (s := settled) hstore),
          exec_taskMut_some (s := { settled with memory }) hstored]
        rfl

end Complete

/-! ## Staying inside the step budget -/

section Budget

open CognitiveRuntime CognitiveSession

variable {bounded : Prop} {s : CognitiveState} {taskId : UInt64} {summary : String}

/-- The task, if it is there, has a step left. -/
def Room (taskId : UInt64) (s : CognitiveState) : Prop :=
  ∀ t, s.tasks[taskId]? = some t → t.stepsTaken < t.intent.maxSteps

/-- The completion, if it goes through, finds a step left, or a budget that no count exceeds. -/
def InBudget (s : CognitiveState) (taskId : UInt64) (summary : String) : Prop :=
  ∀ t, Completes s taskId summary t →
    t.stepsTaken < t.intent.maxSteps ∨ t.intent.maxSteps.toNat = 2 ^ 32 - 1

theorem closed_room (taskId : UInt64) :
    Closed fun s => StateValid bounded s ∧ Room taskId s where
  tick s tick h := ⟨closed_stateValid.tick s tick h.1, h.2⟩
  memory s memory h := ⟨closed_stateValid.memory s memory h.1, h.2⟩
  fact s key fact h hfact := ⟨closed_stateValid.fact s key fact h.1 hfact, h.2⟩
  goal s id status updatedTick h := ⟨closed_stateValid.goal s id status updatedTick h.1, h.2⟩
  delta s id h := ⟨closed_stateValid.delta s id h.1, h.2⟩

/-- Working on a task counts a step, and the validator allows it one more. -/
theorem stateValid_worked {f : CognitiveTask → CognitiveTask} (h : StateValid bounded s)
    (hf : ∀ t, Worked t (f t)) (hroom : bounded → ∀ t, s.tasks[taskId]? = some t →
      saturatingSucc32 t.stepsTaken ≤ t.intent.maxSteps) :
    StateValid bounded { s with tasks := s.tasks.modify taskId f } := by
  refine ⟨h.goals, h.tasks.modify fun t hstored ht => ?_, h.world, h.deltas⟩
  refine ⟨ht.keyed.trans (hf t).id.symm, ?_, ?_, fun g hg => ht.goal g ((hf t).goalId ▸ hg),
    fun hb => ?_⟩
  · rw [(hf t).intent]
    exact ht.objective
  · rw [(hf t).intent]
    exact ht.budget_ne
  · rw [(hf t).intent, (hf t).stepsTaken]
    exact hroom hb t hstored

/-- A task with a step left stays inside its budget. -/
theorem stateValid_worked_of_room {f : CognitiveTask → CognitiveTask} (h : StateValid bounded s)
    (hroom : Room taskId s) (hf : ∀ t, Worked t (f t)) :
    StateValid bounded { s with tasks := s.tasks.modify taskId f } := by
  refine stateValid_worked h hf fun _ t ht => ?_
  have hlt := hroom t ht
  exact (saturatingSucc32_le_iff (UInt32.le_of_lt hlt)).2 (.inl hlt)

/-- The validator's view of a completion is that of its task. -/
theorem stateValid_completed {t : CognitiveTask} {tick : UInt64} {memory : SovereignMemory}
    (h : StateValid bounded s) (ht : s.tasks[taskId]? = some t) :
    StateValid bounded (s.completed taskId summary t tick memory) ↔
      (bounded → saturatingSucc32 t.stepsTaken ≤ t.intent.maxSteps) := by
  have hbefore : StateValid bounded { s with
      tick, memory, goals := settleGoal s.goals .completed tick t.goalId } := by
    have hticked := closed_stateValid.memory _ memory (closed_stateValid.tick s tick h)
    cases t.goalId with
    | none => exact hticked
    | some id => exact closed_stateValid.goal _ id .completed tick hticked
  constructor
  · intro hafter hb
    have hmoved : (s.completed taskId summary t tick memory).tasks[taskId]? =
        some { committed (.complete summary) { summary } t with updatedTick := tick } :=
      getElem?_modify_eq_some.2 (.inl ⟨rfl, t, ht, rfl⟩)
    exact (hafter.tasks.entry taskId _ hmoved).within hb
  · intro hroom
    refine stateValid_worked hbefore (fun _ => ⟨rfl, rfl, rfl, rfl⟩) fun hb t' ht' => ?_
    obtain rfl : t = t' := Option.some.inj (ht.symm.trans ht')
    exact hroom hb

/-- **A completion keeps the state valid exactly if it stays in the budget.** -/
theorem stateValid_completeExternalTask_iff (h : StateValid bounded s) :
    StateValid bounded (exec (completeExternalTask taskId summary) s).2 ↔
      (bounded → InBudget s taskId summary) := by
  rcases completeExternalTask_cases s taskId summary with ⟨hno, e, s', hexec, hkeep⟩ |
    ⟨t, tick, memory, hyes, -, -, hexec⟩
  · rw [hexec]
    exact ⟨fun _ _ t ht => absurd ht (hno t), fun _ => hkeep _ closed_stateValid h⟩
  · rw [hexec, stateValid_completed h hyes.stored]
    refine forall_congr' fun hb => ?_
    rw [saturatingSucc32_le_iff ((h.tasks.entry taskId t hyes.stored).within hb)]
    refine ⟨fun ht t' ht' => ?_, fun hin => hin t hyes⟩
    obtain rfl : t = t' := Option.some.inj (hyes.stored.symm.trans ht'.stored)
    exact ht

variable {W : Type}

/-- What a call has to respect: a completion stays in the budget of its task. -/
def BudgetStep (s : CognitiveSession W) : CognitiveOp W → Prop
  | .completeExternalTask taskId summary => InBudget s.state taskId summary
  | _ => True

/-- What the mind keeps, the session keeps. -/
theorem mind_of_keeps {I : CognitiveState → Prop} {α : Type} {x : CognitionM α} (h : Keeps I x)
    {s : CognitiveSession W} (hs : I s.state) : I (exec (inside x) s).2.state :=
  (keeps_inside h).final (s := s) hs

theorem state_inside {α : Type} (x : CognitionM α) (s : CognitiveSession W) :
    (exec (inside x) s).2.state = (exec x s.state).2 := by
  rw [inside, exec_zoom]

/-- **Every call keeps the state valid, a completion exactly if it stays in the budget.** -/
theorem stateValid_step_iff [SovereignMemory.CharTables] {s : CognitiveSession W}
    (h : StateValid bounded s.state) (op : CognitiveOp W) :
    StateValid bounded (s.step op).state ↔ (bounded → BudgetStep s op) := by
  have kept : ∀ {α : Type} {x : CognitionM α}, Keeps (StateValid bounded) x →
      (StateValid bounded (exec (inside x) s).2.state ↔ (bounded → True)) :=
    fun hx => ⟨fun _ _ => trivial, fun _ => mind_of_keeps hx h⟩
  cases op <;> simp only [CognitiveSession.step, BudgetStep]
  case addGoal objective criteria => exact kept (keeps_addGoal objective criteria)
  case submitTask intent graph goalId => exact kept (keeps_submitTask intent graph goalId)
  case setWorldFact key value => exact kept (closed_stateValid.setWorldFact key value)
  case installDelta nameSpace generation payload =>
    exact kept (keeps_installDelta nameSpace generation payload)
  case activateDelta deltaId hook =>
    have closed : Closed (StateValid bounded) := closed_stateValid
    exact ⟨fun _ _ => trivial, fun _ => (keeps_activateDelta closed deltaId hook).final h⟩
  case storeMemory kind content tags importance tick =>
    exact kept (closed_stateValid.storeMemory kind content tags importance tick)
  case retrieveMemory query tick => exact kept (closed_stateValid.retrieveMemory query tick)
  case forgetMemory id => exact kept (closed_stateValid.forgetMemory id)
  case startExternalTask taskId => exact kept (closedAt_stateValid taskId).startExternalTask
  case completeExternalTask taskId summary =>
    rw [state_inside]
    exact stateValid_completeExternalTask_iff h
  case pauseExternalTask taskId reason =>
    exact kept ((closedAt_stateValid taskId).pauseExternalTask reason)
  case advance taskId signals planner executor verifier =>
    have hroom : ∀ (s : CognitiveState) (t : CognitiveTask), StateValid bounded s →
        s.tasks[taskId]? = some t → t.stepsTaken < t.intent.maxSteps →
        StateValid bounded s ∧ Room taskId s := by
      intro s t hs ht hlt
      refine ⟨hs, fun t' ht' => ?_⟩
      obtain rfl : t = t' := Option.some.inj (ht.symm.trans ht')
      exact hlt
    have closed : ClosedAt taskId (StateValid bounded) := closedAt_stateValid taskId
    have hkeep := keeps_advance closed (closed_room taskId) (fun _ hj => hj.1) hroom
      (fun _ _ hj hf => stateValid_worked_of_room hj.1 hj.2 hf) signals planner executor verifier
    exact ⟨fun _ _ => trivial, fun _ => hkeep.final h⟩

end Budget

/-! ## Settled tasks -/

section Settled

open CognitiveRuntime CognitiveSession

variable {s s' : CognitiveState} {taskId : UInt64} {summary : String}

/-- Two tasks show the same status, steps and observation. -/
structure SameProgress (t t' : CognitiveTask) : Prop where
  status : t'.status = t.status
  stepsTaken : t'.stepsTaken = t.stepsTaken
  lastObservation : t'.lastObservation = t.lastObservation

/-- Every task that is settled in `s` shows the same in `s'`. -/
def Settled (s s' : CognitiveState) : Prop :=
  ∀ (id : UInt64) (t : CognitiveTask), s.tasks[id]? = some t → t.status.isTerminal = true →
    ∃ t', s'.tasks[id]? = some t' ∧ SameProgress t t'

theorem Settled.refl (s : CognitiveState) : Settled s s := fun _ t ht _ => ⟨t, ht, rfl, rfl, rfl⟩

theorem Settled.trans {a b c : CognitiveState} (hab : Settled a b) (hbc : Settled b c) :
    Settled a c := by
  intro id t ht hterm
  obtain ⟨t', ht', hsame⟩ := hab id t ht hterm
  obtain ⟨t'', ht'', hsame'⟩ := hbc id t' ht' (hsame.status ▸ hterm)
  exact ⟨t'', ht'', hsame'.status.trans hsame.status, hsame'.stepsTaken.trans hsame.stepsTaken,
    hsame'.lastObservation.trans hsame.lastObservation⟩

theorem closed_settled (s : CognitiveState) : Closed (Settled s) where
  tick _ _ h := h
  memory _ _ h := h
  fact _ _ _ h _ := h
  goal _ _ _ _ h := h
  delta _ _ h := h

/-- No settled task stands under the id. -/
def Unsettled (taskId : UInt64) (s : CognitiveState) : Prop :=
  ∀ t, s.tasks[taskId]? = some t → t.status.isTerminal = false

/-- A task that was not settled may change in any way. -/
theorem Settled.modify (hopen : Unsettled taskId s) (h : Settled s s')
    (f : CognitiveTask → CognitiveTask) :
    Settled s { s' with tasks := s'.tasks.modify taskId f } := by
  intro id t ht hterm
  obtain ⟨t', ht', hsame⟩ := h id t ht hterm
  have hne : id ≠ taskId := by
    rintro rfl
    exact Bool.false_ne_true ((hopen t ht).symm.trans hterm)
  exact ⟨t', getElem?_modify_eq_some.2 (.inr ⟨hne, ht'⟩), hsame⟩

theorem closedAt_settled (hopen : Unsettled taskId s) : ClosedAt taskId (Settled s) where
  toClosed := closed_settled s
  move _ f h _ := h.modify hopen f

/-- A completion of a settled task repeats what the task already says, at the last count of
steps. -/
structure Repeats (t : CognitiveTask) (summary : String) : Prop where
  status : t.status = .completed
  stepsTaken : t.stepsTaken.toNat = 2 ^ 32 - 1
  lastObservation : t.lastObservation = some summary

/-- The completion, if it goes through, finds a task that is not settled, or repeats what it says. -/
def Absorbed (s : CognitiveState) (taskId : UInt64) (summary : String) : Prop :=
  ∀ t, Completes s taskId summary t → t.status.isTerminal = true → Repeats t summary

/-- **A completion leaves the settled tasks alone exactly if it does not meet one.** -/
theorem settled_completeExternalTask_iff :
    Settled s (exec (completeExternalTask taskId summary) s).2 ↔ Absorbed s taskId summary := by
  rcases completeExternalTask_cases s taskId summary with ⟨hno, e, s', hexec, hkeep⟩ |
    ⟨t, tick, memory, hyes, -, -, hexec⟩
  · rw [hexec]
    exact ⟨fun _ t ht => absurd ht (hno t), fun _ => hkeep _ (closed_settled s) (.refl s)⟩
  rw [hexec]
  have hmoved : (s.completed taskId summary t tick memory).tasks[taskId]? =
      some { committed (.complete summary) { summary } t with updatedTick := tick } :=
    getElem?_modify_eq_some.2 (.inl ⟨rfl, t, hyes.stored, rfl⟩)
  constructor
  · intro h t' ht' hterm
    obtain rfl : t = t' := Option.some.inj (hyes.stored.symm.trans ht'.stored)
    obtain ⟨t', ht', hsame⟩ := h taskId t hyes.stored hterm
    obtain rfl := Option.some.inj (hmoved.symm.trans ht')
    exact ⟨hsame.status.symm, saturatingSucc32_eq_self_iff.1 hsame.stepsTaken,
      hsame.lastObservation.symm⟩
  · intro h id t' ht' hterm
    by_cases hid : id = taskId
    · subst hid
      obtain rfl : t = t' := Option.some.inj (hyes.stored.symm.trans ht')
      have hrep := h t hyes hterm
      exact ⟨_, hmoved, hrep.status.symm, saturatingSucc32_eq_self_iff.2 hrep.stepsTaken,
        hrep.lastObservation.symm⟩
    · exact ⟨t', getElem?_modify_eq_some.2 (.inr ⟨hid, ht'⟩), rfl, rfl, rfl⟩

theorem keeps_addGoal_settled (objective : String) (criteria : List String) :
    Keeps (Settled s) (CognitiveState.addGoal objective criteria) := by
  unfold CognitiveState.addGoal
  refine .refuse_bind fun _ => .bind .read fun _ => .bind (.option _ _) fun _ => ?_
  exact .bind (.write fun _ h => h) fun _ => .ret _

theorem keeps_installDelta_settled (nameSpace : String) (generation : UInt64) (payload : Bytes) :
    Keeps (Settled s) (CognitiveState.installDelta nameSpace generation payload) := by
  unfold CognitiveState.installDelta
  refine .refuse_bind fun _ => .bind .read fun _ => .bind (.option _ _) fun _ => ?_
  exact .bind (.write fun _ h => h) fun _ => .ret _

/-- A new task takes an id that no task has. -/
theorem settled_submitTask (hs : StateValid False s) (intent : Intent) (graph : TaskGraph)
    (goalId : Option UInt64) :
    Settled s (exec (CognitiveState.submitTask intent graph goalId) s).2 := by
  have hrun : Triple (· = s) (CognitiveState.submitTask intent graph goalId) (fun _ => Settled s)
      (fun _ => Settled s) := by
    unfold CognitiveState.submitTask
    have hsame : ∀ t, t = s → Settled s t := fun t ht => ht ▸ .refl s
    refine .refuse_bind (fun _ => .refuse_bind (fun _ => .read_bind fun t ht => ?_) fun _ => hsame)
      fun _ => hsame
    subst ht
    refine .refuse_bind (fun _ => .okOr_bind (fun next _ => ?_) fun _ => hsame) fun _ => hsame
    refine .write_bind (J := Settled t) (.ret fun _ h => h) fun t' ht' => ?_
    subst ht'
    intro id task htask _
    have hne : id ≠ t'.nextTaskId := by
      rintro rfl
      exact nomatch htask.symm.trans hs.tasks.getElem?_next
    exact ⟨task, getElem?_insert_eq_some.2 (.inr ⟨hne, htask⟩), rfl, rfl, rfl⟩
  exact hrun.final rfl

variable {W : Type}

/-- What a call has to respect: a completion meets no settled task. -/
def AbsorbStep (s : CognitiveSession W) : CognitiveOp W → Prop
  | .completeExternalTask taskId summary => Absorbed s.state taskId summary
  | _ => True

/-- A call that ticks, looks the task up and lets it be if it is settled. -/
theorem settled_of_looked_up {t : CognitiveTask} (ht : s.tasks[taskId]? = some t)
    (hterm : t.status.isTerminal = true) (x : CognitionM Unit) :
    Settled s (exec (do
      nextTick
      let current ← task taskId
      if current.status.isTerminal then return ()
      else x) s).2 := by
  cases htick : checkedAdd64 s.tick 1 with
  | none =>
    rw [exec_bind_error (exec_nextTick_none htick)]
    exact .refl s
  | some tick =>
    rw [exec_bind_ok (exec_nextTick_some htick),
      exec_bind_ok (exec_task_some (s := { s with tick }) ht), if_pos hterm]
    exact .refl s

/-- Either the task may change in any way, or it is settled. -/
theorem unsettled_or (s : CognitiveState) (taskId : UInt64) :
    Unsettled taskId s ∨ ∃ t, s.tasks[taskId]? = some t ∧ t.status.isTerminal = true := by
  rw [or_iff_not_imp_left]
  intro hopen
  simp only [Unsettled, not_forall, Bool.not_eq_false] at hopen
  obtain ⟨t, ht, hterm⟩ := hopen
  exact ⟨t, ht, hterm⟩

theorem settled_startExternalTask (s : CognitiveState) (taskId : UInt64) :
    Settled s (exec (startExternalTask taskId) s).2 := by
  rcases unsettled_or s taskId with hopen | ⟨t, ht, hterm⟩
  · exact (closedAt_settled hopen).startExternalTask.final (.refl s)
  · exact settled_of_looked_up ht hterm _

theorem settled_pauseExternalTask (s : CognitiveState) (taskId : UInt64) (reason : String) :
    Settled s (exec (pauseExternalTask taskId reason) s).2 := by
  rcases unsettled_or s taskId with hopen | ⟨t, ht, hterm⟩
  · exact ((closedAt_settled hopen).pauseExternalTask reason).final (.refl s)
  · unfold pauseExternalTask
    by_cases hblank : isBlank reason = true
    · rw [exec_refuse_of_pos hblank]
      exact .refl s
    · rw [exec_refuse_of_neg hblank]
      exact settled_of_looked_up ht hterm _

theorem settled_advance [SovereignMemory.CharTables] (s : CognitiveSession W) (taskId : UInt64)
    (signals : CognitiveSignals) (planner : CognitivePlanner W) (executor : CognitiveExecutor W)
    (verifier : CognitiveVerifier W) :
    Settled s.state (exec (advance taskId signals planner executor verifier) s).2.state := by
  rcases unsettled_or s.state taskId with hopen | ⟨t, ht, hterm⟩
  · have hat := closedAt_settled hopen
    have hkeep := keeps_advance hat hat.toClosed (fun _ h => h) (fun _ _ h _ _ => h)
      (fun _ f h _ => h.modify hopen f) signals planner executor verifier
    exact hkeep.final (s := s) (.refl s.state)
  · have hexec : exec (inside (task taskId) : SessionM W CognitiveTask) s = (.ok t, s) := by
      rw [inside, exec_zoom, exec_task_some ht]
      rfl
    rw [advance, exec_bind_ok hexec, if_pos hterm]
    exact .refl s.state

/-- **Every call leaves the settled tasks alone, a completion exactly if it meets none.** -/
theorem settled_step_iff [SovereignMemory.CharTables] {s : CognitiveSession W}
    (h : StateValid False s.state) (op : CognitiveOp W) :
    Settled s.state (s.step op).state ↔ AbsorbStep s op := by
  have kept : ∀ {α : Type} {x : CognitionM α}, Keeps (Settled s.state) x →
      (Settled s.state (exec (inside x) s).2.state ↔ True) :=
    fun hx => iff_true_intro (mind_of_keeps hx (.refl s.state))
  have closed := closed_settled s.state
  cases op <;> simp only [CognitiveSession.step, AbsorbStep]
  case addGoal objective criteria => exact kept (keeps_addGoal_settled objective criteria)
  case submitTask intent graph goalId =>
    rw [state_inside]
    exact iff_true_intro (settled_submitTask h intent graph goalId)
  case setWorldFact key value => exact kept (closed.setWorldFact key value)
  case installDelta nameSpace generation payload =>
    exact kept (keeps_installDelta_settled nameSpace generation payload)
  case activateDelta deltaId hook =>
    have hkeep := keeps_activateDelta (W := W) closed deltaId hook
    exact iff_true_intro (hkeep.final (s := s) (.refl s.state))
  case storeMemory kind content tags importance tick =>
    exact kept (closed.storeMemory kind content tags importance tick)
  case retrieveMemory query tick => exact kept (closed.retrieveMemory query tick)
  case forgetMemory id => exact kept (closed.forgetMemory id)
  case startExternalTask taskId =>
    rw [state_inside]
    exact iff_true_intro (settled_startExternalTask s.state taskId)
  case completeExternalTask taskId summary =>
    rw [state_inside]
    exact settled_completeExternalTask_iff
  case pauseExternalTask taskId reason =>
    rw [state_inside]
    exact iff_true_intro (settled_pauseExternalTask s.state taskId reason)
  case advance taskId signals planner executor verifier =>
    exact iff_true_intro (settled_advance s taskId signals planner executor verifier)

/-- **Along a run the settled tasks never change again exactly if no completion meets one**, unless
it repeats what the task says. -/
theorem settled_onward_iff [SovereignMemory.CharTables] (identity : CognitiveIdentity) (world : W)
    (ops : List (CognitiveOp W)) :
    Onward CognitiveSession.step (fun s s' : CognitiveSession W => Settled s.state s'.state)
      (.new identity world) ops ↔
      StepsMeet CognitiveSession.step AbsorbStep (.new identity world) ops :=
  onward_iff (J := fun s : CognitiveSession W => StateValid False s.state)
    (fun s => .refl s.state) (fun _ _ _ hab hbc => hab.trans hbc)
    (fun _ op h => (stateValid_step_iff h op).2 False.elim) (fun _ op h => settled_step_iff h op)
    ops _ (stateValid_new False identity)

end Settled

namespace CognitionSample

/-- The letters and digits of ASCII. -/
scoped instance : SovereignMemory.CharTables := ⟨Char.isAlphanum⟩

theorem length_sevens : (List.replicate 16 (7 : UInt8)).length = 16 := rfl

def identity : CognitiveIdentity where
  bytes := List.replicate 16 7
  length_eq := length_sevens

/-- A mind with one task of a single step, which is reported complete. -/
def completedOnce : CognitiveSession Unit :=
  run CognitiveSession.step (.new identity ())
    [.submitTask { objective := "tidy", completionCriteria := [], maxSteps := 1 } {} none,
      .completeExternalTask 1 "done"]

/-- The same report once more. -/
def completedTwice : CognitiveSession Unit :=
  completedOnce.step (.completeExternalTask 1 "done")

end CognitionSample

open CognitionSample in
/-- A task that was reported complete counts another step when it is reported again. -/
theorem not_settled_completedTwice : ¬ Settled completedOnce.state completedTwice.state := by
  have hbefore : (completedOnce.state.tasks[(1 : UInt64)]?.map fun t => (t.status, t.stepsTaken))
      = some (.completed, 1) := by
    decide +kernel
  have hafter : (completedTwice.state.tasks[(1 : UInt64)]?.map fun t => (t.status, t.stepsTaken))
      = some (.completed, 2) := by
    decide +kernel
  intro h
  obtain ⟨t, ht, hprogress⟩ := Option.map_eq_some_iff.1 hbefore
  obtain ⟨hstatus, hsteps⟩ := Prod.mk.inj hprogress
  obtain ⟨t', ht', hsame⟩ := h 1 t ht (hstatus ▸ rfl)
  obtain ⟨t'', ht'', hprogress'⟩ := Option.map_eq_some_iff.1 hafter
  obtain rfl : t' = t'' := Option.some.inj (ht'.symm.trans ht'')
  have hsteps' := hsame.stepsTaken.symm.trans (Prod.mk.inj hprogress').2
  exact absurd (hsteps.symm.trans hsteps') (by decide)

end NTD97
