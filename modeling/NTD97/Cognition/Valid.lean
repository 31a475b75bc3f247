import Mathlib
import NTD97.Cognition
import NTD97.Lib.Run

/-!
# Cognition/Valid — what the validator decides, and what each call keeps

    validateState state = ok ()  ↔  StateValid True state

`StateValid bounded` states the validator's checks by lookup; the step budget of a task is part of
it only when `bounded` holds, since one call does not respect it.  `Closed I` says that `I` survives
the changes the calls make next to a task — a tick, a memory, a fact, a settled goal — so every call
is walked through once, for every such `I`.
-/

namespace NTD97

open Guard Effect Text SortedMap Machine

/-! ## The valid states

A state is valid entry by entry; tasks also look at the goals they are for. -/

/-- A goal under its own id that says something. -/
structure GoalValid (id : UInt64) (goal : Goal) : Prop where
  keyed : id = goal.id
  objective : isBlank goal.objective = false

/-- A delta under its own id, in a namespace that has a name. -/
structure DeltaValid (id : UInt64) (delta : LearnedDelta) : Prop where
  keyed : id = delta.id
  nameSpace : isBlank delta.nameSpace = false

/-- A fact under its own key, revised once at least. -/
structure FactValid (key : String) (fact : WorldFact) : Prop where
  keyed : key = fact.key
  nonblank : isBlank key = false
  revised : fact.revision ≠ 0

/-- A task under its own id; with `bounded` its steps are within its budget. -/
structure TaskValid (bounded : Prop) (goals : BTreeMap UInt64 Goal) (id : UInt64)
    (task : CognitiveTask) : Prop where
  keyed : id = task.id
  objective : isBlank task.intent.objective = false
  budget_ne : task.intent.maxSteps ≠ 0
  goal : ∀ g, task.goalId = some g → g ∈ goals
  within : bounded → task.stepsTaken ≤ task.intent.maxSteps

/-- **A valid state**, with its tasks inside their step budgets if `bounded`. -/
structure StateValid (bounded : Prop) (s : CognitiveState) : Prop where
  goals : Numbered GoalValid s.nextGoalId s.goals
  tasks : Numbered (TaskValid bounded s.goals) s.nextTaskId s.tasks
  world : ∀ (key : String) (fact : WorldFact), s.world[key]? = some fact → FactValid key fact
  deltas : Numbered DeltaValid s.nextDeltaId s.deltas

/-- A task may be for no goal. -/
theorem goalId_any_iff {o : Option UInt64} {goals : BTreeMap UInt64 Goal} :
    ¬ o.any (!goals.contains ·) = true ↔ ∀ g, o = some g → g ∈ goals := by
  cases o with
  | none => simp
  | some g => simp [Std.ExtTreeMap.contains_iff_mem]

/-- **The validator accepts exactly the valid states.** -/
theorem validateState_eq_ok {s : CognitiveState} :
    validateState s = .ok () ↔ StateValid True s := by
  have hgoal : ∀ e : UInt64 × Goal, (¬ e.1 ≠ e.2.id ∧ ¬ isBlank e.2.objective = true) ↔
      GoalValid e.1 e.2 := fun e => by
    simp only [ne_eq, not_not, Bool.not_eq_true]
    exact ⟨fun ⟨h₁, h₂⟩ => ⟨h₁, h₂⟩, fun ⟨h₁, h₂⟩ => ⟨h₁, h₂⟩⟩
  have hdelta : ∀ e : UInt64 × LearnedDelta, (¬ e.1 ≠ e.2.id ∧ ¬ isBlank e.2.nameSpace = true) ↔
      DeltaValid e.1 e.2 := fun e => by
    simp only [ne_eq, not_not, Bool.not_eq_true]
    exact ⟨fun ⟨h₁, h₂⟩ => ⟨h₁, h₂⟩, fun ⟨h₁, h₂⟩ => ⟨h₁, h₂⟩⟩
  have hfact : ∀ e : String × WorldFact,
      (¬ e.1 ≠ e.2.key ∧ ¬ isBlank e.1 = true ∧ ¬ e.2.revision = 0) ↔ FactValid e.1 e.2 := fun e => by
    simp only [ne_eq, not_not, Bool.not_eq_true]
    exact ⟨fun ⟨h₁, h₂, h₃⟩ => ⟨h₁, h₂, h₃⟩, fun ⟨h₁, h₂, h₃⟩ => ⟨h₁, h₂, h₃⟩⟩
  have htask : ∀ e : UInt64 × CognitiveTask,
      ((¬ e.1 ≠ e.2.id ∧ ¬ isBlank e.2.intent.objective = true ∧ ¬ e.2.intent.maxSteps = 0 ∧
        ¬ e.2.intent.maxSteps < e.2.stepsTaken) ∧ ∀ g, e.2.goalId = some g → g ∈ s.goals) ↔
      TaskValid True s.goals e.1 e.2 := fun e => by
    simp only [ne_eq, not_not, Bool.not_eq_true, UInt32.not_lt]
    exact ⟨fun ⟨⟨h₁, h₂, h₃, h₄⟩, h₅⟩ => ⟨h₁, h₂, h₃, h₅, fun _ => h₄⟩,
      fun ⟨h₁, h₂, h₃, h₅, h₄⟩ => ⟨⟨h₁, h₂, h₃, h₄ trivial⟩, h₅⟩⟩
  simp only [validateState, bind_eq_ok, exists_unit, refuse_eq_ok, forM_eq_ok, goalId_any_iff,
    hgoal, hdelta, hfact, htask, not_or, any_getLast?_keys_iff,
    forall_mem_toList (Q := fun e : UInt64 × Goal => GoalValid e.1 e.2),
    forall_mem_toList (Q := fun e : UInt64 × LearnedDelta => DeltaValid e.1 e.2),
    forall_mem_toList (Q := fun e : String × WorldFact => FactValid e.1 e.2),
    forall_mem_toList (Q := fun e : UInt64 × CognitiveTask => TaskValid True s.goals e.1 e.2)]
  constructor
  · rintro ⟨⟨hg, ht, hd⟩, ⟨hgl, htl, hdl⟩, hgoals, htasks, hworld, hdeltas⟩
    exact ⟨⟨hg, hgl, hgoals⟩, ⟨ht, htl, htasks⟩, hworld, ⟨hd, hdl, hdeltas⟩⟩
  · intro h
    exact ⟨⟨h.goals.next_ne, h.tasks.next_ne, h.deltas.next_ne⟩,
      ⟨h.goals.id_lt, h.tasks.id_lt, h.deltas.id_lt⟩, h.goals.entry, h.tasks.entry, h.world,
      h.deltas.entry⟩

/-- A new mind is valid. -/
theorem stateValid_new (bounded : Prop) (identity : CognitiveIdentity) :
    StateValid bounded (.new identity) :=
  ⟨.empty, .empty, fun _ _ h => by simp [CognitiveState.new] at h, .empty⟩

/-! ## What the calls change next to a task

One rule for each call, over an invariant that its changes keep. -/

/-- **`I` survives the changes next to a task.** -/
structure Closed (I : CognitiveState → Prop) : Prop where
  tick : ∀ s tick, I s → I { s with tick }
  memory : ∀ s memory, I s → I { s with memory }
  fact : ∀ s key fact, I s → FactValid key fact → I { s with world := s.world.insert key fact }
  goal : ∀ s id status updatedTick, I s →
    I { s with goals := s.goals.modify id ({ · with status, updatedTick }) }
  delta : ∀ s id, I s → I { s with deltas := s.deltas.modify id ({ · with active := true }) }

/-- A task that was moved without working on it. -/
structure Moved (t t' : CognitiveTask) : Prop where
  id : t'.id = t.id
  goalId : t'.goalId = t.goalId
  intent : t'.intent = t.intent
  stepsTaken : t'.stepsTaken = t.stepsTaken

/-- A task that was worked on for one step. -/
structure Worked (t t' : CognitiveTask) : Prop where
  id : t'.id = t.id
  goalId : t'.goalId = t.goalId
  intent : t'.intent = t.intent
  stepsTaken : t'.stepsTaken = saturatingSucc32 t.stepsTaken

/-- `I` survives, besides, that a given task is moved. -/
structure ClosedAt (taskId : UInt64) (I : CognitiveState → Prop) : Prop extends Closed I where
  move : ∀ s (f : CognitiveTask → CognitiveTask), I s → (∀ t, Moved t (f t)) →
    I { s with tasks := s.tasks.modify taskId f }

namespace Closed

variable {I : CognitiveState → Prop} (h : Closed I)

include h

/-- The clock moves on. -/
theorem nextTick : Keeps I CognitiveRuntime.nextTick :=
  .bind .read fun _ => .bind (.option _ _) fun tick => .write fun s hs => h.tick s tick hs

omit h in
/-- A task is looked up. -/
theorem task (taskId : UInt64) : Keeps I (CognitiveRuntime.task taskId) :=
  .bind .read fun _ => .option _ _

/-- A memory is stored. -/
theorem storeMemory (kind : MemoryKind) (content : String) (tags : List String)
    (importance : UInt16) (tick : UInt64) :
    Keeps I (CognitiveState.storeMemory kind content tags importance tick) :=
  .bind .read fun _ => .bind (.checked _ _) fun r =>
    .bind (.write fun s hs => h.memory s r.2 hs) fun _ => .ret _

/-- Memories are looked up and marked as used. -/
theorem retrieveMemory [SovereignMemory.CharTables] (query : MemoryQuery) (tick : UInt64) :
    Keeps I (CognitiveState.retrieveMemory query tick) := by
  unfold CognitiveState.retrieveMemory
  refine .bind .read fun s => ?_
  rcases s.memory.retrieve query tick with ⟨answer, memory⟩
  exact .bind (.write fun t ht => h.memory t memory ht) fun _ => .checked _ _

/-- A memory is forgotten. -/
theorem forgetMemory (id : UInt64) : Keeps I (CognitiveState.forgetMemory id) := by
  unfold CognitiveState.forgetMemory
  refine .bind .read fun s => ?_
  rcases s.memory.forget id with ⟨found, memory⟩
  exact .bind (.write fun t ht => h.memory t memory ht) fun _ => .ret _

/-- A memory is stored at the present tick. -/
theorem remember (kind : MemoryKind) (content : String) (tags : List String)
    (importance : UInt16) : Keeps I (CognitiveRuntime.remember kind content tags importance) := by
  unfold CognitiveRuntime.remember
  refine .bind .read fun s => ?_
  exact .bind (h.storeMemory kind content tags importance s.tick) fun _ => .ret _

/-- A goal changes its status. -/
theorem goalMut (goalId : Option UInt64) (status : GoalStatus) :
    Keeps I (CognitiveRuntime.goalMut goalId status) := by
  refine .write fun s hs => ?_
  cases goalId with
  | none => exact hs
  | some id => exact h.goal s id status s.tick hs

/-- A fact is recorded. -/
theorem setWorldFact (key value : String) : Keeps I (CognitiveState.setWorldFact key value) := by
  unfold CognitiveState.setWorldFact
  refine .refuse_bind fun hkey => .read_bind fun s hs => .write fun t ht => ?_
  subst ht
  refine h.fact t key _ hs ⟨rfl, Bool.not_eq_true _ ▸ hkey, ?_⟩
  cases t.world[key]? with
  | none => exact fun h => (nomatch h)
  | some fact => exact saturatingSucc64_ne_zero fact.revision

/-- What a thought asks for is done. -/
theorem applyDirective (taskId : UInt64) (directive : CognitiveDirective) :
    Keeps I (CognitiveRuntime.applyDirective taskId directive) := by
  cases directive with
  | «recall» query | work instruction => exact .ret ()
  | recordMemory kind content tags importance => exact h.remember kind content tags importance
  | updateWorld key value => exact h.setWorldFact key value
  | complete summary =>
    refine .bind (task taskId) fun current => .bind (h.goalMut current.goalId .completed) fun _ => ?_
    exact h.remember ..

end Closed

namespace ClosedAt

variable {I : CognitiveState → Prop} {taskId : UInt64} (h : ClosedAt taskId I)

include h

/-- A task moves on in a way that keeps its objective. -/
theorem taskMut {f : CognitiveTask → CognitiveTask} (hf : ∀ t, Moved t (f t)) :
    Keeps I (CognitiveRuntime.taskMut taskId f) := by
  refine .bind (Closed.task taskId) fun _ => .write fun s hs => h.move s _ hs fun t => ?_
  exact ⟨(hf t).id, (hf t).goalId, (hf t).intent, (hf t).stepsTaken⟩

/-- A task is started from outside. -/
theorem startExternalTask : Keeps I (CognitiveRuntime.startExternalTask taskId) := by
  unfold CognitiveRuntime.startExternalTask
  refine .bind h.nextTick fun _ => .bind (Closed.task taskId) fun _ => ?_
  refine .branch (fun _ => .ret ()) fun _ => h.taskMut fun _ => ?_
  exact ⟨rfl, rfl, rfl, rfl⟩

/-- A task is paused from outside. -/
theorem pauseExternalTask (reason : String) :
    Keeps I (CognitiveRuntime.pauseExternalTask taskId reason) := by
  unfold CognitiveRuntime.pauseExternalTask
  refine .refuse_bind fun _ => .bind h.nextTick fun _ => .bind (Closed.task taskId) fun _ => ?_
  refine .branch (fun _ => .ret ()) fun _ => .bind (h.taskMut fun _ => ?_) fun _ => ?_
  · exact ⟨rfl, rfl, rfl, rfl⟩
  · exact h.remember ..

/-- A task fails. -/
theorem failTask (reason : String) : Keeps I (CognitiveRuntime.failTask taskId reason) := by
  unfold CognitiveRuntime.failTask
  refine .bind (Closed.task taskId) fun current => .bind (h.taskMut fun _ => ?_) fun _ => ?_
  · exact ⟨rfl, rfl, rfl, rfl⟩
  · refine .bind (h.goalMut current.goalId .failed) fun _ => ?_
    exact h.remember ..

/-- A task is to be tried again. -/
theorem retryTask (reason : String) : Keeps I (CognitiveRuntime.retryTask taskId reason) := by
  unfold CognitiveRuntime.retryTask
  refine .bind (h.taskMut fun _ => ?_) fun _ => ?_
  · exact ⟨rfl, rfl, rfl, rfl⟩
  · exact h.remember ..

end ClosedAt

/-! ## Rounds of thinking

A cycle alternates between calls on the mind and calls of the cognitive engine, which may change the
world outside. -/

namespace CognitiveSession

open CognitiveRuntime

variable {W : Type} {I J : CognitiveState → Prop} {taskId : UInt64}

/-- The mind of the session has the property. -/
def Mind (I : CognitiveState → Prop) (s : CognitiveSession W) : Prop := I s.state

/-- The rule for a call on the mind. -/
theorem triple_inside {α : Type} {x : CognitionM α} {Q : α → CognitiveState → Prop}
    {E : CognitiveError → CognitiveState → Prop} (h : Triple I x Q E) :
    Triple (Mind I) (inside x : SessionM W α) (fun a => Mind (Q a)) (fun e => Mind (E e)) := by
  refine .of_exec fun s hs => ?_
  have hx := h.exec_of (s := s.state) hs
  rw [inside, exec_zoom]
  generalize exec x s.state = r at hx ⊢
  rcases r with ⟨e | a, t⟩ <;> exact hx

/-- A call on the mind that keeps the invariant. -/
theorem keeps_inside {α : Type} {x : CognitionM α} (h : Keeps I x) :
    Keeps (Mind I) (inside x : SessionM W α) := .of_triple (triple_inside h.triple)

/-- What happens outside does not touch the mind. -/
theorem keeps_outside {α : Type} (call : W → α × W) :
    Keeps (Mind I) (outside call : SessionM W α) := by
  unfold outside
  refine .bind .read fun s => ?_
  rcases call s.world with ⟨a, world⟩
  exact .bind (.write fun _ hs => hs) fun _ => .ret a

/-- A context is made without changing anything. -/
theorem keeps_context (budget : ReasoningBudget) (iteration : UInt32) :
    Keeps (Mind I) (context taskId budget iteration : SessionM W CognitiveContext) :=
  .bind .read fun _ => .bind (keeps_inside (Closed.task taskId)) fun _ => .ret _

/-- The task read is the one the mind holds. -/
theorem triple_task_bind {β : Type} {P : CognitiveSession W → Prop} {f : CognitiveTask → SessionM W β}
    {R : β → CognitiveSession W → Prop} {E : CognitiveError → CognitiveSession W → Prop}
    (hsome : ∀ s t, P s → s.state.tasks[taskId]? = some t → Triple (· = s) (f t) R E)
    (hnone : ∀ s, P s → E (.missingTask taskId) s) :
    Triple P (inside (task taskId) >>= f) R E := by
  refine .of_exec fun s hs => ?_
  have hexec : exec (inside (task taskId) : SessionM W CognitiveTask) s
      = ((okOr s.state.tasks[taskId]? (.missingTask taskId) : Except _ _).mapError id, s) := by
    rw [inside, exec_zoom, task, exec_get_bind]
    cases s.state.tasks[taskId]? <;> rfl
  cases ht : s.state.tasks[taskId]? with
  | none =>
    rw [ht] at hexec
    rw [exec_bind_error hexec]
    exact hnone s hs
  | some t =>
    rw [ht] at hexec
    rw [exec_bind_ok hexec]
    exact (hsome s t hs ht).exec_of rfl

/-- A directive is carried out. -/
theorem keeps_executeDirective [SovereignMemory.CharTables] (h : Closed I)
    (directive : CognitiveDirective) (budget : ReasoningBudget) (iteration : UInt32)
    (executor : CognitiveExecutor W) :
    Keeps (Mind I) (executeDirective taskId directive budget iteration executor) := by
  cases directive with
  | «recall» query =>
    exact .bind .read fun s => .bind (keeps_inside (h.retrieveMemory query s.state.tick))
      fun _ => .ret _
  | recordMemory | updateWorld | complete => exact .ret _
  | work instruction =>
    exact .bind (keeps_context budget iteration) fun _ => .bind (keeps_outside _)
      fun _ => .checked _ _

/-- An accepted directive: its effect next to the task, then one step of work on it. -/
theorem triple_commitDirective (hJ : Closed J) (hJI : ∀ s, J s → I s)
    (hwork : ∀ s (f : CognitiveTask → CognitiveTask), J s → (∀ t, Worked t (f t)) →
      I { s with tasks := s.tasks.modify taskId f })
    (directive : CognitiveDirective) (observation : CognitiveObservation) :
    Triple J (commitDirective taskId directive observation) (fun _ => I) (fun _ => I) := by
  refine Triple.bind ((hJ.applyDirective taskId directive).triple_of hJI) fun _ => ?_
  refine Triple.bind ((Closed.task taskId).triple_of hJI) fun _ => Triple.write fun s hs => ?_
  exact hwork s _ hs fun t => ⟨rfl, rfl, rfl, rfl⟩

/-- **Every round of thinking keeps what the moves of a task keep**, if working on a task with steps
left keeps it, too. -/
theorem keeps_think [SovereignMemory.CharTables] (hI : ClosedAt taskId I) (hJ : Closed J)
    (hJI : ∀ s, J s → I s)
    (hroom : ∀ s t, I s → s.tasks[taskId]? = some t → t.stepsTaken < t.intent.maxSteps → J s)
    (hwork : ∀ s (f : CognitiveTask → CognitiveTask), J s → (∀ t, Worked t (f t)) →
      I { s with tasks := s.tasks.modify taskId f })
    (budget : ReasoningBudget) (planner : CognitivePlanner W) (executor : CognitiveExecutor W)
    (verifier : CognitiveVerifier W) : ∀ (rounds : ℕ) (iteration iterations : UInt32),
      Keeps (Mind I) (think taskId budget planner executor verifier rounds iteration iterations)
  | 0, _, _ => .ret _
  | rounds + 1, iteration, iterations => by
      have hrest := keeps_think hI hJ hJI hroom hwork budget planner executor verifier rounds
      refine .of_triple (triple_task_bind (fun s t hs ht => ?_) fun s hs => hs)
      refine Triple.branch (fun _ => ?_) fun hlt => ?_
      · refine Triple.conseq (P := Mind I) ?_ (fun _ h => h ▸ hs) (fun _ _ h => h) fun _ _ h => h
        exact (Keeps.bind (keeps_inside (hI.failTask _)) fun _ => .ret _).triple
      · have hroom' : Mind J s := hroom s.state t hs ht (UInt32.not_le.1 hlt)
        have hJI' : ∀ s : CognitiveSession W, Mind J s → Mind I s := fun s => hJI s.state
        refine Triple.conseq (P := Mind J) ?_ (fun _ h => h ▸ hroom') (fun _ _ h => h) fun _ _ h => h
        refine Triple.bind ((keeps_inside hJ.nextTick).triple_of hJI') fun _ => ?_
        refine Triple.bind ((keeps_context ..).triple_of hJI') fun _ => ?_
        refine Triple.bind ((keeps_outside _).triple_of hJI') fun _ => ?_
        refine Triple.bind ((Keeps.checked _ _).triple_of hJI') fun directive => ?_
        refine Triple.bind ((keeps_executeDirective hJ ..).triple_of hJI') fun observation => ?_
        refine Triple.bind ((keeps_context ..).triple_of hJI') fun _ => ?_
        refine Triple.bind ((keeps_outside _).triple_of hJI') fun decision => ?_
        cases decision with
        | accept =>
          refine Triple.bind (triple_inside (triple_commitDirective hJ hJI hwork _ _)) fun _ => ?_
          exact Triple.branch (fun _ => (Keeps.ret _).triple) fun _ => (hrest ..).triple
        | retry reason =>
          refine Triple.conseq (P := Mind I) ?_ hJI' (fun _ _ h => h) fun _ _ h => h
          exact (Keeps.bind (keeps_inside (hI.retryTask _)) fun _ => hrest ..).triple
        | reject reason =>
          refine Triple.conseq (P := Mind I) ?_ hJI' (fun _ _ h => h) fun _ _ h => h
          exact (Keeps.bind (keeps_inside (hI.failTask _)) fun _ => .ret _).triple

/-- A delta is activated through the hook. -/
theorem keeps_activateDelta (h : Closed I) (deltaId : UInt64) (hook : DeltaActivationHook W) :
    Keeps (Mind I) (activateDelta deltaId hook) := by
  unfold activateDelta
  refine .bind .read fun _ => .bind (.option _ _) fun _ => .bind (keeps_outside _) fun _ => ?_
  exact .bind (.checked _ _) fun _ => .write fun s hs => h.delta s.state deltaId hs

/-- **Thinking about a task**: nothing happens to a settled one, and its rounds keep what moving and
working on it keep. -/
theorem keeps_advance [SovereignMemory.CharTables] (hI : ClosedAt taskId I) (hJ : Closed J)
    (hJI : ∀ s, J s → I s)
    (hroom : ∀ s t, I s → s.tasks[taskId]? = some t → t.stepsTaken < t.intent.maxSteps → J s)
    (hwork : ∀ s (f : CognitiveTask → CognitiveTask), J s → (∀ t, Worked t (f t)) →
      I { s with tasks := s.tasks.modify taskId f })
    (signals : CognitiveSignals) (planner : CognitivePlanner W) (executor : CognitiveExecutor W)
    (verifier : CognitiveVerifier W) :
    Keeps (Mind I) (advance taskId signals planner executor verifier) := by
  unfold advance
  refine .bind (keeps_inside (Closed.task taskId)) fun current => ?_
  refine .branch (fun _ => .ret _) fun _ => .bind (.write fun s hs => ?_) fun _ => ?_
  · exact hI.move s.state _ hs fun t => ⟨rfl, rfl, rfl, rfl⟩
  · refine .bind (keeps_think hI hJ hJI hroom hwork ..) fun _ => ?_
    exact .bind (keeps_inside (Closed.task taskId)) fun _ => .ret _

end CognitiveSession

/-! ## Validity is kept

It is closed under each of the changes above, so every call keeps it. -/

section Valid

variable {bounded : Prop}

/-- Goals may be added. -/
theorem TaskValid.mono {goals goals' : BTreeMap UInt64 Goal} {id : UInt64} {task : CognitiveTask}
    (h : TaskValid bounded goals id task) (hsub : ∀ g ∈ goals, g ∈ goals') :
    TaskValid bounded goals' id task :=
  ⟨h.keyed, h.objective, h.budget_ne, fun g hg => hsub g (h.goal g hg), h.within⟩

/-- **Validity is closed under what the calls do.** -/
theorem closed_stateValid : Closed (StateValid bounded) where
  tick _ _ h := ⟨h.goals, h.tasks, h.world, h.deltas⟩
  memory _ _ h := ⟨h.goals, h.tasks, h.world, h.deltas⟩
  fact s key fact h hfact := by
    refine ⟨h.goals, h.tasks, fun k f hf => ?_, h.deltas⟩
    rcases getElem?_insert_eq_some.1 hf with ⟨rfl, rfl⟩ | ⟨-, hf⟩
    · exact hfact
    · exact h.world k f hf
  goal s id status updatedTick h := by
    refine ⟨h.goals.modify fun g _ hg => ⟨hg.keyed, hg.objective⟩, h.tasks.mono fun k t ht => ?_,
      h.world, h.deltas⟩
    exact ht.mono fun g hg => Std.ExtTreeMap.mem_modify.2 hg
  delta s id h := ⟨h.goals, h.tasks, h.world, h.deltas.modify fun _ _ hd => ⟨hd.keyed, hd.nameSpace⟩⟩

/-- Validity is closed under what the calls do to one task. -/
theorem closedAt_stateValid (taskId : UInt64) : ClosedAt taskId (StateValid bounded) where
  toClosed := closed_stateValid
  move s f h hf := by
    refine ⟨h.goals, h.tasks.modify fun t _ ht => ?_, h.world, h.deltas⟩
    refine ⟨ht.keyed.trans (hf t).id.symm, ?_, ?_, fun g hg => ht.goal g ((hf t).goalId ▸ hg), ?_⟩
    · rw [(hf t).intent]
      exact ht.objective
    · rw [(hf t).intent]
      exact ht.budget_ne
    · rw [(hf t).intent, (hf t).stepsTaken]
      exact ht.within

/-- A goal is added. -/
theorem keeps_addGoal (objective : String) (criteria : List String) :
    Keeps (StateValid bounded) (CognitiveState.addGoal objective criteria) := by
  unfold CognitiveState.addGoal
  refine .refuse_bind fun hobj => .read_bind fun s hs => .okOr_bind (fun next hnext => ?_)
    fun _ _ h => h ▸ hs
  refine .write_bind (J := StateValid bounded) (.ret fun _ h => h) fun t ht => ?_
  subst ht
  refine ⟨hs.goals.insert (checkedAdd64_eq_some.1 hnext) ⟨rfl, Bool.not_eq_true _ ▸ hobj⟩,
    hs.tasks.mono fun k task htask => htask.mono fun g hg => ?_, hs.world, hs.deltas⟩
  exact Std.ExtTreeMap.mem_insert.2 (.inr hg)

/-- A task is added. -/
theorem keeps_submitTask (intent : Intent) (graph : TaskGraph) (goalId : Option UInt64) :
    Keeps (StateValid bounded) (CognitiveState.submitTask intent graph goalId) := by
  unfold CognitiveState.submitTask
  refine .refuse_bind fun hobj => .refuse_bind fun hsteps => .read_bind fun s hs => ?_
  refine .refuse_bind (fun hgoal => .okOr_bind (fun next hnext => ?_) fun _ _ h => h ▸ hs)
    fun _ _ h => h ▸ hs
  refine .write_bind (J := StateValid bounded) (.ret fun _ h => h) fun t ht => ?_
  subst ht
  refine ⟨hs.goals, hs.tasks.insert (checkedAdd64_eq_some.1 hnext) ?_, hs.world, hs.deltas⟩
  exact ⟨rfl, Bool.not_eq_true _ ▸ hobj, hsteps, goalId_any_iff.1 hgoal,
    fun _ => UInt32.zero_le⟩

/-- A delta is added. -/
theorem keeps_installDelta (nameSpace : String) (generation : UInt64) (payload : Bytes) :
    Keeps (StateValid bounded) (CognitiveState.installDelta nameSpace generation payload) := by
  unfold CognitiveState.installDelta
  refine .refuse_bind fun hname => .read_bind fun s hs => .okOr_bind (fun next hnext => ?_)
    fun _ _ h => h ▸ hs
  refine .write_bind (J := StateValid bounded) (.ret fun _ h => h) fun t ht => ?_
  subst ht
  exact ⟨hs.goals, hs.tasks, hs.world,
    hs.deltas.insert (checkedAdd64_eq_some.1 hnext) ⟨rfl, Bool.not_eq_true _ ▸ hname⟩⟩

end Valid


end NTD97
