import Mathlib
import NTD97.ActionFabric

/-!
# ActionFabric/Valid — what the validator decides

    validateFabricState registry state = ok ()  ↔  FabricValid registry state

The validator walks the plans in key order with a set of the action ids met so far.  `FabricValid`
states the same by lookup: every plan stands under its own id, every action honours its capability
and sits where its plan's progress puts it, and no action id occurs twice.
-/

namespace NTD97

open Guard SortedMap

variable {registry : CapabilityRegistry}

/-! ## One action -/

/-- An action keeps the contract of its capability. -/
structure Honours (d : CapabilityDescriptor) (a : PlannedAction) : Prop where
  version : d.version = a.capabilityVersion
  sideEffect : d.sideEffect = a.sideEffect
  verified : d.verificationRequired = true → a.verificationRequired = true
  resumable : a.resumeToken.isSome = true → d.resumable = true
  undoable : a.rollbackToken.isSome = true → d.rollbackSupported = true

/-- The registry admits the action, and the action keeps its contract. -/
def Admitted (registry : CapabilityRegistry) (a : PlannedAction) : Prop :=
  ∃ d, registry.validateAction a.capability a.action = .ok d ∧ Honours d a

/-- The status of a plan fits the action under its cursor. -/
def CurrentFits : ActionPlanStatus → PlannedAction → Prop
  | .suspended, a => a.status = .suspended ∧ a.resumeToken.isSome = true
  | .ready, a => a.status = .prepared ∨ a.status = .retryable ∨ a.status = .running
  | .failed, a => a.status = .failed ∨ a.status = .rolledBack
  | .completed, _ => True
  | .rolledBack, _ => True

/-- **Progress**: committed before the cursor, untouched after it, and in between what the plan's
status says. -/
structure Placed (status : ActionPlanStatus) (cursor index : ℕ) (a : PlannedAction) : Prop where
  before : index < cursor → status ≠ .rolledBack → a.status = .committed
  after : cursor < index → a.status = .prepared
  current : index = cursor → CurrentFits status a

theorem validateCurrent_eq_ok {status : ActionPlanStatus} {a : PlannedAction} :
    validateCurrent status a = .ok () ↔ CurrentFits status a := by
  cases status with
  | suspended =>
    simp only [validateCurrent, CurrentFits, refuse_eq_ok, not_or, ne_eq, not_not,
      Bool.not_eq_true, Option.isNone_eq_false_iff]
  | ready | failed => simp only [validateCurrent, CurrentFits, refuse_eq_ok, not_not]
  | completed | rolledBack => simp only [validateCurrent, CurrentFits, pure_eq_ok]

/-- The checks on one action, apart from its place under the cursor. -/
def ActionPasses (registry : CapabilityRegistry) (plan : ActionPlanState) (a : PlannedAction)
    (index : ℕ) : Prop :=
  a.id.val ≠ 0 ∧ Admitted registry a ∧
    (index < plan.cursor → plan.status ≠ .rolledBack → a.status = .committed) ∧
    (plan.cursor < index → a.status = .prepared)

theorem validatePlannedAction_eq_ok (plan : ActionPlanState) (seen : SeenIds)
    (e : PlannedAction × ℕ) (r : SeenIds) :
    validatePlannedAction registry plan seen e = .ok r ↔
      ActionPasses registry plan e.1 e.2 ∧ Fresh seen.1 [e.1.id.val] ∧
        r = collect max seen [e.1.id.val] := by
  obtain ⟨a, index⟩ := e
  simp only [validatePlannedAction, bind_eq_ok, exists_unit, refuse_eq_ok, mapError_eq_ok,
    pure_eq_ok, fresh_singleton, ActionPasses, Admitted, not_or, not_and, ne_eq, not_not,
    Std.ExtTreeSet.contains_iff_mem]
  constructor
  · rintro ⟨⟨hid, hfresh⟩, d, hd, ⟨hver, hse⟩, hverif, hres, hroll, hbefore, hafter, rfl⟩
    exact ⟨⟨hid, ⟨d, hd, hver, hse, hverif, hres, hroll⟩, hbefore, hafter⟩, hfresh, rfl⟩
  · rintro ⟨⟨hid, ⟨d, hd, h⟩, hbefore, hafter⟩, hfresh, rfl⟩
    exact ⟨⟨hid, hfresh⟩, d, hd, ⟨h.version, h.sideEffect⟩, h.verified, h.resumable, h.undoable,
      hbefore, hafter, rfl⟩

/-! ## One plan -/

/-- The ids of a plan's actions. -/
def ActionPlanState.actionIds (plan : ActionPlanState) : List UInt64 :=
  plan.actions.map fun a => a.id.val

/-- **A valid plan.** -/
structure PlanValid (registry : CapabilityRegistry) (key : UInt64) (plan : ActionPlanState) :
    Prop where
  keyed : key = plan.id.val
  id_ne : key ≠ 0
  task_ne : plan.taskId ≠ 0
  cursor_le : plan.cursor ≤ plan.actions.length
  actions : ∀ i a, plan.actions[i]? = some a →
    a.id.val ≠ 0 ∧ Admitted registry a ∧ Placed plan.status plan.cursor i a
  exhausted : plan.status = .completed → plan.cursor = plan.actions.length

/-- The actions of a completed plan are all committed. -/
theorem PlanValid.committed_of_completed {key : UInt64} {plan : ActionPlanState}
    (h : PlanValid registry key plan) (hst : plan.status = .completed) :
    ∀ a ∈ plan.actions, a.status = .committed := by
  intro a ha
  obtain ⟨i, hi, rfl⟩ := List.getElem_of_mem ha
  refine (h.actions i _ (List.getElem?_eq_getElem hi)).2.2.before ?_ ?_
  · rw [h.exhausted hst]
    exact hi
  · rw [hst]
    exact fun h => (nomatch h)

theorem forall_zipIdx {α : Type} {l : List α} {Q : α → ℕ → Prop} :
    (∀ e ∈ l.zipIdx, Q e.1 e.2) ↔ ∀ i a, l[i]? = some a → Q a i :=
  ⟨fun h i a ha => h (a, i) (List.mem_zipIdx_iff_getElem?.2 ha),
    fun h e he => h e.2 e.1 (List.mem_zipIdx_iff_getElem?.1 he)⟩

theorem validatePlan_eq_ok (seen : SeenIds) (e : UInt64 × ActionPlanState) (r : SeenIds) :
    validatePlan registry seen e = .ok r ↔
      PlanValid registry e.1 e.2 ∧ Fresh seen.1 e.2.actionIds ∧
        r = collect max seen e.2.actionIds := by
  obtain ⟨key, plan⟩ := e
  have hids : plan.actions.zipIdx.flatMap (fun e => [e.1.id.val]) = plan.actionIds := by
    rw [← List.map_eq_flatMap, ActionPlanState.actionIds]
    conv_rhs => rw [← List.zipIdx_map_fst 0 plan.actions, List.map_map]
    rfl
  have hcurrent : plan.actions[plan.cursor]?.forM (validateCurrent plan.status) = .ok () ↔
      ∀ a, plan.actions[plan.cursor]? = some a → CurrentFits plan.status a := by
    cases plan.actions[plan.cursor]? with
    | none => simp
    | some a => simp [validateCurrent_eq_ok]
  simp only [validatePlan, bind_eq_ok, exists_unit, refuse_eq_ok, pure_eq_ok, hcurrent,
    foldlM_collect (validatePlannedAction_eq_ok plan), hids]
  rw [forall_zipIdx (Q := ActionPasses registry plan)]
  constructor
  · rintro ⟨hhead, s, ⟨hact, hfresh, rfl⟩, hdone, hcur, rfl⟩
    simp only [not_or, ne_eq, not_not, not_lt] at hhead
    obtain ⟨hkey, hid, htask, hle⟩ := hhead
    refine ⟨⟨hkey, hkey ▸ hid, htask, hle, fun i a ha => ?_, fun hst => ?_⟩, hfresh, rfl⟩
    · obtain ⟨hid, hadm, hb, haf⟩ := hact i a ha
      exact ⟨hid, hadm, hb, haf, fun hi => hcur a (hi ▸ ha)⟩
    · by_contra hne
      exact hdone ⟨hst, .inl hne⟩
  · rintro ⟨h, hfresh, rfl⟩
    refine ⟨?_, _, ⟨fun i a ha => ?_, hfresh, rfl⟩, ?_, fun a ha => ?_, rfl⟩
    · simp [← h.keyed, h.id_ne, h.task_ne, h.cursor_le]
    · exact ⟨(h.actions i a ha).1, (h.actions i a ha).2.1, (h.actions i a ha).2.2.before,
        (h.actions i a ha).2.2.after⟩
    · rintro ⟨hst, hne | hall⟩
      · exact hne (h.exhausted hst)
      · exact hall (by simpa using h.committed_of_completed hst)
    · exact (h.actions _ a ha).2.2.current rfl

/-! ## The whole state -/

/-- **A valid state**: valid plans below the next plan id, whose action ids are all distinct and
below the next action id. -/
structure FabricValid (registry : CapabilityRegistry) (state : ActionFabricState) : Prop where
  nextPlan_ne : state.nextPlanId ≠ 0
  nextAction_ne : state.nextActionId ≠ 0
  key_lt : ∀ (k : UInt64) (plan : ActionPlanState), state.plans[k]? = some plan → k < state.nextPlanId
  plan_valid : ∀ (k : UInt64) (plan : ActionPlanState), state.plans[k]? = some plan →
    PlanValid registry k plan
  id_lt : ∀ (k : UInt64) (plan : ActionPlanState), state.plans[k]? = some plan →
    ∀ id ∈ plan.actionIds, id < state.nextActionId
  nodup : ∀ (k : UInt64) (plan : ActionPlanState), state.plans[k]? = some plan → plan.actionIds.Nodup
  disjoint : ∀ (k : UInt64) (plan : ActionPlanState) (k' : UInt64) (plan' : ActionPlanState),
    state.plans[k]? = some plan → state.plans[k']? = some plan' → k ≠ k' →
      plan.actionIds.Disjoint plan'.actionIds

/-- Keyed lists do not share an id exactly when no two entries of the map do. -/
theorem nodup_flatMap_toList {m : BTreeMap UInt64 ActionPlanState} :
    (m.toList.flatMap fun e => e.2.actionIds).Nodup ↔
      (∀ (k : UInt64) (plan : ActionPlanState), m[k]? = some plan → plan.actionIds.Nodup) ∧
      ∀ (k : UInt64) (plan : ActionPlanState) (k' : UInt64) (plan' : ActionPlanState), m[k]? = some plan →
        m[k']? = some plan' → k ≠ k' → plan.actionIds.Disjoint plan'.actionIds := by
  have hkeys : m.toList.Pairwise fun a b => a.1 ≠ b.1 :=
    (Std.ExtTreeMap.ordered_keys_toList (t := m)).imp fun {a b} h heq => by
      rw [heq] at h
      exact nomatch h.symm.trans Std.ReflCmp.compare_self
  have : Std.Symm (Function.onFun List.Disjoint fun e : UInt64 × ActionPlanState =>
      e.2.actionIds) := ⟨fun _ _ h => h.symm⟩
  rw [List.nodup_flatMap]
  refine and_congr (forall_mem_toList (m := m) (Q := fun e => e.2.actionIds.Nodup))
    ⟨fun h k plan k' plan' hk hk' hne => ?_, fun h => ?_⟩
  · exact h.forall (Std.ExtTreeMap.mem_toList_iff_getElem?_eq_some.2 hk)
      (Std.ExtTreeMap.mem_toList_iff_getElem?_eq_some.2 hk') fun heq => hne (congrArg Prod.fst heq)
  · refine hkeys.imp_of_mem fun {a b} ha hb hne => ?_
    exact h a.1 a.2 b.1 b.2 (Std.ExtTreeMap.mem_toList_iff_getElem?_eq_some.1 ha)
      (Std.ExtTreeMap.mem_toList_iff_getElem?_eq_some.1 hb) hne

/-- **The validator accepts exactly the valid states.** -/
theorem validateFabricState_eq_ok {state : ActionFabricState} :
    validateFabricState registry state = .ok () ↔ FabricValid registry state := by
  have hmem : ∀ id, id ∈ state.plans.toList.flatMap (fun e => e.2.actionIds) ↔
      ∃ (k : UInt64) (plan : ActionPlanState), state.plans[k]? = some plan ∧ id ∈ plan.actionIds := by
    intro id
    rw [List.mem_flatMap]
    exact ⟨fun ⟨e, he, hid⟩ => ⟨e.1, e.2, Std.ExtTreeMap.mem_toList_iff_getElem?_eq_some.1 he, hid⟩,
      fun ⟨k, plan, hk, hid⟩ =>
        ⟨(k, plan), Std.ExtTreeMap.mem_toList_iff_getElem?_eq_some.2 hk, hid⟩⟩
  simp only [validateFabricState, bind_eq_ok, exists_unit, refuse_eq_ok, any_getLast?_keys_iff,
    foldlM_collect validatePlan_eq_ok, not_or, Prod.exists, Prod.mk.injEq, collect,
    forall_mem_toList (Q := fun e => PlanValid registry e.1 e.2), Fresh, nodup_flatMap_toList,
    UInt64.not_le]
  constructor
  · rintro ⟨⟨hp, ha⟩, hkeys, s, top, ⟨hvalid, ⟨⟨hnodup, hdisj⟩, -⟩, -, rfl⟩, htop⟩
    rw [foldl_max_lt64] at htop
    exact ⟨hp, ha, hkeys, hvalid, fun k plan hk id hid => htop.2 id ((hmem id).2 ⟨k, plan, hk, hid⟩),
      hnodup, hdisj⟩
  · intro h
    refine ⟨⟨h.nextPlan_ne, h.nextAction_ne⟩, h.key_lt, _, _, ⟨h.plan_valid,
      ⟨⟨h.nodup, h.disjoint⟩, fun id _ => Std.ExtTreeSet.not_mem_empty⟩, rfl, rfl⟩, ?_⟩
    rw [foldl_max_lt64]
    refine ⟨UInt64.pos_iff_ne_zero.2 h.nextAction_ne, fun id hid => ?_⟩
    obtain ⟨k, plan, hk, hid⟩ := (hmem id).1 hid
    exact h.id_lt k plan hk id hid

end NTD97
