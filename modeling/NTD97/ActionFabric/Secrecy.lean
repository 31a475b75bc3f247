import Mathlib
import NTD97.ActionFabric.Steps
import NTD97.AssistantActions
import NTD97.Lib.Secrecy

/-!
# ActionFabric/Secrecy — a fabric hides what its adapters hide

    the adapter that is called   answers alike in two worlds
        ⟹  executeNext           answers alike in them, and leaves the same fabric

The fabric itself never looks at the world: it hands it to the adapter of the action under the
cursor and to the verifier.  So two sessions that differ in their worlds only take the same step if
the one call that the step makes agrees on the two worlds, and what a loop of such steps answers is
the same as well.
-/

namespace NTD97

open Guard Effect Secrecy

variable {W : Type} {V : W → W → Prop}

/-! ## Sessions in two worlds -/

/-- **Sessions that differ in their worlds only.**  What an adapter undoes, it undoes alike in
both. -/
structure Beside (V : W → W → Prop) (s s' : Session W) : Prop where
  fabric : s.fabric = s'.fabric
  trace : s.trace = s'.trace
  world : V s.world s'.world
  rollbacks : ∀ (k : String) ad, s.fabric.adapters[k]? = some ad → ∀ id action token,
    BlindCall V (ad.rollback id action token)

/-- The same before a call: the two worlds and the adapters are known. -/
structure About (V : W → W → Prop) (s₀ s₀' s s' : Session W) : Prop where
  beside : Beside V s s'
  world : s.world = s₀.world
  world' : s'.world = s₀'.world
  adapters : s.fabric.adapters = s₀.fabric.adapters

/-- A relation that says the same fabric of both sessions, and nothing of its plans. -/
structure Steady (R : Session W → Session W → Prop) : Prop where
  fabric : ∀ s s', R s s' → s.fabric = s'.fabric
  setPlan : ∀ s s' key pl, R s s' → R (s.setPlan key pl) (s'.setPlan key pl)

theorem Beside.setPlan {s s' : Session W} (h : Beside V s s') (key : UInt64)
    (pl : ActionPlanState) : Beside V (s.setPlan key pl) (s'.setPlan key pl) where
  fabric := by simp only [Session.setPlan, Session.plans, h.fabric]
  trace := h.trace
  world := h.world
  rollbacks := h.rollbacks

theorem steady_beside : Steady (Beside V) where
  fabric _ _ h := h.fabric
  setPlan _ _ key pl h := h.setPlan key pl

theorem steady_about {s₀ s₀' : Session W} : Steady (About V s₀ s₀') where
  fabric _ _ h := h.beside.fabric
  setPlan _ _ key pl h := ⟨h.beside.setPlan key pl, h.world, h.world', h.adapters⟩

section Blindness

variable {R : Session W → Session W → Prop} {planId : ActionPlanId} {cursor index : ℕ}
  {snapshot : PlannedAction} {descriptor : CapabilityDescriptor} {verifier : ActionVerifier W}

/-! ## The methods of a fabric -/

theorem Steady.plan (hR : Steady R) :
    Blind R R (NTD97.plan planId : FabricM W ActionPlanState) fun _ => True := by
  refine Blind.read_bind (fun s s' h => ?_) fun s _ _ => .option fun _ _ => trivial
  rw [Session.plans, Session.plans, hR.fabric s s' h]

theorem Steady.store (hR : Steady R) (pl : ActionPlanState) :
    Blind R R (modify (·.setPlan planId.val pl) : FabricM W PUnit) fun _ => True :=
  Blind.write (fun s s' h => hR.setPlan s s' _ _ h) trivial

theorem Steady.planMut (hR : Steady R) (f : ActionPlanState → ActionPlanState) :
    Blind R R (NTD97.planMut planId f) fun _ => True :=
  Blind.bind hR.plan fun _ _ => Blind.bind (hR.store _) fun _ _ => .ret trivial

theorem Steady.actionMut (hR : Steady R) (f : PlannedAction → PlannedAction) :
    Blind R R (NTD97.actionMut planId index f) fun _ => True :=
  Blind.bind hR.plan fun _ _ => Blind.bind (.option fun _ _ => trivial) fun _ _ =>
    Blind.bind (hR.store _) fun _ _ => .ret trivial

theorem Steady.setPlanStatus (hR : Steady R) (status : ActionPlanStatus) :
    Blind R R (NTD97.setPlanStatus planId status) fun _ => True :=
  Blind.bind (hR.planMut _) fun _ _ => .ret trivial

/-- The adapter of a capability is the same in both sessions. -/
theorem Steady.adapter (hR : Steady R) {capability : CapabilityId} {Q : CapabilityAdapter W → Prop}
    (hQ : ∀ s s', R s s' → ∀ ad, s.fabric.adapters[capability.val]? = some ad → Q ad) :
    Blind R R (NTD97.adapter capability) Q := by
  refine Blind.read_bind (fun s s' h => ?_) fun s s' h => .option fun ad had => hQ s s' h ad had
  rw [hR.fabric s s' h]

/-- A call to the outside that agrees on the two worlds. -/
theorem blind_outside {α : Type} {call : W → α × W} (event : α → Event)
    (hR : ∀ s s', R s s' → Beside V s s') (hcall : ∀ s s', R s s' → Agrees V call s.world s'.world) :
    Blind R (Beside V) (outside call event) fun _ => True := by
  refine Blind.of_agrees fun s s' h => ?_
  obtain ⟨hfabric, htrace, -, hrollbacks⟩ := hR s s' h
  obtain ⟨hanswer, hworld⟩ := hcall s s' h
  refine ⟨congrArg Except.ok hanswer, hfabric, ?_, hworld, hrollbacks⟩
  change s.trace ++ [event (call s.world).1] = s'.trace ++ [event (call s'.world).1]
  rw [htrace, hanswer]

theorem blind_log (event : Event) :
    Blind (Beside V) (Beside V) (modify (·.log event) : FabricM W PUnit) fun _ => True := by
  refine Blind.write (fun s s' h => ⟨h.fabric, ?_, h.world, h.rollbacks⟩) trivial
  simp only [Session.log, h.trace]

theorem blind_rollbackCurrent (token : Option Bytes) :
    Blind (Beside V) (Beside V)
      (rollbackCurrentIfPossible planId cursor snapshot descriptor token) fun _ => True := by
  refine Blind.branch (fun _ => .ret trivial) fun _ => ?_
  cases token with
  | none => exact .ret trivial
  | some token =>
    refine Blind.bind (steady_beside.adapter fun s s' h ad had => h.rollbacks _ ad had)
      fun ad had => ?_
    refine Blind.bind (blind_outside _ (fun _ _ h => h) fun s s' h => had _ _ _ _ _ h.world)
      fun answer _ => ?_
    refine Blind.bind (.checked fun _ _ => trivial) fun _ _ => ?_
    exact Blind.bind (steady_beside.actionMut _) fun _ _ => .ret trivial

/-- The verifier tells the worlds no more apart. -/
def BlindVerifier (V : W → W → Prop) (verifier : ActionVerifier W) : Prop :=
  ∀ descriptor action output, BlindCall V (verifier.verify descriptor action output)

theorem blind_applyCompleted (hv : BlindVerifier V verifier) (output : ActionOutput)
    (token : Option Bytes) :
    Blind (Beside V) (Beside V)
      (applyCompleted planId cursor snapshot descriptor output token verifier) fun _ => True := by
  refine Blind.bind (Q := fun _ => True) ?_ fun verdict _ => ?_
  · refine Blind.branch (fun _ => ?_) fun _ => .ret trivial
    exact blind_outside _ (fun _ _ h => h) fun s s' h => hv _ _ _ _ _ h.world
  cases verdict with
  | accept =>
    refine Blind.bind (steady_beside.actionMut _) fun _ _ => ?_
    refine Blind.bind (blind_log _) fun _ _ => ?_
    refine Blind.bind (Q := fun _ => True) ?_ fun _ _ => .ret trivial
    exact Blind.bind (steady_beside.planMut _) fun _ _ => .ret trivial
  | retry reason =>
    refine Blind.bind (steady_beside.actionMut _) fun _ _ => ?_
    exact Blind.bind (steady_beside.setPlanStatus _) fun _ _ => .ret trivial
  | reject reason =>
    refine Blind.bind (blind_rollbackCurrent token) fun _ _ => ?_
    refine Blind.bind (steady_beside.actionMut _) fun _ _ => ?_
    exact Blind.bind (steady_beside.setPlanStatus _) fun _ _ => .ret trivial

theorem blind_failContract (message : String) :
    Blind (Beside V) (Beside V)
      (failContract planId cursor snapshot message : FabricM W ActionStepReport) fun _ => True :=
  Blind.bind (steady_beside.actionMut _) fun _ _ =>
    Blind.bind (steady_beside.setPlanStatus _) fun _ _ => .raise _

theorem blind_applyAdapterResult (hv : BlindVerifier V verifier) (result : AdapterResult) :
    Blind (Beside V) (Beside V)
      (applyAdapterResult planId cursor snapshot descriptor result verifier) fun _ => True := by
  cases result with
  | completed output token => exact blind_applyCompleted hv output token
  | suspended token note =>
    refine Blind.branch (fun _ => blind_failContract _) fun _ => ?_
    refine Blind.bind (steady_beside.actionMut _) fun _ _ => ?_
    exact Blind.bind (steady_beside.setPlanStatus _) fun _ _ => .ret trivial
  | retryable reason token =>
    refine Blind.branch (fun _ => blind_failContract _) fun _ => ?_
    refine Blind.bind (steady_beside.actionMut _) fun _ _ => ?_
    exact Blind.bind (steady_beside.setPlanStatus _) fun _ _ => .ret trivial

/-- **An attempt whose call agrees on the two worlds.** -/
theorem blind_attemptAction (hv : BlindVerifier V verifier) (authority : AuthorityGrant)
    {s₀ s₀' : Session W} (hcall : ∀ ad, s₀.fabric.adapters[snapshot.capability.val]? = some ad →
      Agrees V (ad.attempt snapshot) s₀.world s₀'.world) :
    Blind (About V s₀ s₀') (Beside V)
      (attemptAction planId cursor snapshot descriptor authority verifier) fun _ => True := by
  have hle (s s' : Session W) (h : About V s₀ s₀' s s') : Beside V s s' := h.beside
  refine Blind.seq (steady_about.actionMut _) (fun _ _ => ?_) hle
  refine Blind.seq (steady_about.setPlanStatus _) (fun _ _ => ?_) hle
  refine Blind.seq (steady_about.adapter (Q := fun ad =>
    Agrees V (ad.attempt snapshot) s₀.world s₀'.world) fun s s' h ad had =>
      hcall ad (h.adapters ▸ had)) (fun ad had => ?_) hle
  refine Blind.seq (blind_outside _ hle fun s s' h => ?_) (fun answer _ => ?_) fun _ _ h => h
  · rw [h.world, h.world']
    exact had
  cases answer with
  | error reason =>
    refine Blind.bind (steady_beside.actionMut _) fun _ _ => ?_
    exact Blind.bind (steady_beside.setPlanStatus _) fun _ _ => .ret trivial
  | ok result => exact blind_applyAdapterResult hv result

/-- **One step is taken alike in two worlds** if the call it makes agrees on them. -/
theorem Beside.executeNext {s s' : Session W} {g : AuthorityGrant} (h : Beside V s s')
    (hv : BlindVerifier V verifier) (hcall : ∀ pl a d ad, Authorized s planId g pl a d →
      s.fabric.adapters[a.capability.val]? = some ad →
        Agrees V (ad.attempt a) s.world s'.world) :
    Agrees (Beside V) (exec (executeNext planId g verifier)) s s' := by
  have hplans : s'.plans = s.plans := by rw [Session.plans, Session.plans, h.fabric]
  have herror (e : ActionFabricError) {x : FabricM W ActionStepReport}
      (hx : exec x s = (.error e, s)) (hx' : exec x s' = (.error e, s')) :
      Agrees (Beside V) (exec x) s s' := by
    rw [Agrees, hx, hx']
    exact ⟨rfl, h⟩
  cases hstored : s.plans[planId.val]? with
  | none =>
    exact herror _ (exec_plan_bind_none hstored _) (exec_plan_bind_none (hplans ▸ hstored) _)
  | some pl =>
    have hstored' : s'.plans[planId.val]? = some pl := hplans ▸ hstored
    unfold NTD97.executeNext
    refine Agrees.of_eq (exec_plan_bind hstored _) (exec_plan_bind hstored' _) ?_
    by_cases hlive : pl.status.isTerminal = true
    · exact herror _ (exec_refuse_of_pos hlive _ _ _) (exec_refuse_of_pos hlive _ _ _)
    refine Agrees.of_eq (exec_refuse_of_neg hlive _ _ _) (exec_refuse_of_neg hlive _ _ _) ?_
    replace hlive : pl.status.isTerminal = false := Bool.not_eq_true _ ▸ hlive
    cases hcur : pl.actions[pl.cursor]? with
    | none =>
      refine Blind.agrees (Q := fun _ => True) ?_ h
      exact Blind.bind (steady_beside.setPlanStatus _) fun _ _ => .ret trivial
    | some a =>
      dsimp only
      refine Agrees.of_eq (exec_get_bind _ _) ((exec_get_bind _ _).trans (by rw [← h.fabric])) ?_
      cases hval : s.fabric.registry.validateAction a.capability a.action with
      | error e => exact herror _ (exec_check_error_bind ..) (exec_check_error_bind ..)
      | ok d =>
        refine Agrees.of_eq (exec_check_ok_bind ..) (exec_check_ok_bind ..) ?_
        cases hperm : g.permits d with
        | error e => exact herror _ (exec_check_error_bind ..) (exec_check_error_bind ..)
        | ok u =>
          refine Agrees.of_eq (exec_check_ok_bind ..) (exec_check_ok_bind ..) ?_
          by_cases hres : a.resumption.isSome = true ∧ ¬ d.resumable = true
          · exact herror _ (exec_refuse_of_pos hres _ _ _) (exec_refuse_of_pos hres _ _ _)
          refine Agrees.of_eq (exec_refuse_of_neg hres _ _ _) (exec_refuse_of_neg hres _ _ _) ?_
          by_cases hset : a.status.isSettled = true
          · exact herror _ (exec_refuse_of_pos hset _ _ _) (exec_refuse_of_pos hset _ _ _)
          refine Agrees.of_eq (exec_refuse_of_neg hset _ _ _) (exec_refuse_of_neg hset _ _ _) ?_
          have hauth : Authorized s planId g pl a d := ⟨hstored, hlive, hcur, hval, hperm,
            fun h => by_contra fun hd => hres ⟨h, hd⟩, Bool.not_eq_true _ ▸ hset⟩
          exact (blind_attemptAction hv g fun ad had => hcall pl a d ad hauth had).agrees
            ⟨h, rfl, rfl, rfl⟩

/-! ## Whole plans -/

section Plans

variable {authority : AuthorityGrant}

/-- The loop over the actions of a plan, whose steps are taken alike. -/
theorem blind_executeActions (hnext : Blind R R (executeNext planId authority verifier)
    fun _ => True) : ∀ (steps : ℕ) (reports : List ActionStepReport),
      Blind R R (executeActions planId authority verifier steps reports) fun _ => True
  | 0, _ => .ret trivial
  | steps + 1, reports => by
      refine Blind.bind (Blind.embedded hnext) fun report _ => ?_
      dsimp only
      cases report.planStatus with
      | completed => exact .ret trivial
      | failed => exact .raise _
      | rolledBack => exact .raise _
      | suspended => exact .raise _
      | ready => exact Blind.refuse_bind fun _ => blind_executeActions hnext steps _

/-- **A call that continues a plan**, whose steps are taken alike, answers alike. -/
theorem blind_continue (hfabric : ∀ s s', R s s' → s.fabric = s'.fabric)
    (hnext : Blind R R (executeNext planId authority verifier) fun _ => True)
    (task : CognitiveTask) (actionPlan : ParsedActionPlan) (userMessage : String) :
    Blind R R (continueVerifiedAssistantPlan planId task actionPlan authority verifier
      userMessage) fun _ => True := by
  have hsame (s s' : Session W) (h : R s s') : s.plans = s'.plans := by
    rw [Session.plans, Session.plans, hfabric s s' h]
  refine Blind.refuse_bind fun _ => ?_
  refine Blind.read_bind (fun s s' h => by rw [hsame s s' h]) fun s _ _ => ?_
  refine Blind.bind (.option fun _ _ => trivial) fun initial _ => Blind.refuse_bind fun _ => ?_
  refine Blind.bind (Q := fun _ => True) ?_ fun reports _ => ?_
  · exact Blind.branch (fun _ => .ret trivial) fun _ => blind_executeActions hnext _ _
  refine Blind.read_bind (fun s s' h => by rw [hsame s s' h]) fun s _ _ => ?_
  refine Blind.bind (.option fun _ _ => trivial) fun pl _ => Blind.refuse_bind fun _ => ?_
  refine Blind.bind (.checked fun _ _ => trivial) fun evidence _ => ?_
  exact Blind.bind (.checked fun _ _ => trivial) fun prompt _ => .ret trivial

end Plans

end Blindness

/-! ## Preparing a plan -/

/-- Every validated node took its action from the payloads. -/
theorem validateNodes_payloads {registry : CapabilityRegistry} : ∀ {nodes : List ActionNode}
    {seen : Std.ExtTreeSet UInt32} {payloads left : BTreeMap UInt32 TypedAction}
    {validated : List ValidatedNode},
    validateNodes registry nodes seen payloads = .ok (validated, left) →
      ∀ v ∈ validated, v.1 ∈ nodes ∧ payloads[v.1.id]? = some v.2.1
  | [], _, _, _, _, h => by
      obtain ⟨rfl, -⟩ := Prod.mk.inj (Except.ok.inj h)
      exact fun v hv => by cases hv
  | node :: nodes, seen, payloads, left, validated, h => by
      simp only [validateNodes, bind_eq_ok, exists_unit, refuse_eq_ok, okOr_eq_ok, mapError_eq_ok,
        pure_eq_ok, Prod.exists, Prod.mk.injEq] at h
      obtain ⟨-, action, haction, -, -, -, -, rest, left', hrest, rfl, -⟩ := h
      refine List.forall_mem_cons.2 ⟨⟨List.mem_cons_self, haction⟩, fun v hv => ?_⟩
      obtain ⟨hmem, hpayload⟩ := validateNodes_payloads hrest v hv
      rw [Std.ExtTreeMap.getElem?_erase] at hpayload
      split at hpayload
      · cases hpayload
      · exact ⟨List.mem_cons_of_mem node hmem, hpayload⟩

/-- A new plan takes its actions from the payloads. -/
theorem newPlan_payloads {registry : CapabilityRegistry} {state : ActionFabricState}
    {taskId : UInt64} {graph : TaskGraph} {payloads : BTreeMap UInt32 TypedAction}
    {pl : ActionPlanState} {nextPlanId nextActionId : UInt64}
    (h : newPlan registry state taskId graph payloads = .ok (pl, nextPlanId, nextActionId)) :
    ∀ a ∈ pl.actions, ∃ node ∈ graph.actions, a.capability = node.capability ∧
      payloads[node.id]? = some a.action := by
  simp only [newPlan, bind_eq_ok, exists_unit, refuse_eq_ok, Prod.exists] at h
  obtain ⟨-, validated, left, hnodes, h⟩ := h
  split at h
  · exact absurd h (by simp)
  simp only [bind_eq_ok, exists_unit, refuse_eq_ok, okOr_eq_ok, pure_eq_ok, Prod.mk.injEq] at h
  obtain ⟨-, -, -, -, -, actions, hactions, rfl, -⟩ := h
  intro a ha
  rw [mapM_eq_ok] at hactions
  obtain ⟨i, hi, rfl⟩ := List.getElem_of_mem ha
  have hi' : i < validated.zipIdx.length := hactions.length_eq ▸ hi
  have hplanned := hactions.get hi' hi
  simp only [List.get_eq_getElem, List.getElem_zipIdx, plannedAction, bind_eq_ok, exists_unit,
    refuse_eq_ok, okOr_eq_ok, pure_eq_ok] at hplanned
  obtain ⟨-, id, -, hplanned⟩ := hplanned
  rw [List.length_zipIdx] at hi'
  rw [← hplanned]
  obtain ⟨hmem, hpayload⟩ := validateNodes_payloads hnodes _ (List.getElem_mem hi')
  exact ⟨_, hmem, rfl, hpayload⟩

/-- **Preparing a plan** is the same in every world. -/
theorem exec_preparePlan_world (taskId : UInt64) (graph : TaskGraph)
    (payloads : BTreeMap UInt32 TypedAction) (s : Session W) (w : W) :
    exec (preparePlan taskId graph payloads) { s with world := w } =
      ((exec (preparePlan taskId graph payloads) s).1,
        { (exec (preparePlan taskId graph payloads) s).2 with world := w }) := by
  unfold preparePlan
  rw [exec_get_bind, exec_get_bind]
  dsimp only
  cases newPlan s.fabric.registry s.fabric.state taskId graph payloads <;> rfl

end NTD97
