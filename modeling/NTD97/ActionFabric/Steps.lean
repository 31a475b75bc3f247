import Mathlib
import NTD97.ActionFabric

/-!
# ActionFabric/Steps — what one call can do to a session

    executeNext :  idle │ exhausted │ stalled │ attempted (called :: …)
    rollbackPlan:  the pending actions, last first, up to the first that cannot be undone

Each method touches one plan, the world and the history.  `Session.moved` is that shape; `Ending`
lists the ways an attempt ends, with the answers that lead to each.  Every invariant is proved
against these lists, so no later proof runs the methods again.
-/

namespace NTD97

open Guard Effect

variable {W : Type}

/-! ## One plan replaced -/

/-- The session with one plan replaced, in another world, with more history. -/
def Session.moved (s : Session W) (key : UInt64) (plan : ActionPlanState) (world : W)
    (events : List Event) : Session W where
  fabric := { s.fabric with state.plans := s.plans.insert key plan }
  world := world
  trace := s.trace ++ events

section Moved

variable {s : Session W} {key : UInt64} {plan plan' : ActionPlanState} {world world' : W}
  {events events' : List Event}

@[simp] theorem moved_world : (s.moved key plan world events).world = world := rfl

@[simp] theorem moved_trace : (s.moved key plan world events).trace = s.trace ++ events := rfl

@[simp] theorem moved_registry :
    (s.moved key plan world events).fabric.registry = s.fabric.registry := rfl

@[simp] theorem moved_adapters :
    (s.moved key plan world events).fabric.adapters = s.fabric.adapters := rfl

@[simp] theorem moved_nextPlanId :
    (s.moved key plan world events).fabric.state.nextPlanId = s.fabric.state.nextPlanId := rfl

@[simp] theorem moved_nextActionId :
    (s.moved key plan world events).fabric.state.nextActionId = s.fabric.state.nextActionId := rfl

theorem getElem?_moved {k : UInt64} :
    (s.moved key plan world events).plans[k]? = if key = k then some plan else s.plans[k]? := by
  change (s.plans.insert key plan)[k]? = _
  rw [Std.ExtTreeMap.getElem?_insert]
  simp only [Std.compare_eq_iff_eq]

@[simp] theorem getElem?_moved_self :
    (s.moved key plan world events).plans[key]? = some plan := by
  rw [getElem?_moved, if_pos rfl]

/-- The plans of a moved session: the new one, and the others as they were. -/
theorem getElem?_moved_cases {p q : ActionPlanId}
    (h : (s.moved p.val plan world events).plans[q.val]? = some plan') :
    (q = p ∧ plan' = plan) ∨ (q ≠ p ∧ s.plans[q.val]? = some plan') := by
  rw [getElem?_moved] at h
  split at h
  · next heq =>
    refine .inl ⟨?_, (Option.some.inj h).symm⟩
    cases q
    exact congrArg ActionPlanId.mk heq.symm
  · next hne => exact .inr ⟨fun h => hne (congrArg _ h.symm), h⟩

theorem getElem?_moved_ne {p q : ActionPlanId} (hne : q ≠ p) :
    (s.moved p.val plan world events).plans[q.val]? = s.plans[q.val]? := by
  rw [getElem?_moved, if_neg]
  intro heq
  exact hne (by cases q; exact congrArg ActionPlanId.mk heq.symm)

/-- Later writes to the same plan win, and the histories add up. -/
@[simp] theorem moved_moved : (s.moved key plan world events).moved key plan' world' events'
    = s.moved key plan' world' (events ++ events') := by
  have hplans : (s.plans.insert key plan).insert key plan' = s.plans.insert key plan' := by
    refine Std.ExtTreeMap.ext_getElem? fun k => ?_
    simp only [Std.ExtTreeMap.getElem?_insert]
    split <;> rfl
  simp only [Session.moved, hplans, List.append_assoc]

theorem setPlan_eq_moved : s.setPlan key plan = s.moved key plan s.world [] := by
  simp only [Session.setPlan, Session.moved, List.append_nil]

/-- Writing back what is stored changes nothing. -/
theorem insert_stored (h : s.plans[key]? = some plan) : s.plans.insert key plan = s.plans := by
  refine Std.ExtTreeMap.ext_getElem? fun k => ?_
  rw [Std.ExtTreeMap.getElem?_insert]
  split
  · next heq => rw [← Std.LawfulEqCmp.eq_of_compare heq, h]
  · rfl

end Moved

/-- A new session has no plans. -/
theorem getElem?_new (registry : CapabilityRegistry) (w : W) (k : UInt64) :
    (Session.new registry w).plans[k]? = none :=
  Std.ExtTreeMap.getElem?_empty

/-- The plan with one action and the status replaced. -/
def ActionPlanState.put (plan : ActionPlanState) (index : ℕ) (action : PlannedAction)
    (status : ActionPlanStatus) : ActionPlanState :=
  { plan with actions := plan.actions.set index action, status }

@[simp] theorem put_put {plan : ActionPlanState} {i : ℕ} {a a' : PlannedAction}
    {st st' : ActionPlanStatus} : (plan.put i a st).put i a' st' = plan.put i a' st' := by
  simp only [ActionPlanState.put, List.set_set]

@[simp] theorem put_status {plan : ActionPlanState} {i : ℕ} {a : PlannedAction}
    {st : ActionPlanStatus} : (plan.put i a st).status = st := rfl

theorem getElem?_put_self {plan : ActionPlanState} {i : ℕ} {a₀ a : PlannedAction}
    {st : ActionPlanStatus} (h : plan.actions[i]? = some a₀) :
    (plan.put i a st).actions[i]? = some a := by
  have hi : i < plan.actions.length := (List.getElem?_eq_some_iff.1 h).1
  simp only [ActionPlanState.put, List.getElem?_set_self hi]

/-! ## What the helpers do -/

section Exec

variable {s : Session W} {planId : ActionPlanId} {pl : ActionPlanState} {i : ℕ} {a : PlannedAction}
  {β : Type}

theorem exec_plan_bind (h : s.plans[planId.val]? = some pl)
    (k : ActionPlanState → FabricM W β) : exec (plan planId >>= k) s = exec (k pl) s := by
  have hplan : exec (plan planId) s = (.ok pl, s) := by
    rw [plan, exec_get_bind, h]
    rfl
  rw [exec_bind_ok hplan]

theorem exec_plan_bind_none (h : s.plans[planId.val]? = none)
    (k : ActionPlanState → FabricM W β) :
    exec (plan planId >>= k) s = (.error (.missingPlan planId), s) := by
  have hplan : exec (plan planId) s = (.error (.missingPlan planId), s) := by
    rw [plan, exec_get_bind, h]
    rfl
  rw [exec_bind_error hplan]

theorem exec_planMut (h : s.plans[planId.val]? = some pl)
    (f : ActionPlanState → ActionPlanState) :
    exec (planMut planId f) s = (.ok (f pl), s.moved planId.val (f pl) s.world []) := by
  rw [planMut, exec_plan_bind h, exec_modify_bind, exec_pure, setPlan_eq_moved]

theorem exec_setPlanStatus (h : s.plans[planId.val]? = some pl) (status : ActionPlanStatus) :
    exec (setPlanStatus planId status) s
      = (.ok (), s.moved planId.val { pl with status } s.world []) := by
  rw [setPlanStatus, exec_bind_ok (exec_planMut h _), exec_pure]

theorem exec_actionMut (h : s.plans[planId.val]? = some pl) (ha : pl.actions[i]? = some a)
    (f : PlannedAction → PlannedAction) :
    exec (actionMut planId i f) s
      = (.ok (f a), s.moved planId.val (pl.put i (f a) pl.status) s.world []) := by
  rw [actionMut, exec_plan_bind h, ha, exec_okOr_some_bind, exec_modify_bind, exec_pure,
    setPlan_eq_moved]
  rfl

/-- Changing an action and then the status of its plan replaces both. -/
theorem exec_update (h : s.plans[planId.val]? = some pl) (ha : pl.actions[i]? = some a)
    (f : PlannedAction → PlannedAction) (status : ActionPlanStatus)
    (k : PlannedAction → FabricM W β) :
    exec (actionMut planId i f >>= fun x => setPlanStatus planId status >>= fun _ => k x) s
      = exec (k (f a)) (s.moved planId.val (pl.put i (f a) status) s.world []) := by
  rw [exec_bind_ok (exec_actionMut h ha f)]
  rw [exec_bind_ok (exec_setPlanStatus getElem?_moved_self status), moved_moved]
  rfl

theorem exec_adapter_bind {capability : CapabilityId} {ad : CapabilityAdapter W}
    (h : s.fabric.adapters[capability.val]? = some ad) (k : CapabilityAdapter W → FabricM W β) :
    exec (adapter capability >>= k) s = exec (k ad) s := by
  have hadapter : exec (adapter capability) s = (.ok ad, s) := by
    rw [adapter, exec_get_bind, h]
    rfl
  rw [exec_bind_ok hadapter]

theorem exec_adapter_bind_none {capability : CapabilityId}
    (h : s.fabric.adapters[capability.val]? = none) (k : CapabilityAdapter W → FabricM W β) :
    exec (adapter capability >>= k) s = (.error (.missingAdapter capability), s) := by
  have hadapter : exec (adapter capability) s = (.error (.missingAdapter capability), s) := by
    rw [adapter, exec_get_bind, h]
    rfl
  rw [exec_bind_error hadapter]

/-- A call to the outside moves the world and is noted. -/
theorem exec_outside_bind {α : Type} (h : s.plans[planId.val]? = some pl) (call : W → α × W)
    (event : α → Event) (k : α → FabricM W β) :
    exec (outside call event >>= k) s = exec (k (call s.world).1)
      (s.moved planId.val pl (call s.world).2 [event (call s.world).1]) := by
  have hout : exec (outside call event) s = (.ok (call s.world).1,
      s.moved planId.val pl (call s.world).2 [event (call s.world).1]) := by
    rw [outside, exec_get_bind]
    refine (exec_modify_bind ..).trans ?_
    simp only [exec_pure, Session.log, Session.moved, insert_stored h]
  rw [exec_bind_ok hout]

end Exec

/-! ## How an attempt ends -/

/-- The action while an attempt at it is under way. -/
def PlannedAction.started (a : PlannedAction) : PlannedAction :=
  { a with status := .running, attempts := saturatingSucc32 a.attempts }

/-- The plan after the action under its cursor was committed as `a`. -/
def ActionPlanState.commit (plan : ActionPlanState) (a : PlannedAction) : ActionPlanState :=
  { plan with
    actions := plan.actions.set plan.cursor a
    cursor := plan.cursor + 1
    status := if plan.actions.length ≤ plan.cursor + 1 then .completed else .ready }

/-- The token a completed action keeps. -/
def CapabilityDescriptor.keep (d : CapabilityDescriptor) (token : Option Bytes) : Option Bytes :=
  if d.rollbackSupported then token else none

/-- The answer claims a resumption that the capability does not offer. -/
def AdapterResult.breaches (d : CapabilityDescriptor) : AdapterResult → Prop
  | .suspended _ _ => ¬ d.resumable
  | .retryable _ token => token.isSome ∧ ¬ d.resumable
  | .completed _ _ => False

/-- **The ways an attempt at the action `a` of `plan` ends**, by the adapter's answer: the world it
leaves, the events after the call, and the plan. -/
inductive Ending (ad : CapabilityAdapter W) (v : ActionVerifier W) (p : ActionPlanId)
    (d : CapabilityDescriptor) (plan : ActionPlanState) (a : PlannedAction) (w : W) :
    Except String AdapterResult → W → List Event → ActionPlanState → Prop
  | error (reason : String) : Ending ad v p d plan a w (.error reason) w []
      (plan.put plan.cursor { a.started with
        status := .retryable, lastError := some reason, resumeToken := none } .ready)
  | breach (result : AdapterResult) (message : String) (h : result.breaches d) :
      Ending ad v p d plan a w (.ok result) w []
        (plan.put plan.cursor { a.started with
          status := .failed, lastError := some message } .failed)
  | suspended (token : Bytes) (note : String) (h : d.resumable) :
      Ending ad v p d plan a w (.ok (.suspended token note)) w []
        (plan.put plan.cursor { a.started with
          status := .suspended, resumeToken := some token, lastError := some note } .suspended)
  | retryable (reason : String) (token : Option Bytes) (h : token.isSome → d.resumable) :
      Ending ad v p d plan a w (.ok (.retryable reason token)) w []
        (plan.put plan.cursor { a.started with
          status := .retryable, resumeToken := token, lastError := some reason } .ready)
  | unverified (output : ActionOutput) (token : Option Bytes) (h : a.verificationRequired = false) :
      Ending ad v p d plan a w (.ok (.completed output token)) w [.committed p plan.cursor]
        (plan.commit { a.started with
          status := .committed, output := some output, resumeToken := none
          rollbackToken := d.keep token, lastError := none })
  | accepted (output : ActionOutput) (token : Option Bytes) (w' : W)
      (h : a.verificationRequired = true) (hv : v.verify d a.action output w = (.accept, w')) :
      Ending ad v p d plan a w (.ok (.completed output token)) w'
        [.verified p plan.cursor output .accept, .committed p plan.cursor]
        (plan.commit { a.started with
          status := .committed, output := some output, resumeToken := none
          rollbackToken := d.keep token, lastError := none })
  | retried (output : ActionOutput) (token : Option Bytes) (reason : String) (w' : W)
      (h : a.verificationRequired = true)
      (hv : v.verify d a.action output w = (.retry reason, w')) :
      Ending ad v p d plan a w (.ok (.completed output token)) w'
        [.verified p plan.cursor output (.retry reason)]
        (plan.put plan.cursor { a.started with
          status := .retryable, output := some output, resumeToken := none
          rollbackToken := d.keep token, lastError := some reason } .ready)
  | rejected (output : ActionOutput) (token : Option Bytes) (reason : String) (w' : W)
      (h : a.verificationRequired = true)
      (hv : v.verify d a.action output w = (.reject reason, w')) (hno : d.keep token = none) :
      Ending ad v p d plan a w (.ok (.completed output token)) w'
        [.verified p plan.cursor output (.reject reason)]
        (plan.put plan.cursor { a.started with
          status := .failed, output := some output, lastError := some reason } .failed)
  | undone (output : ActionOutput) (token : Bytes) (reason : String) (w' w'' : W)
      (h : a.verificationRequired = true)
      (hv : v.verify d a.action output w = (.reject reason, w'))
      (hd : d.rollbackSupported = true)
      (hr : ad.rollback a.id a.action token w' = (.ok (), w'')) :
      Ending ad v p d plan a w (.ok (.completed output (some token))) w''
        [.verified p plan.cursor output (.reject reason),
          .rollback p plan.cursor a.id a.action token (.ok ())]
        (plan.put plan.cursor { a.started with
          status := .rolledBack, output := some output, rollbackToken := some token
          lastError := some reason } .failed)
  | stuck (output : ActionOutput) (token : Bytes) (reason failure : String) (w' w'' : W)
      (h : a.verificationRequired = true)
      (hv : v.verify d a.action output w = (.reject reason, w'))
      (hd : d.rollbackSupported = true)
      (hr : ad.rollback a.id a.action token w' = (.error failure, w'')) :
      Ending ad v p d plan a w (.ok (.completed output (some token))) w''
        [.verified p plan.cursor output (.reject reason),
          .rollback p plan.cursor a.id a.action token (.error failure)]
        (plan.put plan.cursor a.started .ready)

section Endings

variable {s : Session W} {p : ActionPlanId} {pl : ActionPlanState} {a : PlannedAction}
  {d : CapabilityDescriptor} {ad : CapabilityAdapter W} {v : ActionVerifier W}

/-- The session while an attempt is under way: the action runs, and its adapter is there. -/
structure Underway (s : Session W) (p : ActionPlanId) (pl : ActionPlanState) (a : PlannedAction)
    (ad : CapabilityAdapter W) : Prop where
  at_cursor : pl.actions[pl.cursor]? = some a
  stored : s.plans[p.val]? = some (pl.put pl.cursor a.started .ready)
  adapter : s.fabric.adapters[a.capability.val]? = some ad

theorem Underway.running (h : Underway s p pl a ad) :
    (pl.put pl.cursor a.started .ready).actions[pl.cursor]? = some a.started :=
  getElem?_put_self h.at_cursor

theorem Underway.moved (h : Underway s p pl a ad) (w : W) (events : List Event) :
    Underway (s.moved p.val (pl.put pl.cursor a.started .ready) w events) p pl a ad :=
  ⟨h.at_cursor, getElem?_moved_self, h.adapter⟩

/-- Committing the action: it is changed, the commit is noted, the cursor moves on. -/
theorem exec_commit (h : Underway s p pl a ad) (f : PlannedAction → PlannedAction)
    {β : Type} (k : PlannedAction → ℕ × ActionPlanStatus → FabricM W β) :
    exec (actionMut p pl.cursor f >>= fun x =>
        modify (·.log (.committed p pl.cursor)) >>= fun _ => advanceCursor p >>= k x) s
      = exec (k (f a.started) (pl.cursor + 1, (pl.commit (f a.started)).status))
        (s.moved p.val (pl.commit (f a.started)) s.world [.committed p pl.cursor]) := by
  have hlog : ∀ (t : Session W) (pl' : ActionPlanState), t.plans[p.val]? = some pl' →
      t.log (.committed p pl.cursor) = t.moved p.val pl' t.world [.committed p pl.cursor] := by
    intro t pl' ht
    simp only [Session.log, Session.moved, insert_stored ht]
  rw [exec_bind_ok (exec_actionMut h.stored h.running f), exec_modify_bind,
    hlog _ _ getElem?_moved_self, advanceCursor, bind_assoc,
    exec_bind_ok (exec_planMut getElem?_moved_self _), exec_pure_bind]
  simp [ActionPlanState.put, ActionPlanState.commit]

/-- Marking the action and finishing its plan, on a session under way. -/
theorem exec_finish (h : Underway s p pl a ad) (f : PlannedAction → PlannedAction)
    (status : ActionPlanStatus) {β : Type} (k : PlannedAction → FabricM W β) :
    exec (actionMut p pl.cursor f >>= fun x => setPlanStatus p status >>= fun _ => k x) s
      = exec (k (f a.started)) (s.moved p.val (pl.put pl.cursor (f a.started) status) s.world []) := by
  rw [exec_update h.stored h.running, put_put]

/-- The `Reject` branch, once the verdict is known. -/
theorem exec_rollbackCurrent (h : Underway s p pl a ad) (token : Bytes)
    (hd : d.rollbackSupported = true) {β : Type} (k : Bool → FabricM W β) :
    exec (rollbackCurrentIfPossible p pl.cursor a d (some token) >>= k) s
      = match ad.rollback a.id a.action token s.world with
        | (.error failure, w) => (.error (.rollbackFailure a.capability failure),
            s.moved p.val (pl.put pl.cursor a.started .ready) w
              [.rollback p pl.cursor a.id a.action token (.error failure)])
        | (.ok (), w) => exec (k true)
            (s.moved p.val (pl.put pl.cursor { a.started with rollbackToken := some token } .ready) w
              [.rollback p pl.cursor a.id a.action token (.ok ())]) := by
  simp only [rollbackCurrentIfPossible, hd, not_true_eq_false, if_false, bind_assoc, pure_bind]
  rw [exec_adapter_bind h.adapter, exec_outside_bind h.stored]
  rcases hcall : ad.rollback a.id a.action token s.world with ⟨_ | _, w⟩
  · simp
  · rw [exec_check_ok_bind, exec_bind_ok (exec_actionMut getElem?_moved_self h.running _)]
    simp

/-- Without a token to undo with, the rejected action is left as it is. -/
theorem rollbackCurrent_unavailable {token : Option Bytes} (hno : d.keep token = none) :
    rollbackCurrentIfPossible (W := W) p pl.cursor a d token = pure false := by
  unfold rollbackCurrentIfPossible
  split
  · rfl
  · next hd =>
    rw [CapabilityDescriptor.keep, if_pos (not_not.1 hd)] at hno
    rw [hno]

theorem applyCompleted_ends (h : Underway s p pl a ad) (output : ActionOutput)
    (token : Option Bytes) : ∃ w events pl',
      Ending ad v p d pl a s.world (.ok (.completed output token)) w events pl' ∧
      (exec (applyCompleted p pl.cursor a d output token v) s).2 = s.moved p.val pl' w events := by
  unfold applyCompleted verification
  by_cases hver : a.verificationRequired = true
  · rw [if_pos hver, exec_outside_bind h.stored]
    have h₁ := h.moved (v.verify d a.action output s.world).2
      [.verified p pl.cursor output (v.verify d a.action output s.world).1]
    rcases hv : v.verify d a.action output s.world with ⟨_ | reason | reason, w⟩ <;> rw [hv] at h₁
    · refine ⟨_, _, _, .accepted output token w hver hv, ?_⟩
      refine (congrArg Prod.snd (exec_commit h₁ _ _)).trans ?_
      simp [CapabilityDescriptor.keep]
    · refine ⟨_, _, _, .retried output token reason w hver hv, ?_⟩
      refine (congrArg Prod.snd (exec_finish h₁ _ _ _)).trans ?_
      simp [CapabilityDescriptor.keep]
    · by_cases hno : d.keep token = none
      · refine ⟨_, _, _, .rejected output token reason w hver hv hno, ?_⟩
        simp only [rollbackCurrent_unavailable hno, pure_bind]
        refine (congrArg Prod.snd (exec_finish h₁ _ _ _)).trans ?_
        simp
      · have hd : d.rollbackSupported = true := by
          by_contra hd
          exact hno (if_neg hd)
        obtain ⟨t, rfl⟩ : ∃ t, token = some t := by
          rw [CapabilityDescriptor.keep, if_pos hd] at hno
          exact Option.ne_none_iff_exists'.1 hno
        dsimp only
        rw [exec_rollbackCurrent h₁ t hd]
        rcases hr : ad.rollback a.id a.action t w with ⟨failure | ⟨⟩, w'⟩
        · refine ⟨_, _, _, .stuck output t reason failure w w' hver hv hd hr, ?_⟩
          simp [hr]
        · refine ⟨_, _, _, .undone output t reason w w' hver hv hd hr, ?_⟩
          simp only [moved_world, hr]
          refine (congrArg Prod.snd (exec_update getElem?_moved_self
            (getElem?_put_self h.at_cursor) _ _ _)).trans ?_
          simp
  · rw [if_neg hver, exec_pure_bind]
    refine ⟨_, _, _, .unverified output token (Bool.not_eq_true _ ▸ hver), ?_⟩
    refine (congrArg Prod.snd (exec_commit h _ _)).trans ?_
    simp [CapabilityDescriptor.keep]

/-- **Every attempt ends in one of the listed ways.** -/
theorem applyAdapterResult_ends (h : Underway s p pl a ad) (result : AdapterResult) :
    ∃ w events pl', Ending ad v p d pl a s.world (.ok result) w events pl' ∧
      (exec (applyAdapterResult p pl.cursor a d result v) s).2 = s.moved p.val pl' w events := by
  have hfail : ∀ message, (exec (failContract p pl.cursor a message) s).2 = s.moved p.val
      (pl.put pl.cursor { a.started with status := .failed, lastError := some message } .failed)
      s.world [] :=
    fun message => congrArg Prod.snd (exec_finish h _ _ _)
  cases result with
  | completed output token => exact applyCompleted_ends h output token
  | suspended token note =>
    unfold applyAdapterResult
    dsimp only
    by_cases hd : d.resumable = true
    · refine ⟨_, _, _, .suspended token note hd, ?_⟩
      rw [if_neg (not_not.2 hd)]
      exact congrArg Prod.snd (exec_finish h _ _ _)
    · rw [if_pos hd]
      exact ⟨_, _, _, .breach _ _ hd, hfail _⟩
  | retryable reason token =>
    unfold applyAdapterResult
    dsimp only
    by_cases hd : token.isSome = true ∧ ¬ d.resumable = true
    · rw [if_pos hd]
      exact ⟨_, _, _, .breach _ _ hd, hfail _⟩
    · refine ⟨_, _, _, .retryable reason token fun ht => ?_, ?_⟩
      · by_contra hr
        exact hd ⟨ht, hr⟩
      · rw [if_neg hd]
        exact congrArg Prod.snd (exec_finish h _ _ _)

end Endings

/-! ## `executeNext` -/

/-- **The gate before an attempt**: the plan is live, the registry admits the action under its
cursor, and the grant covers it. -/
structure Authorized (s : Session W) (p : ActionPlanId) (g : AuthorityGrant)
    (pl : ActionPlanState) (a : PlannedAction) (d : CapabilityDescriptor) : Prop where
  stored : s.plans[p.val]? = some pl
  live : pl.status.isTerminal = false
  at_cursor : pl.actions[pl.cursor]? = some a
  validated : s.fabric.registry.validateAction a.capability a.action = .ok d
  permitted : g.permits d = .ok ()
  resumable : a.resumption.isSome = true → d.resumable = true
  unsettled : a.status.isSettled = false

/-- **What a call of `executeNext` can do.** -/
inductive Execution (s : Session W) (p : ActionPlanId) (g : AuthorityGrant)
    (v : ActionVerifier W) : Session W → Prop
  | idle : Execution s p g v s
  | exhausted (pl : ActionPlanState) (stored : s.plans[p.val]? = some pl)
      (live : pl.status.isTerminal = false) (h : pl.actions[pl.cursor]? = none) :
      Execution s p g v (s.moved p.val { pl with status := .completed } s.world [])
  | stalled (pl : ActionPlanState) (a : PlannedAction) (d : CapabilityDescriptor)
      (h : Authorized s p g pl a d) (missing : s.fabric.adapters[a.capability.val]? = none) :
      Execution s p g v (s.moved p.val (pl.put pl.cursor a.started .ready) s.world [])
  | attempted (pl : ActionPlanState) (a : PlannedAction) (d : CapabilityDescriptor)
      (h : Authorized s p g pl a d) (ad : CapabilityAdapter W)
      (found : s.fabric.adapters[a.capability.val]? = some ad) (w : W) (events : List Event)
      (pl' : ActionPlanState)
      (ending : Ending ad v p d pl a (ad.attempt a s.world).2 (ad.attempt a s.world).1 w events pl') :
      Execution s p g v (s.moved p.val pl' w
        (.called p pl.cursor a a.resumption g (ad.attempt a s.world).1 :: events))

variable {s : Session W} {p : ActionPlanId} {g : AuthorityGrant} {v : ActionVerifier W}

/-- An attempt that finds its adapter calls it, and ends as the answer says. -/
theorem attemptAction_attempted {pl : ActionPlanState} {a : PlannedAction}
    {d : CapabilityDescriptor} {ad : CapabilityAdapter W} (h : Authorized s p g pl a d)
    (found : s.fabric.adapters[a.capability.val]? = some ad) : ∃ w events pl',
      Ending ad v p d pl a (ad.attempt a s.world).2 (ad.attempt a s.world).1 w events pl' ∧
      (exec (attemptAction p pl.cursor a d g v) s).2 = s.moved p.val pl' w
        (.called p pl.cursor a a.resumption g (ad.attempt a s.world).1 :: events) := by
  unfold attemptAction
  rw [exec_update h.stored h.at_cursor]
  change ∃ w events pl', _ ∧
    (exec _ (s.moved p.val (pl.put pl.cursor a.started .ready) s.world [])).2 = _
  rw [exec_adapter_bind (s := s.moved ..) found, exec_outside_bind getElem?_moved_self]
  simp only [moved_world, moved_moved, List.nil_append]
  have hunder : Underway (s.moved p.val (pl.put pl.cursor a.started .ready)
      (ad.attempt a s.world).2 [.called p pl.cursor a a.resumption g (ad.attempt a s.world).1])
      p pl a ad := ⟨h.at_cursor, getElem?_moved_self, found⟩
  -- the remaining events and the plan are those of the ending the answer leads to
  cases hans : (ad.attempt a s.world).1 with
  | error reason =>
    rw [hans] at hunder
    dsimp only
    rw [exec_finish hunder, exec_pure, moved_moved]
    exact ⟨_, _, _, .error reason, rfl⟩
  | ok result =>
    rw [hans] at hunder
    dsimp only
    obtain ⟨w, events, pl', hend, hexec⟩ := applyAdapterResult_ends hunder result
    rw [hexec, moved_moved]
    exact ⟨w, events, pl', hend, rfl⟩

theorem attemptAction_execution {pl : ActionPlanState} {a : PlannedAction}
    {d : CapabilityDescriptor} (h : Authorized s p g pl a d) :
    Execution s p g v (exec (attemptAction p pl.cursor a d g v) s).2 := by
  cases had : s.fabric.adapters[a.capability.val]? with
  | none =>
    unfold attemptAction
    rw [exec_update h.stored h.at_cursor]
    change Execution s p g v
      (exec _ (s.moved p.val (pl.put pl.cursor a.started .ready) s.world [])).2
    rw [exec_adapter_bind_none (s := s.moved ..) had]
    exact .stalled pl a d h had
  | some ad =>
    obtain ⟨w, events, pl', hend, hexec⟩ := attemptAction_attempted (v := v) h had
    rw [hexec]
    exact .attempted pl a d h ad had w events pl' hend

/-- A call that passes every gate attempts the action. -/
theorem exec_executeNext_of_authorized {pl : ActionPlanState} {a : PlannedAction}
    {d : CapabilityDescriptor} (h : Authorized s p g pl a d) :
    exec (executeNext p g v) s = exec (attemptAction p pl.cursor a d g v) s := by
  have hlive : ¬ pl.status.isTerminal = true := Bool.eq_false_iff.1 h.live
  have hunsettled : ¬ a.status.isSettled = true := Bool.eq_false_iff.1 h.unsettled
  rw [executeNext, exec_plan_bind h.stored, exec_refuse_of_neg hlive, h.at_cursor]
  dsimp only
  rw [exec_get_bind, h.validated, exec_check_ok_bind, h.permitted, exec_check_ok_bind,
    exec_refuse_of_neg fun hres => hres.2 (h.resumable hres.1), exec_refuse_of_neg hunsettled]

theorem executeNext_execution (s : Session W) (p : ActionPlanId) (g : AuthorityGrant)
    (v : ActionVerifier W) : Execution s p g v (exec (executeNext p g v) s).2 := by
  unfold executeNext
  cases hstored : s.plans[p.val]? with
  | none =>
    rw [exec_plan_bind_none hstored]
    exact .idle
  | some pl =>
    rw [exec_plan_bind hstored]
    by_cases hlive : pl.status.isTerminal = true
    · rw [exec_refuse_of_pos hlive]
      exact .idle
    rw [exec_refuse_of_neg hlive]
    replace hlive : pl.status.isTerminal = false := Bool.not_eq_true _ ▸ hlive
    cases hcur : pl.actions[pl.cursor]? with
    | none =>
      dsimp only
      rw [finishPlan, exec_bind_ok (exec_setPlanStatus hstored .completed)]
      exact .exhausted pl hstored hlive hcur
    | some a =>
      dsimp only
      rw [exec_get_bind]
      cases hval : s.fabric.registry.validateAction a.capability a.action with
      | error e => exact .idle
      | ok d =>
        rw [exec_check_ok_bind]
        cases hperm : g.permits d with
        | error e => exact .idle
        | ok u =>
          rw [exec_check_ok_bind]
          by_cases hres : a.resumption.isSome = true ∧ ¬ d.resumable = true
          · rw [exec_refuse_of_pos hres]
            exact .idle
          rw [exec_refuse_of_neg hres]
          by_cases hset : a.status.isSettled = true
          · rw [exec_refuse_of_pos hset]
            exact .idle
          rw [exec_refuse_of_neg hset]
          exact attemptAction_execution ⟨hstored, hlive, hcur, hval, hperm,
            fun h => by_contra fun hd => hres ⟨h, hd⟩, Bool.not_eq_true _ ▸ hset⟩

/-! ## `rollbackPlan` -/

/-- The actions with a side effect to undo, last first, with their indices. -/
def ActionPlanState.pendings (plan : ActionPlanState) : List (PlannedAction × ℕ) :=
  plan.actions.zipIdx.reverse.filter fun e => e.1.pending

/-- What can undo an action: its token and its adapter, if its capability supports it. -/
def ActionFabric.undoer (fabric : ActionFabric W) (a : PlannedAction) :
    Option (Bytes × CapabilityAdapter W) :=
  match fabric.registry.descriptor a.capability, a.rollbackToken,
    fabric.adapters[a.capability.val]? with
  | .ok d, some token, some ad => if d.rollbackSupported then some (token, ad) else none
  | _, _, _ => none

/-- Asked in the world `w`, the adapter undoes the action with its token, and leaves `w'`. -/
def Undoes (fabric : ActionFabric W) (a : PlannedAction) (token : Bytes) (w w' : W) : Prop :=
  ∃ ad, fabric.undoer a = some (token, ad) ∧ ad.rollback a.id a.action token w = (.ok (), w')

/-- **The actions of the list are undone one after the other**, from the world `w` to `w'`. -/
inductive Unwound (fabric : ActionFabric W) (p : ActionPlanId) :
    List (PlannedAction × ℕ) → W → List Event → W → Prop
  | nil (w : W) : Unwound fabric p [] w [] w
  | cons {a : PlannedAction} {i : ℕ} {l : List (PlannedAction × ℕ)} {token : Bytes} {w w₁ w' : W}
      {events : List Event} (h : Undoes fabric a token w w₁)
      (rest : Unwound fabric p l w₁ events w') :
      Unwound fabric p ((a, i) :: l) w
        (.rollback p i a.id a.action token (.ok ()) :: events) w'

/-- Only the registry and the adapters decide what can be undone, not the plans. -/
theorem Unwound.congr {fabric : ActionFabric W} {p : ActionPlanId}
    {l : List (PlannedAction × ℕ)} {w w' : W} {events : List Event}
    (hun : Unwound fabric p l w events w') (fabric' : ActionFabric W)
    (h : ∀ a, fabric'.undoer a = fabric.undoer a) : Unwound fabric' p l w events w' := by
  induction hun with
  | nil w => exact .nil w
  | cons hhead _ ih =>
    obtain ⟨ad, hundoer, hcall⟩ := hhead
    exact .cons ⟨ad, (h _).trans hundoer, hcall⟩ ih

/-- The action, marked as rolled back. -/
def PlannedAction.undone (a : PlannedAction) : PlannedAction := { a with status := .rolledBack }

/-- The plan with one action marked as rolled back. -/
def ActionPlanState.undoAt (plan : ActionPlanState) (i : ℕ) : ActionPlanState :=
  { plan with actions := plan.actions.modify i PlannedAction.undone }

/-- The plan with the listed actions marked as rolled back. -/
def ActionPlanState.undo (plan : ActionPlanState) (l : List (PlannedAction × ℕ)) :
    ActionPlanState :=
  l.foldl (fun plan e => plan.undoAt e.2) plan

section Undo

variable {pl : ActionPlanState} {l : List (PlannedAction × ℕ)} {i : ℕ} {a : PlannedAction}

/-- What `undo` leaves alone. -/
theorem undo_frame : ∀ (l : List (PlannedAction × ℕ)) (pl : ActionPlanState),
    (pl.undo l).id = pl.id ∧ (pl.undo l).taskId = pl.taskId ∧ (pl.undo l).cursor = pl.cursor ∧
      (pl.undo l).status = pl.status ∧ (pl.undo l).actions.length = pl.actions.length
  | [], _ => ⟨rfl, rfl, rfl, rfl, rfl⟩
  | e :: l, pl => by
      obtain ⟨h₁, h₂, h₃, h₄, h₅⟩ := undo_frame l (pl.undoAt e.2)
      exact ⟨h₁, h₂, h₃, h₄, h₅.trans (List.length_modify ..)⟩

theorem getElem?_undo (i : ℕ) : ∀ (l : List (PlannedAction × ℕ)) (pl : ActionPlanState),
    (pl.undo l).actions[i]? = pl.actions[i]?.map fun a =>
      if i ∈ l.map Prod.snd then a.undone else a
  | [], pl => by simp [ActionPlanState.undo]
  | e :: l, pl => by
      change ((pl.undoAt e.2).undo l).actions[i]? = _
      rw [getElem?_undo i l (pl.undoAt e.2), ActionPlanState.undoAt, List.getElem?_modify]
      cases pl.actions[i]? with
      | none => rfl
      | some a =>
        change some (if i ∈ l.map Prod.snd then PlannedAction.undone _ else _)
          = some (if i ∈ e.2 :: l.map Prod.snd then _ else _)
        by_cases hi : e.2 = i
        · simp [hi, PlannedAction.undone]
        · have hmem : i ∈ e.2 :: l.map Prod.snd ↔ i ∈ l.map Prod.snd := by simp [Ne.symm hi]
          simp only [if_neg hi]
          exact congrArg some (if_congr hmem.symm rfl rfl)

theorem undoAt_eq_put (h : pl.actions[i]? = some a) :
    pl.undoAt i = pl.put i a.undone pl.status := by
  obtain ⟨hi, rfl⟩ := List.getElem?_eq_some_iff.1 h
  rw [ActionPlanState.undoAt, List.modify_eq_set_get _ hi]
  rfl

theorem mem_pendings {e : PlannedAction × ℕ} :
    e ∈ pl.pendings ↔ pl.actions[e.2]? = some e.1 ∧ e.1.pending = true := by
  rw [ActionPlanState.pendings, List.mem_filter, List.mem_reverse, List.mem_zipIdx_iff_getElem?]

end Undo

section Unwinding

variable {pl : ActionPlanState} {l rest : List (PlannedAction × ℕ)} {w w' : W}
  {events : List Event}

/-- Skipped actions do not matter to the loop. -/
theorem exec_rollbackActions_filter (p : ActionPlanId) :
    ∀ (l : List (PlannedAction × ℕ)) (s : Session W),
      exec (rollbackActions p l) s = exec (rollbackActions p (l.filter fun e => e.1.pending)) s
  | [], _ => rfl
  | (a, i) :: l, s => by
      by_cases ha : a.pending = true
      · rw [List.filter_cons, if_pos ha]
        change exec (rollbackAction p i a >>= fun _ => rollbackActions p l) s
          = exec (rollbackAction p i a >>= fun _ => rollbackActions p (l.filter _)) s
        rw [exec_bind, exec_bind]
        simp only [exec_rollbackActions_filter p l]
      · rw [List.filter_cons, if_neg ha, ← exec_rollbackActions_filter p l]
        change exec (rollbackAction p i a >>= fun _ => rollbackActions p l) s = _
        rw [rollbackAction, if_pos ha, exec_pure_bind]

/-- The loop's body undoes an action that can be undone, and notes it. -/
theorem exec_rollbackAction {s : Session W} {p : ActionPlanId} {a stored : PlannedAction} {i : ℕ}
    {token : Bytes} (hpl : s.plans[p.val]? = some pl) (hi : pl.actions[i]? = some stored)
    (ha : a.pending = true) (h : Undoes s.fabric a token s.world w') :
    exec (rollbackAction p i a) s = (.ok (), s.moved p.val (pl.undoAt i) w'
      [.rollback p i a.id a.action token (.ok ())]) := by
  obtain ⟨ad, hundoer, hcall⟩ := h
  unfold ActionFabric.undoer at hundoer
  split at hundoer
  · next d t ad' hd ht had =>
    split at hundoer
    · next hsup =>
      cases hundoer
      rw [rollbackAction, if_neg (not_not.2 ha), exec_get_bind, hd, exec_check_ok_bind,
        exec_refuse_of_neg (not_not.2 hsup), ht, exec_okOr_some_bind, exec_adapter_bind had,
        exec_outside_bind hpl, hcall, exec_check_ok_bind,
        exec_bind_ok (exec_actionMut getElem?_moved_self hi _), exec_pure]
      rw [undoAt_eq_put hi, moved_moved]
      rfl
    · exact nomatch hundoer
  · exact nomatch hundoer

/-- **Every list of actions is undone to its end, or up to an action that cannot be undone.** -/
theorem unwound_or_halted (fabric : ActionFabric W) (p : ActionPlanId) :
    ∀ (l : List (PlannedAction × ℕ)) (w : W), (∃ events w', Unwound fabric p l w events w') ∨
      ∃ done e rest events w', l = done ++ e :: rest ∧ Unwound fabric p done w events w' ∧
        ¬ ∃ token w'', Undoes fabric e.1 token w' w''
  | [], w => .inl ⟨[], w, .nil w⟩
  | (a, i) :: l, w => by
      by_cases h : ∃ token w₁, Undoes fabric a token w w₁
      · obtain ⟨token, w₁, h⟩ := h
        rcases unwound_or_halted fabric p l w₁ with ⟨events, w', hl⟩ |
          ⟨done, e, rest, events, w', rfl, hdone, hstop⟩
        · exact .inl ⟨_, w', .cons h hl⟩
        · exact .inr ⟨(a, i) :: done, e, rest, _, w', rfl, .cons h hdone, hstop⟩
      · exact .inr ⟨[], (a, i), l, [], w, rfl, .nil w, h⟩

/-- The computation stops without touching the plan; it may have asked the adapter in vain. -/
def Halts (x : FabricM W Unit) (s : Session W) (p : ActionPlanId) (pl : ActionPlanState)
    (e : PlannedAction × ℕ) : Prop :=
  ∃ error w events, exec x s = (.error error, s.moved p.val pl w events) ∧
    ∀ event ∈ events, ∃ token failure,
      event = .rollback p e.2 e.1.id e.1.action token (.error failure)

theorem halts_of_quiet {x : FabricM W Unit} {s : Session W} {p : ActionPlanId}
    {e : PlannedAction × ℕ} {error : ActionFabricError} (hpl : s.plans[p.val]? = some pl)
    (h : exec x s = (.error error, s)) : Halts x s p pl e := by
  refine ⟨error, s.world, [], h.trans ?_, by simp⟩
  simp only [Session.moved, insert_stored hpl, List.append_nil]

/-- The loop's body stops at an action that cannot be undone. -/
theorem rollbackAction_halts {s : Session W} {p : ActionPlanId} {e : PlannedAction × ℕ}
    (hpl : s.plans[p.val]? = some pl) (ha : e.1.pending = true)
    (h : ¬ ∃ token w, Undoes s.fabric e.1 token s.world w) :
    Halts (rollbackAction p e.2 e.1) s p pl e := by
  obtain ⟨a, i⟩ := e
  unfold rollbackAction
  rw [if_neg (not_not.2 ha)]
  cases hd : s.fabric.registry.descriptor a.capability with
  | error e => exact halts_of_quiet hpl (by rw [exec_get_bind, hd]; rfl)
  | ok d =>
    by_cases hsup : d.rollbackSupported = true
    swap
    · exact halts_of_quiet hpl (by
        rw [exec_get_bind, hd, exec_check_ok_bind, exec_refuse_of_pos hsup])
    cases ht : a.rollbackToken with
    | none =>
      exact halts_of_quiet hpl (by
        rw [exec_get_bind, hd, exec_check_ok_bind, exec_refuse_of_neg (not_not.2 hsup),
          exec_okOr_none_bind])
    | some token =>
      cases had : s.fabric.adapters[a.capability.val]? with
      | none =>
        exact halts_of_quiet hpl (by
          rw [exec_get_bind, hd, exec_check_ok_bind, exec_refuse_of_neg (not_not.2 hsup),
            exec_okOr_some_bind, exec_adapter_bind_none had])
      | some ad =>
        have hundoer : s.fabric.undoer a = some (token, ad) := by
          simp only [ActionFabric.undoer, hd, ht, had, hsup, if_true]
        rcases hcall : ad.rollback a.id a.action token s.world with ⟨failure | ⟨⟩, w⟩
        · refine ⟨.rollbackFailure a.capability failure, w,
            [.rollback p i a.id a.action token (.error failure)], ?_, ?_⟩
          · rw [exec_get_bind, hd, exec_check_ok_bind, exec_refuse_of_neg (not_not.2 hsup),
              exec_okOr_some_bind, exec_adapter_bind had, exec_outside_bind hpl, hcall,
              exec_check_error_bind]
          · intro event hevent
            exact ⟨token, failure, List.mem_singleton.1 hevent⟩
        · exact absurd ⟨token, w, ad, hundoer, hcall⟩ h

/-- **The loop over actions that can all be undone** marks them one by one. -/
theorem exec_rollbackActions_append {p : ActionPlanId} :
    ∀ {l rest : List (PlannedAction × ℕ)} {s : Session W} {pl : ActionPlanState}
      {events : List Event} {w' : W}, Unwound s.fabric p l s.world events w' →
      s.plans[p.val]? = some pl → (∀ e ∈ l, e.1.pending = true ∧ e.2 < pl.actions.length) →
      exec (rollbackActions p (l ++ rest)) s
        = exec (rollbackActions p rest) (s.moved p.val (pl.undo l) w' events)
  | [], rest, s, pl, events, w', hun, hpl, _ => by
      cases hun
      congr 1
      simp only [Session.moved, ActionPlanState.undo, List.foldl_nil, insert_stored hpl,
        List.append_nil]
  | (a, i) :: l, rest, s, pl, events, w', hun, hpl, hl => by
      cases hun with
      | @cons _ _ _ token _ w₁ _ tail h hrest =>
        obtain ⟨hhead, hl⟩ := List.forall_mem_cons.1 hl
        have hi : pl.actions[i]? = some pl.actions[i] := List.getElem?_eq_getElem hhead.2
        let t := s.moved p.val (pl.undoAt i) w₁ [.rollback p i a.id a.action token (.ok ())]
        have hun : Unwound t.fabric p l t.world tail w' := hrest.congr t.fabric fun _ => rfl
        change exec (rollbackAction p i a >>= fun _ => rollbackActions p (l ++ rest)) s = _
        rw [exec_bind_ok (exec_rollbackAction hpl hi hhead.1 h)]
        rw [exec_rollbackActions_append (s := t) hun getElem?_moved_self
          fun e he => ⟨(hl e he).1, by simpa [ActionPlanState.undoAt] using (hl e he).2⟩]
        rw [moved_moved]
        rfl

theorem pendings_lt : ∀ e ∈ pl.pendings, e.1.pending = true ∧ e.2 < pl.actions.length := by
  intro e he
  obtain ⟨hi, ha⟩ := mem_pendings.1 he
  exact ⟨ha, (List.getElem?_eq_some_iff.1 hi).1⟩

/-- `rollbackPlan` on a plan whose pending actions can all be undone. -/
theorem exec_rollbackPlan_complete {s : Session W} {p : ActionPlanId}
    (hpl : s.plans[p.val]? = some pl) (hun : Unwound s.fabric p pl.pendings s.world events w') :
    ∃ report, exec (rollbackPlan p) s = (.ok report,
      s.moved p.val { pl.undo pl.pendings with status := .rolledBack } w' events) := by
  have hloop : exec (rollbackActions p pl.actions.zipIdx.reverse) s
      = (.ok (), s.moved p.val (pl.undo pl.pendings) w' events) := by
    rw [exec_rollbackActions_filter]
    change exec (rollbackActions p pl.pendings) s = _
    rw [← List.append_nil pl.pendings, exec_rollbackActions_append hun hpl pendings_lt,
      List.append_nil]
    rfl
  rw [rollbackPlan, exec_plan_bind hpl, exec_bind_ok hloop, finishPlan,
    exec_bind_ok (exec_setPlanStatus getElem?_moved_self _), moved_moved, List.append_nil,
    exec_plan_bind getElem?_moved_self, exec_pure]
  exact ⟨_, rfl⟩

/-- `rollbackPlan` on a plan with a pending action that cannot be undone: those before it in the
loop stay undone. -/
theorem exec_rollbackPlan_halted {s : Session W} {p : ActionPlanId}
    {done rest : List (PlannedAction × ℕ)} {e : PlannedAction × ℕ}
    (hpl : s.plans[p.val]? = some pl) (hsplit : pl.pendings = done ++ e :: rest)
    (hun : Unwound s.fabric p done s.world events w')
    (hstop : ¬ ∃ token w, Undoes s.fabric e.1 token w' w) :
    ∃ error w events', exec (rollbackPlan p) s
        = (.error error, s.moved p.val (pl.undo done) w (events ++ events')) ∧
      ∀ event ∈ events', ∃ token failure,
        event = .rollback p e.2 e.1.id e.1.action token (.error failure) := by
  have hall : ∀ x ∈ done ++ e :: rest, x.1.pending = true ∧ x.2 < pl.actions.length :=
    hsplit ▸ pendings_lt
  obtain ⟨error, w, events', hexec, hevents⟩ := rollbackAction_halts
    (s := s.moved p.val (pl.undo done) w' events) (e := e) getElem?_moved_self
    (hall e (by simp)).1 hstop
  have hloop : exec (rollbackActions p pl.actions.zipIdx.reverse) s
      = (.error error, s.moved p.val (pl.undo done) w (events ++ events')) := by
    rw [exec_rollbackActions_filter]
    change exec (rollbackActions p pl.pendings) s = _
    rw [hsplit, exec_rollbackActions_append hun hpl fun x hx => hall x (by simp [hx])]
    change exec (rollbackAction p e.2 e.1 >>= fun _ => rollbackActions p rest) _ = _
    rw [exec_bind_error hexec, moved_moved]
  refine ⟨error, w, events', ?_, hevents⟩
  rw [rollbackPlan, exec_plan_bind hpl, exec_bind_error hloop]

/-- **What a call of `rollbackPlan` can do**, and whether it answers `Ok`. -/
inductive Rollback (s : Session W) (p : ActionPlanId) : Bool → Session W → Prop
  | missing (h : s.plans[p.val]? = none) : Rollback s p false s
  | complete (pl : ActionPlanState) (stored : s.plans[p.val]? = some pl) (events : List Event)
      (w : W) (unwound : Unwound s.fabric p pl.pendings s.world events w) :
      Rollback s p true
        (s.moved p.val { pl.undo pl.pendings with status := .rolledBack } w events)
  | halted (pl : ActionPlanState) (stored : s.plans[p.val]? = some pl)
      (done : List (PlannedAction × ℕ)) (e : PlannedAction × ℕ) (rest : List (PlannedAction × ℕ))
      (split : pl.pendings = done ++ e :: rest) (events : List Event) (w' : W)
      (unwound : Unwound s.fabric p done s.world events w')
      (stop : ¬ ∃ token w, Undoes s.fabric e.1 token w' w) (w : W) (events' : List Event)
      (vain : ∀ event ∈ events', ∃ token failure,
        event = .rollback p e.2 e.1.id e.1.action token (.error failure)) :
      Rollback s p false (s.moved p.val (pl.undo done) w (events ++ events'))

theorem rollbackPlan_rollback (s : Session W) (p : ActionPlanId) :
    Rollback s p (exec (rollbackPlan p) s).1.isOk (exec (rollbackPlan p) s).2 := by
  cases hpl : s.plans[p.val]? with
  | none =>
    rw [rollbackPlan, exec_plan_bind_none hpl]
    exact .missing hpl
  | some pl =>
    rcases unwound_or_halted s.fabric p pl.pendings s.world with ⟨events, w, hun⟩ |
      ⟨done, e, rest, events, w', hsplit, hun, hstop⟩
    · obtain ⟨report, hexec⟩ := exec_rollbackPlan_complete hpl hun
      rw [hexec]
      exact .complete pl hpl events w hun
    · obtain ⟨error, w, events', hexec, hvain⟩ := exec_rollbackPlan_halted hpl hsplit hun hstop
      rw [hexec]
      exact .halted pl hpl done e rest hsplit events w' hun hstop w events' hvain

end Unwinding

/-! ## `preparePlan` and `registerAdapter` -/

/-- **What a call of `preparePlan` can do.** -/
inductive Preparation (s : Session W) (taskId : UInt64) (graph : TaskGraph)
    (payloads : BTreeMap UInt32 TypedAction) : Session W → Prop
  | refused : Preparation s taskId graph payloads s
  | prepared (pl : ActionPlanState) (nextPlanId nextActionId : UInt64)
      (h : newPlan s.fabric.registry s.fabric.state taskId graph payloads
        = .ok (pl, nextPlanId, nextActionId)) :
      Preparation s taskId graph payloads { s with
        fabric.state.nextPlanId := nextPlanId
        fabric.state.nextActionId := nextActionId
        fabric.state.plans := s.plans.insert pl.id.val pl }

theorem preparePlan_preparation (s : Session W) (taskId : UInt64) (graph : TaskGraph)
    (payloads : BTreeMap UInt32 TypedAction) :
    Preparation s taskId graph payloads (exec (preparePlan taskId graph payloads) s).2 := by
  unfold preparePlan
  rw [exec_get_bind]
  dsimp only
  cases h : newPlan s.fabric.registry s.fabric.state taskId graph payloads with
  | error e =>
    rw [exec_check_error_bind]
    exact .refused
  | ok r =>
    obtain ⟨pl, nextPlanId, nextActionId⟩ := r
    rw [exec_check_ok_bind]
    exact .prepared pl nextPlanId nextActionId h

/-- `registerAdapter` touches nothing but the adapters. -/
theorem registerAdapter_frame (s : Session W) (capability : CapabilityId)
    (adapter : CapabilityAdapter W) : ∃ adapters,
      (exec (registerAdapter capability adapter) s).2 = { s with fabric.adapters := adapters } := by
  unfold registerAdapter
  rw [exec_get_bind]
  cases s.fabric.registry.descriptor capability with
  | error e => exact ⟨s.fabric.adapters, rfl⟩
  | ok d =>
    rw [exec_check_ok_bind, exec_get_bind]
    by_cases hdup : s.fabric.adapters.contains capability.val = true
    · rw [exec_refuse_of_pos hdup]
      exact ⟨s.fabric.adapters, rfl⟩
    · rw [exec_refuse_of_neg hdup]
      exact ⟨_, rfl⟩

/-! ## Runs -/

/-- A call on the fabric. -/
inductive Op (W : Type) where
  | registerAdapter (capability : CapabilityId) (adapter : CapabilityAdapter W)
  | preparePlan (taskId : UInt64) (graph : TaskGraph) (payloads : BTreeMap UInt32 TypedAction)
  | executeNext (planId : ActionPlanId) (authority : AuthorityGrant) (verifier : ActionVerifier W)
  | rollbackPlan (planId : ActionPlanId)

/-- The session a call leaves, whether it answered or refused. -/
def Session.step (s : Session W) : Op W → Session W
  | .registerAdapter capability adapter => (exec (registerAdapter capability adapter) s).2
  | .preparePlan taskId graph payloads => (exec (preparePlan taskId graph payloads) s).2
  | .executeNext planId authority verifier => (exec (executeNext planId authority verifier) s).2
  | .rollbackPlan planId => (exec (rollbackPlan planId) s).2

/-- **What a call can do**, by its kind. -/
inductive Step (s : Session W) : Op W → Session W → Prop
  | registered (capability : CapabilityId) (adapter : CapabilityAdapter W)
      (adapters : BTreeMap String (CapabilityAdapter W)) :
      Step s (.registerAdapter capability adapter) { s with fabric.adapters := adapters }
  | prepared {taskId : UInt64} {graph : TaskGraph} {payloads : BTreeMap UInt32 TypedAction}
      {s' : Session W} (h : Preparation s taskId graph payloads s') :
      Step s (.preparePlan taskId graph payloads) s'
  | executed {p : ActionPlanId} {g : AuthorityGrant} {v : ActionVerifier W} {s' : Session W}
      (h : Execution s p g v s') : Step s (.executeNext p g v) s'
  | rolledBack {p : ActionPlanId} {ok : Bool} {s' : Session W} (h : Rollback s p ok s') :
      Step s (.rollbackPlan p) s'

theorem step_spec (s : Session W) : ∀ op, Step s op (s.step op)
  | .registerAdapter capability adapter => by
      obtain ⟨adapters, h⟩ := registerAdapter_frame s capability adapter
      change Step s _ (exec (registerAdapter capability adapter) s).2
      rw [h]
      exact .registered capability adapter adapters
  | .preparePlan taskId graph payloads =>
      .prepared (preparePlan_preparation s taskId graph payloads)
  | .executeNext p g v => .executed (executeNext_execution s p g v)
  | .rollbackPlan p => .rolledBack (rollbackPlan_rollback s p)

/-- No call changes the registry. -/
theorem Step.registry_eq {s s' : Session W} {op : Op W} (h : Step s op s') :
    s'.fabric.registry = s.fabric.registry := by
  cases h with
  | registered => rfl
  | prepared h => cases h <;> rfl
  | executed h => cases h <;> rfl
  | rolledBack h => cases h <;> rfl

end NTD97
