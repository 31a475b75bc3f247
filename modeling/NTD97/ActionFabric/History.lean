import Mathlib
import NTD97.ActionFabric.Invariant
import NTD97.Lib.Run

/-!
# ActionFabric/History — what the calls of a run have in common

    called p 0 ─ verified ─ committed p 0 ─ … ─ called p i

The history of a session is read against its state: everything below a plan's cursor was committed,
nothing at or above it was, and a plan without a past is a fresh one.  `Chronicle` is that
invariant; it makes every call of an adapter due.
-/

namespace NTD97

open Machine Guard Effect

variable {W : Type}

/-- The plan an event is about. -/
def Event.plan : Event → ActionPlanId
  | .called plan .. => plan
  | .verified plan .. => plan
  | .committed plan _ => plan
  | .rollback plan .. => plan

/-! ## What is claimed of the past -/

/-- **The action was committed in this history**: an adapter completed it, the verifier accepted the
output if the action is to be verified, and the commit followed at once. -/
def CommitLogged (t : List Event) (p : ActionPlanId) (i : ℕ) : Prop :=
  ∃ before snapshot resume g output token after,
    t = before ++ .called p i snapshot resume g (.ok (.completed output token)) ::
      ((if snapshot.verificationRequired then [.verified p i output .accept] else []) ++
        .committed p i :: after)

theorem CommitLogged.append {t : List Event} {p : ActionPlanId} {i : ℕ} (h : CommitLogged t p i)
    (events : List Event) : CommitLogged (t ++ events) p i := by
  obtain ⟨before, snapshot, resume, g, output, token, after, rfl⟩ := h
  refine ⟨before, snapshot, resume, g, output, token, after ++ events, ?_⟩
  simp only [List.append_assoc, List.cons_append]

/-- The grant covers the registered capability of the action, which is of its domain. -/
def Covered (registry : CapabilityRegistry) (g : AuthorityGrant) (a : PlannedAction) : Prop :=
  ∃ d, registry.descriptor a.capability = .ok d ∧ g.permits d = .ok () ∧
    a.action.domain = d.domain

/-- **A call that was due**: it was covered, everything before it was committed, and it was not. -/
def Due (registry : CapabilityRegistry) (before : List Event) : Event → Prop
  | .called p i snapshot _ g _ => Covered registry g snapshot ∧
      (∀ j < i, CommitLogged before p j) ∧ .committed p i ∉ before
  | _ => True

/-! ## The fixed part of a plan -/

/-- The actions of a plan stay the same actions. -/
def Evolves (pl pl' : ActionPlanState) : Prop :=
  ∀ (i : ℕ) (a : PlannedAction), pl.actions[i]? = some a →
    ∃ a', pl'.actions[i]? = some a' ∧ a.Same a'

theorem PlannedAction.Same.refl (a : PlannedAction) : a.Same a := ⟨rfl, rfl, rfl, rfl, rfl, rfl⟩

theorem PlannedAction.Same.trans {a b c : PlannedAction} (h : a.Same b) (h' : b.Same c) :
    a.Same c :=
  ⟨h'.id.trans h.id, h'.capability.trans h.capability, h'.version.trans h.version,
    h'.sideEffect.trans h.sideEffect, h'.verified.trans h.verified, h'.action.trans h.action⟩

theorem evolves_set {pl pl' : ActionPlanState} {a a' : PlannedAction}
    (hcur : pl.actions[pl.cursor]? = some a) (hsame : a.Same a')
    (hpl' : pl'.actions = pl.actions.set pl.cursor a') : Evolves pl pl' := by
  intro i x hx
  by_cases hi : pl.cursor = i
  · subst hi
    obtain rfl : a = x := Option.some.inj (hcur.symm.trans hx)
    exact ⟨a', by rw [hpl', List.getElem?_set_self (List.getElem?_eq_some_iff.1 hcur).1], hsame⟩
  · exact ⟨x, by rw [hpl', List.getElem?_set_ne hi, hx], .refl x⟩

theorem Shape.evolves {d : CapabilityDescriptor} {pl pl' : ActionPlanState} {a : PlannedAction}
    (h : Shape d pl a pl') (hcur : pl.actions[pl.cursor]? = some a) : Evolves pl pl' := by
  cases h with
  | put hrw => exact evolves_set hcur hrw.same rfl
  | commit hrw => exact evolves_set hcur hrw.same rfl

theorem evolves_undo {pl pl' : ActionPlanState} {l : List (PlannedAction × ℕ)}
    (h : pl'.actions = (pl.undo l).actions) : Evolves pl pl' := by
  intro i a ha
  rw [h, getElem?_undo, ha]
  refine ⟨_, rfl, ?_⟩
  split <;> exact ⟨rfl, rfl, rfl, rfl, rfl, rfl⟩

/-! ## The invariant -/

/-- **The state and the history agree.** -/
structure Chronicle (s : Session W) : Prop where
  key_lt : ∀ (k : UInt64) (pl : ActionPlanState), s.plans[k]? = some pl →
    k < s.fabric.state.nextPlanId
  event_lt : ∀ e ∈ s.trace, e.plan.val < s.fabric.state.nextPlanId
  committed : ∀ (p : ActionPlanId) (pl : ActionPlanState), s.plans[p.val]? = some pl →
    ∀ j < pl.cursor, CommitLogged s.trace p j
  uncommitted : ∀ (p : ActionPlanId) (pl : ActionPlanState), s.plans[p.val]? = some pl →
    ∀ i, .committed p i ∈ s.trace → i < pl.cursor
  due : Always (Due s.fabric.registry) s.trace
  origin : ∀ p i snapshot resume g answer,
    .called p i snapshot resume g answer ∈ s.trace → ∃ pl a, s.plans[p.val]? = some pl ∧
      pl.actions[i]? = some a ∧ snapshot.Same a

theorem chronicle_new (registry : CapabilityRegistry) (w : W) :
    Chronicle (Session.new registry w) where
  key_lt k pl h := by simp [getElem?_new] at h
  event_lt e h := by simp [Session.new] at h
  committed p pl h := by simp [getElem?_new] at h
  uncommitted p pl h := by simp [getElem?_new] at h
  due := always_nil
  origin p i snapshot resume g answer h := by simp [Session.new] at h

section Steps

variable {s : Session W} {p : ActionPlanId} {pl pl' : ActionPlanState} {w : W}
  {events : List Event}

/-- **A call that touches one plan** keeps the chronicle if the cursor moves with the commits. -/
theorem Chronicle.moved (h : Chronicle s) (hstored : s.plans[p.val]? = some pl)
    (hev : Evolves pl pl') (hle : pl.cursor ≤ pl'.cursor)
    (hnew : ∀ j, pl.cursor ≤ j → j < pl'.cursor → CommitLogged (s.trace ++ events) p j)
    (hplan : ∀ e ∈ events, e.plan = p) (hopen : ∀ i, .committed p i ∈ events → i < pl'.cursor)
    (hdue : Always (Due s.fabric.registry) (s.trace ++ events))
    (horigin : ∀ q i snapshot resume g answer, .called q i snapshot resume g answer ∈ events →
      ∃ a, pl.actions[i]? = some a ∧ snapshot.Same a) :
    Chronicle (s.moved p.val pl' w events) := by
  refine ⟨fun k plan hk => ?_, fun e he => ?_, fun q plan hq j hj => ?_, fun q plan hq i hi => ?_,
    hdue, fun q i snapshot resume g answer hc => ?_⟩
  · rcases getElem?_moved_cases (q := ⟨k⟩) hk with ⟨rfl, -⟩ | ⟨-, hk⟩
    · exact h.key_lt k pl hstored
    · exact h.key_lt k plan hk
  · rcases List.mem_append.1 he with he | he
    · exact h.event_lt e he
    · rw [hplan e he]
      exact h.key_lt _ pl hstored
  · rcases getElem?_moved_cases hq with ⟨rfl, rfl⟩ | ⟨-, hq⟩
    · rcases lt_or_ge j pl.cursor with hlt | hge
      · exact (h.committed q pl hstored j hlt).append events
      · exact hnew j hge hj
    · exact (h.committed q plan hq j hj).append events
  · rcases getElem?_moved_cases hq with ⟨rfl, rfl⟩ | ⟨hne, hq⟩
    · rcases List.mem_append.1 hi with hi | hi
      · exact (h.uncommitted q pl hstored i hi).trans_le hle
      · exact hopen i hi
    · rcases List.mem_append.1 hi with hi | hi
      · exact h.uncommitted q plan hq i hi
      · exact absurd (hplan _ hi) hne
  · -- the action called for is found again in the plan the call leaves
    have hfind : ∀ a, pl.actions[i]? = some a → snapshot.Same a → q = p →
        ∃ pl a, (s.moved p.val pl' w events).plans[q.val]? = some pl ∧
          pl.actions[i]? = some a ∧ snapshot.Same a := by
      rintro a ha hsame rfl
      obtain ⟨a', ha', hsame'⟩ := hev i a ha
      exact ⟨pl', a', getElem?_moved_self, ha', hsame.trans hsame'⟩
    rcases List.mem_append.1 hc with hc | hc
    · obtain ⟨plan, a, hq, ha, hsame⟩ := h.origin q i snapshot resume g answer hc
      by_cases heq : q = p
      · subst heq
        obtain rfl : pl = plan := Option.some.inj (hstored.symm.trans hq)
        exact hfind a ha hsame rfl
      · exact ⟨plan, a, (getElem?_moved_ne heq).trans hq, ha, hsame⟩
    · obtain ⟨a, ha, hsame⟩ := horigin q i snapshot resume g answer hc
      exact hfind a ha hsame (hplan _ hc)

/-- The adapter was asked to execute or resume. -/
def Event.isCall : Event → Bool
  | .called .. => true
  | _ => false

theorem due_of_not_call {registry : CapabilityRegistry} {e : Event} (h : e.isCall = false)
    (before : List Event) : Due registry before e := by
  cases e with
  | called => exact nomatch h
  | verified | committed | rollback => trivial

section Endings

variable {ad : CapabilityAdapter W} {v : ActionVerifier W} {d : CapabilityDescriptor}
  {a : PlannedAction} {w' : W} {answer : Except String AdapterResult} {g : AuthorityGrant}

/-- After its call, an attempt only speaks of its own plan, and calls no more. -/
theorem Ending.quiet (h : Ending ad v p d pl a w answer w' events pl') :
    ∀ e ∈ events, e.plan = p ∧ e.isCall = false := by
  cases h <;> simp [Event.plan, Event.isCall]

/-- **The cursor moves exactly with a commit**, and a commit follows an accepted completion. -/
theorem Ending.commits (h : Ending ad v p d pl a w answer w' events pl') :
    (pl'.cursor = pl.cursor ∧ ∀ i, .committed p i ∉ events) ∨
    (pl'.cursor = pl.cursor + 1 ∧ ∃ output token, answer = .ok (.completed output token) ∧
      events = (if a.verificationRequired then [.verified p pl.cursor output .accept] else []) ++
        [.committed p pl.cursor]) := by
  cases h with
  | unverified output token hver => exact .inr ⟨rfl, output, token, rfl, by simp [hver]⟩
  | accepted output token w' hver hv => exact .inr ⟨rfl, output, token, rfl, by simp [hver]⟩
  | error | breach | suspended | retryable | retried | rejected | undone | stuck =>
    exact .inl ⟨rfl, by simp⟩

theorem Authorized.covered (h : Authorized s p g pl a d) : Covered s.fabric.registry g a := by
  obtain ⟨-, hd, hdom⟩ := CapabilityRegistry.validateAction_eq_ok.1 h.validated
  exact ⟨d, hd, h.permitted, hdom.symm⟩

theorem Chronicle.attempted (h : Chronicle s) (hauth : Authorized s p g pl a d)
    (hend : Ending ad v p d pl a w answer w' events pl') {w₁ : W} :
    Chronicle (s.moved p.val pl' w₁
      (.called p pl.cursor a a.resumption g answer :: events)) := by
  have hdue : Due s.fabric.registry s.trace (.called p pl.cursor a a.resumption g answer) :=
    ⟨hauth.covered, h.committed p pl hauth.stored,
      fun hmem => lt_irrefl _ (h.uncommitted p pl hauth.stored _ hmem)⟩
  have hdues : Always (Due s.fabric.registry)
      (s.trace ++ .called p pl.cursor a a.resumption g answer :: events) := by
    rw [List.append_cons]
    exact (always_concat.2 ⟨h.due, hdue⟩).append fun e he => due_of_not_call (hend.quiet e he).2
  have hplan : ∀ e ∈ Event.called p pl.cursor a a.resumption g answer :: events, e.plan = p :=
    List.forall_mem_cons.2 ⟨rfl, fun e he => (hend.quiet e he).1⟩
  have horigin : ∀ q i snapshot resume g' answer', .called q i snapshot resume g' answer' ∈
      Event.called p pl.cursor a a.resumption g answer :: events →
      ∃ x, pl.actions[i]? = some x ∧ snapshot.Same x := by
    intro q i snapshot resume g' answer' hc
    rcases List.mem_cons.1 hc with hc | hc
    · cases hc
      exact ⟨a, hauth.at_cursor, .refl a⟩
    · exact nomatch (hend.quiet _ hc).2
  have hev := hend.shape.evolves hauth.at_cursor
  rcases hend.commits with ⟨hcur, hnone⟩ | ⟨hcur, output, token, rfl, rfl⟩
  · refine h.moved hauth.stored hev hcur.ge (fun j hj hlt => ?_) hplan (fun i hi => ?_) hdues
      horigin
    · omega
    · rcases List.mem_cons.1 hi with hi | hi
      · exact nomatch hi
      · exact absurd hi (hnone i)
  · refine h.moved hauth.stored hev (by omega) (fun j hj hlt => ?_) hplan (fun i hi => ?_) hdues
      horigin
    · obtain rfl : j = pl.cursor := by omega
      exact ⟨s.trace, a, a.resumption, g, output, token, [], rfl⟩
    · have heq : i = pl.cursor := by
        rcases List.mem_cons.1 hi with hi | hi
        · exact nomatch hi
        rcases List.mem_append.1 hi with hi | hi
        · split at hi <;> simp at hi
        · simpa using hi
      omega

end Endings

/-- A call that notes nothing and commits nothing. -/
theorem Chronicle.silent (h : Chronicle s) (hstored : s.plans[p.val]? = some pl)
    (hev : Evolves pl pl') (hcur : pl'.cursor = pl.cursor)
    (hquiet : ∀ e ∈ events, e.plan = p ∧ e.isCall = false ∧ ∀ i, e ≠ .committed p i) :
    Chronicle (s.moved p.val pl' w events) := by
  refine h.moved hstored hev hcur.ge (fun j hj hlt => ?_) (fun e he => (hquiet e he).1)
    (fun i hi => ?_) (h.due.append fun e he => due_of_not_call (hquiet e he).2.1)
    fun q i snapshot resume g answer hc => ?_
  · omega
  · exact absurd rfl ((hquiet _ hi).2.2 i)
  · exact nomatch (hquiet _ hc).2.1

theorem Unwound.rollbacks {fabric : ActionFabric W} {l : List (PlannedAction × ℕ)} {w' : W}
    (h : Unwound fabric p l w events w') : ∀ e ∈ events, ∃ i id action token,
      e = .rollback p i id action token (.ok ()) := by
  induction h with
  | nil => simp
  | cons _ _ ih => exact List.forall_mem_cons.2 ⟨⟨_, _, _, _, rfl⟩, ih⟩

/-- The events of a rollback are rollbacks. -/
theorem quiet_of_rollback {i : ℕ} {id : ActionId} {action : TypedAction} {token : Bytes}
    {answer : Except String Unit} {e : Event} (h : e = .rollback p i id action token answer) :
    e.plan = p ∧ e.isCall = false ∧ ∀ i, e ≠ .committed p i := by
  subst h
  exact ⟨rfl, rfl, fun _ h => (nomatch h)⟩

theorem Chronicle.rollback {ok : Bool} {s' : Session W} (h : Chronicle s)
    (hr : Rollback s p ok s') : Chronicle s' := by
  cases hr with
  | missing => exact h
  | complete pl hstored events w hun =>
    refine h.silent hstored (evolves_undo rfl) (undo_frame _ _).2.2.1 fun e he => ?_
    obtain ⟨i, id, action, token, heq⟩ := hun.rollbacks e he
    exact quiet_of_rollback heq
  | halted pl hstored done x rest hsplit events w' hun hstop w events' hvain =>
    refine h.silent hstored (evolves_undo rfl) (undo_frame _ _).2.2.1 fun e he => ?_
    rcases List.mem_append.1 he with he | he
    · obtain ⟨i, id, action, token, heq⟩ := hun.rollbacks e he
      exact quiet_of_rollback heq
    · obtain ⟨token, failure, heq⟩ := hvain e he
      exact quiet_of_rollback heq

theorem Chronicle.execution {g : AuthorityGrant} {v : ActionVerifier W} {s' : Session W}
    (h : Chronicle s) (hx : Execution s p g v s') : Chronicle s' := by
  cases hx with
  | idle => exact h
  | exhausted pl hstored hlive hcur =>
    exact h.silent hstored (fun i a ha => ⟨a, ha, .refl a⟩) rfl (by simp)
  | stalled pl a d hauth hno =>
    exact h.silent hauth.stored
      (evolves_set hauth.at_cursor (reworked_started (d := d)).same rfl) rfl (by simp)
  | attempted pl a d hauth ad had w' events pl' hend => exact h.attempted hauth hend

/-- A fresh plan takes no plan's place. -/
theorem Chronicle.stored_of_fresh (h : Chronicle s) {nextPlanId nextActionId : UInt64}
    (hfresh : FreshPlan s.fabric.registry s.fabric.state pl nextPlanId nextActionId)
    {k : UInt64} {plan : ActionPlanState} (hk : s.plans[k]? = some plan) :
    (s.plans.insert pl.id.val pl)[k]? = some plan := by
  rw [Std.ExtTreeMap.getElem?_insert, if_neg, hk]
  rw [Std.compare_eq_iff_eq, hfresh.id]
  rintro rfl
  exact UInt64.lt_irrefl _ (h.key_lt _ plan hk)

/-- A fresh plan has no past. -/
theorem Chronicle.preparation {taskId : UInt64} {graph : TaskGraph}
    {payloads : BTreeMap UInt32 TypedAction} {s' : Session W} (h : Chronicle s)
    (hp : Preparation s taskId graph payloads s') : Chronicle s' := by
  cases hp with
  | refused => exact h
  | prepared pl nextPlanId nextActionId hnew =>
    have hfresh := newPlan_fresh hnew
    have hlt : ∀ {k : UInt64}, k < s.fabric.state.nextPlanId → k < nextPlanId := by
      intro k hk
      rw [UInt64.lt_iff_toNat_lt] at hk ⊢
      rw [hfresh.nextPlan]
      omega
    have hnot : ∀ {k : UInt64}, k < s.fabric.state.nextPlanId → pl.id.val ≠ k := by
      rintro k hk rfl
      rw [hfresh.id] at hk
      exact absurd hk (UInt64.lt_irrefl _)
    refine ⟨fun k plan hk => ?_, fun e he => hlt (h.event_lt e he), fun q plan hq j hj => ?_,
      fun q plan hq i hi => ?_, h.due, fun q i snapshot resume g answer hc => ?_⟩
    · rcases FreshPlan.getElem?_insert_cases hk with ⟨rfl, -⟩ | hk
      · change pl.id.val < nextPlanId
        rw [UInt64.lt_iff_toNat_lt, hfresh.nextPlan, hfresh.id]
        omega
      · exact hlt (h.key_lt k plan hk)
    · rcases FreshPlan.getElem?_insert_cases hq with ⟨-, rfl⟩ | hq
      · rw [hfresh.cursor] at hj
        exact absurd hj (Nat.not_lt_zero _)
      · exact h.committed q plan hq j hj
    · rcases FreshPlan.getElem?_insert_cases hq with ⟨heq, -⟩ | hq
      · exact absurd heq (hnot (h.event_lt _ hi))
      · exact h.uncommitted q plan hq i hi
    · obtain ⟨plan, a, hq, ha, hsame⟩ := h.origin q i snapshot resume g answer hc
      exact ⟨plan, a, h.stored_of_fresh hfresh hq, ha, hsame⟩

/-- **Every call keeps the chronicle.** -/
theorem Chronicle.step (h : Chronicle s) (op : Op W) : Chronicle (s.step op) := by
  have hstep := step_spec s op
  generalize s.step op = s' at hstep
  cases hstep with
  | registered => exact ⟨h.key_lt, h.event_lt, h.committed, h.uncommitted, h.due, h.origin⟩
  | prepared hp => exact h.preparation hp
  | executed hx => exact h.execution hx
  | rolledBack hr => exact h.rollback hr

end Steps

/-- **Every run keeps the chronicle.** -/
theorem chronicle_run (registry : CapabilityRegistry) (w : W) (ops : List (Op W)) :
    Chronicle (run Session.step (Session.new registry w) ops) :=
  invariant_run (fun _ op h => h.step op) ops (chronicle_new registry w)

theorem registry_run (registry : CapabilityRegistry) (w : W) (ops : List (Op W)) :
    (run Session.step (Session.new registry w) ops).fabric.registry = registry :=
  invariant_run (I := fun s => s.fabric.registry = registry)
    (fun s op h => (step_spec s op).registry_eq.trans h) ops rfl

/-! ## A sample capability

A reversible file capability whose adapter numbers its writes: the token of a write is its number.
The runs below refute or illustrate; they prepare plan `1` and act on it. -/

namespace Sample

def descriptor : CapabilityDescriptor where
  id := ⟨"file.write"⟩
  version := 1
  domain := .file
  sideEffect := .reversible
  verificationRequired := true
  rollbackSupported := true
  resumable := false
  requiredScopes := []

def registry : CapabilityRegistry :=
  match CapabilityRegistry.new.register descriptor with
  | .ok registry => registry
  | .error _ => .new

def action : TypedAction := .fileWrite "notes.txt" [7]

def output : ActionOutput := .ofText "written" ""

/-- Its rollbacks answer with `undo`. -/
def adapter (undo : Bytes → Except String Unit) : CapabilityAdapter ℕ where
  execute _ _ w := (.ok (.completed output (some [UInt8.ofNat w])), w + 1)
  rollback _ _ token w := (undo token, w)

/-- Register the adapter, and prepare a plan with one write per node. -/
def prepare (undo : Bytes → Except String Unit) (nodes : List UInt32) : List (Op ℕ) :=
  [.registerAdapter ⟨"file.write"⟩ (adapter undo),
    .preparePlan 1 ⟨nodes.map fun id => ⟨id, ⟨"file.write"⟩, .reversible, true⟩⟩
      (nodes.foldl (fun payloads id => payloads.insert id action) ∅)]

/-- Execute, with a verifier that answers `verdict`. -/
def execute (verdict : ActionVerification) : Op ℕ :=
  .executeNext ⟨1⟩ .new ⟨fun _ _ _ w => (verdict, w)⟩

/-- The session a run ends in. -/
def after (ops : List (Op ℕ)) : Session ℕ := run Session.step (Session.new registry 0) ops

/-- An action of the plan, as it is first prepared. -/
def prepared (id : UInt64) (node : UInt32) : PlannedAction where
  id := ⟨id⟩
  nodeId := node
  capability := ⟨"file.write"⟩
  capabilityVersion := 1
  sideEffect := .reversible
  verificationRequired := true
  action := action
  status := .prepared
  attempts := 0
  output := none
  resumeToken := none
  rollbackToken := none
  lastError := none

/-- The first call for an action: it is the `number`-th write. -/
def called (i : ℕ) (a : PlannedAction) (number : UInt8) : Event :=
  .called ⟨1⟩ i a none .new (.ok (.completed output (some [number])))

end Sample

/-! ## Calls are due -/

/-- **Every call of an adapter was due.**  Whenever an adapter is asked to execute or resume the
action at an index of a plan, the grant of that call covers the action, everything before it was
committed after a completion the verifier accepted, and the action itself never was. -/
theorem called_due (registry : CapabilityRegistry) (w : W) (ops : List (Op W))
    {before after : List Event} {p : ActionPlanId} {i : ℕ} {snapshot : PlannedAction}
    {resume : Option Bytes} {g : AuthorityGrant} {answer : Except String AdapterResult}
    (h : (run Session.step (Session.new registry w) ops).trace
      = before ++ .called p i snapshot resume g answer :: after) :
    (∃ pl a, (run Session.step (Session.new registry w) ops).plans[p.val]? = some pl ∧
        pl.actions[i]? = some a ∧ snapshot.Same a) ∧
      Covered registry g snapshot ∧ (∀ j < i, CommitLogged before p j) ∧
      .committed p i ∉ before := by
  have hc := chronicle_run registry w ops
  have hdue := hc.due before _ after h
  rw [registry_run] at hdue
  exact ⟨hc.origin p i snapshot resume g answer (by rw [h]; simp), hdue⟩

/-- In the plan with two accepted writes, the second was called after the first was committed. -/
theorem called_due_sample :
    (Sample.after (Sample.prepare (fun _ => .ok ()) [0, 1] ++
      [Sample.execute .accept, Sample.execute .accept])).trace.length = 6 ∧
    CommitLogged [Sample.called 0 (Sample.prepared 1 0) 0, .verified ⟨1⟩ 0 Sample.output .accept,
      .committed ⟨1⟩ 0] ⟨1⟩ 0 :=
  ⟨by decide +kernel, (called_due Sample.registry 0 (Sample.prepare (fun _ => .ok ()) [0, 1] ++
    [Sample.execute .accept, Sample.execute .accept])
    (show _ = [Sample.called 0 (Sample.prepared 1 0) 0, .verified ⟨1⟩ 0 Sample.output .accept,
        .committed ⟨1⟩ 0] ++ Sample.called 1 (Sample.prepared 2 1) 1 ::
        [.verified ⟨1⟩ 1 Sample.output .accept, .committed ⟨1⟩ 1] by decide +kernel)).2.2.1 0
    (by decide)⟩

end NTD97
