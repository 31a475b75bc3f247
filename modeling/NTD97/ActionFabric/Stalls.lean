import Mathlib
import NTD97.ActionFabric.History

/-!
# ActionFabric/Stalls — a suspended action and the calls that reach no adapter

    Suspended t ──refused──▸ Suspended t          Suspended t ──adapter missing──▸ Running

A call refused before the attempt starts changes nothing, so a suspended action waits on with its
token.  The adapter is looked up after the action was set running: a call that passes every gate and
finds no adapter leaves an action that is executed afresh.
-/

namespace NTD97

open Machine Guard Effect

variable {W : Type}

/-- The plan's cursor and the action under it. -/
def Session.current (s : Session W) (p : ActionPlanId) : Option (ℕ × PlannedAction) :=
  s.plans[p.val]?.bind fun pl => pl.actions[pl.cursor]?.map (pl.cursor, ·)

/-- The adapters called between two states of a session. -/
def Session.newCalls (s s' : Session W) : List Event :=
  (s'.trace.drop s.trace.length).filter Event.isCall

/-- One more call of `executeNext` on the plan. -/
def attemptNext (p : ActionPlanId) (s : Session W) (call : AuthorityGrant × ActionVerifier W) :
    Session W := s.step (.executeNext p call.1 call.2)

/-- **The action waits to be resumed** with its token. -/
def Waits (p : ActionPlanId) (i : ℕ) (id : ActionId) (token : Bytes) (s : Session W) : Prop :=
  ∃ a, s.current p = some (i, a) ∧ a.id = id ∧ a.status = .suspended ∧ a.resumeToken = some token

/-- It waits, and an adapter called for it next is asked to resume it with that token. -/
def Resumes (p : ActionPlanId) (i : ℕ) (id : ActionId) (token : Bytes) (s : Session W) : Prop :=
  Waits p i id token s ∧ ∀ call, ∀ e ∈ s.newCalls (attemptNext p s call), ∃ snapshot answer,
    e = .called p i snapshot (some token) call.1 answer ∧ snapshot.id = id

/-- The call fails, and calls no adapter. -/
def FailsQuietly (p : ActionPlanId) (s : Session W) (call : AuthorityGrant × ActionVerifier W) :
    Prop :=
  (∃ e, (exec (executeNext p call.1 call.2) s).1 = .error e) ∧
    s.newCalls (attemptNext p s call) = []

/-- The call passes every gate, and its adapter is missing. -/
def FindsNoAdapter (p : ActionPlanId) (s : Session W) (call : AuthorityGrant × ActionVerifier W) :
    Prop :=
  ∃ pl a d, Authorized s p call.1 pl a d ∧ s.fabric.adapters[a.capability.val]? = none

section Steps

variable {s : Session W} {p : ActionPlanId} {pl pl' : ActionPlanState} {a : PlannedAction}
  {d : CapabilityDescriptor} {g : AuthorityGrant} {v : ActionVerifier W} {i : ℕ} {id : ActionId}
  {token : Bytes} {call : AuthorityGrant × ActionVerifier W}

/-- The action at the cursor of a plan. -/
theorem Session.current_eq_some : s.current p = some (i, a) ↔
    ∃ pl, s.plans[p.val]? = some pl ∧ pl.actions[pl.cursor]? = some a ∧ pl.cursor = i := by
  simp only [Session.current, Option.bind_eq_some_iff, Option.map_eq_some_iff, Prod.mk.injEq]
  constructor
  · rintro ⟨pl, hpl, b, hb, hi, rfl⟩
    exact ⟨pl, hpl, hb, hi⟩
  · rintro ⟨pl, hpl, ha, hi⟩
    exact ⟨pl, hpl, a, ha, hi, rfl⟩

@[simp] theorem newCalls_self : s.newCalls s = [] := by
  rw [Session.newCalls, List.drop_length, List.filter_nil]

/-- The calls of one step are those it adds. -/
theorem newCalls_moved {key : UInt64} {w : W} {events : List Event} :
    s.newCalls (s.moved key pl w events) = events.filter Event.isCall := by
  rw [Session.newCalls, moved_trace, List.drop_left]

/-- Without its adapter the action is left running. -/
theorem attempt_of_missing (h : Authorized s p call.1 pl a d)
    (hmissing : s.fabric.adapters[a.capability.val]? = none) :
    attemptNext p s call = s.moved p.val (pl.put pl.cursor a.started .ready) s.world [] := by
  rw [attemptNext, Session.step, exec_executeNext_of_authorized h, attemptAction,
    exec_update h.stored h.at_cursor]
  exact congrArg Prod.snd (exec_adapter_bind_none (s := s.moved ..) hmissing _)

/-- A suspended action with a token is resumed with it. -/
theorem resumption_eq_some (h : a.status = .suspended) (htoken : a.resumeToken = some token) :
    a.resumption = some token := by
  rw [PlannedAction.resumption, if_pos (.inl h), htoken]

/-- **A waiting action is resumed**, not executed afresh. -/
theorem Waits.resumes (h : Waits p i id token s) : Resumes p i id token s := by
  refine ⟨h, fun call e he => ?_⟩
  obtain ⟨x, hcurrent, hid, hstatus, htoken⟩ := h
  obtain ⟨plan, hplan, hat, rfl⟩ := Session.current_eq_some.1 hcurrent
  have hx : Execution s p call.1 call.2 (attemptNext p s call) :=
    executeNext_execution s p call.1 call.2
  generalize attemptNext p s call = s' at hx he
  cases hx with
  | idle =>
    rw [newCalls_self] at he
    exact nomatch he
  | exhausted pl | stalled pl =>
    rw [newCalls_moved] at he
    exact nomatch he
  | attempted pl a d hauth ad had w events pl' hend =>
    obtain rfl : plan = pl := Option.some.inj (hplan.symm.trans hauth.stored)
    obtain rfl : x = a := Option.some.inj (hat.symm.trans hauth.at_cursor)
    have hquiet : events.filter Event.isCall = [] :=
      List.filter_eq_nil_iff.2 fun e he => Bool.eq_false_iff.1 (hend.quiet e he).2
    rw [newCalls_moved, List.filter_cons_of_pos rfl, hquiet, List.mem_singleton,
      resumption_eq_some hstatus htoken] at he
    exact ⟨x, _, he, hid⟩

/-- **A quiet failure keeps the action waiting** exactly if it was not the adapter that was
missing. -/
theorem resumes_attempt_iff (h : Waits p i id token s) (hquiet : FailsQuietly p s call) :
    Resumes p i id token (attemptNext p s call) ↔ ¬ FindsNoAdapter p s call := by
  constructor
  · rintro ⟨⟨x, hcurrent, -, hstatus, -⟩, -⟩ ⟨pl, a, d, hauth, hmissing⟩
    obtain ⟨pl', hpl', hat, -⟩ := Session.current_eq_some.1 hcurrent
    rw [attempt_of_missing hauth hmissing, getElem?_moved_self] at hpl'
    obtain rfl := Option.some.inj hpl'
    have hrunning : (pl.put pl.cursor a.started .ready).actions[pl.cursor]? = some a.started :=
      getElem?_put_self hauth.at_cursor
    obtain rfl := Option.some.inj (hrunning.symm.trans hat)
    exact nomatch hstatus
  · intro hfound
    have hidle : attemptNext p s call = s := by
      obtain ⟨x, hcurrent, -⟩ := h
      obtain ⟨plan, hplan, hat, -⟩ := Session.current_eq_some.1 hcurrent
      have hx : Execution s p call.1 call.2 (attemptNext p s call) :=
        executeNext_execution s p call.1 call.2
      have hnone := hquiet.2
      generalize attemptNext p s call = s' at hx hnone
      cases hx with
      | idle => rfl
      | exhausted pl hstored hlive hcur =>
        obtain rfl : plan = pl := Option.some.inj (hplan.symm.trans hstored)
        exact nomatch hat.symm.trans hcur
      | stalled pl a d hauth hmissing => exact absurd ⟨pl, a, d, hauth, hmissing⟩ hfound
      | attempted pl a d hauth ad had w events pl' hend =>
        rw [newCalls_moved, List.filter_cons_of_pos rfl] at hnone
        exact nomatch hnone
    rw [hidle]
    exact h.resumes

/-- **A suspended action waits through calls that fail quietly**, and is resumed next, exactly if
none of them passed every gate to find no adapter. -/
theorem resumes_iff (h : Waits p i id token s) (calls : List (AuthorityGrant × ActionVerifier W))
    (hquiet : StepsMeet (attemptNext p) (FailsQuietly p) s calls) :
    StatesMeet (attemptNext p) (Resumes p i id token) s calls ↔
      StepsMeet (attemptNext p) (fun s call => ¬ FindsNoAdapter p s call) s calls :=
  statesMeet_iff_of_stepsMeet (fun _ _ h hquiet => resumes_attempt_iff h.1 hquiet) calls s
    h.resumes hquiet

end Steps

/-! ## Restored without its adapter -/

namespace StallSample

def descriptor : CapabilityDescriptor := { Sample.descriptor with resumable := true }

def registry : CapabilityRegistry :=
  match CapabilityRegistry.new.register descriptor with
  | .ok registry => registry
  | .error _ => .new

/-- It suspends every write, to finish it when resumed. -/
def adapter : CapabilityAdapter ℕ where
  execute _ _ w := (.ok (.suspended [7] "later"), w + 1)
  resume _ _ token w := (.ok (.completed Sample.output (some token)), w)
  rollback _ _ _ w := (.ok (), w)

def call : AuthorityGrant × ActionVerifier ℕ := ⟨.new, ⟨fun _ _ _ w => (.accept, w)⟩⟩

/-- A plan of one write, suspended by its first attempt. -/
def saved : ActionFabricState :=
  (run Session.step (Session.new registry 0)
    [.registerAdapter ⟨"file.write"⟩ adapter,
      .preparePlan 1 ⟨[⟨0, ⟨"file.write"⟩, .reversible, true⟩]⟩
        ((∅ : BTreeMap UInt32 TypedAction).insert 0 Sample.action),
      .executeNext ⟨1⟩ call.1 call.2]).fabric.state

/-- The session restored from it, its adapters not registered yet. -/
def restored : Session ℕ where
  fabric := match ActionFabric.fromState ℕ registry saved with
    | .ok fabric => fabric
    | .error _ => .new ℕ registry
  world := 1
  trace := []

/-- The session after one call too early, and the adapter registered. -/
def late : Session ℕ :=
  (attemptNext ⟨1⟩ restored call).step (.registerAdapter ⟨"file.write"⟩ adapter)

def suspended : PlannedAction :=
  { Sample.prepared 1 0 with
    status := .suspended, attempts := 1, resumeToken := some [7], lastError := some "later" }

theorem waits_restored : Waits ⟨1⟩ 0 ⟨1⟩ [7] restored :=
  ⟨suspended, by decide +kernel, rfl, rfl, rfl⟩

theorem failsQuietly_restored : FailsQuietly ⟨1⟩ restored call :=
  ⟨⟨.missingAdapter ⟨"file.write"⟩, by decide +kernel⟩, by decide +kernel⟩

/-- The action after the call that found no adapter. -/
def running : PlannedAction := { suspended with status := .running, attempts := 2 }

end StallSample

open StallSample in
/-- The restored session, called too early. -/
theorem resumes_iff_restored :
    StatesMeet (attemptNext ⟨1⟩) (Resumes ⟨1⟩ 0 ⟨1⟩ [7]) restored [call] ↔
      StepsMeet (attemptNext ⟨1⟩) (fun s call => ¬ FindsNoAdapter ⟨1⟩ s call) restored [call] :=
  resumes_iff waits_restored [call] ⟨failsQuietly_restored, trivial⟩

open StallSample in
/-- **A restored action executed twice**: the call made before its adapter is registered fails
quietly, and the next one executes the suspended write afresh. -/
theorem not_resumed_when_late :
    (ActionFabric.fromState ℕ registry saved).isOk = true ∧
      Waits ⟨1⟩ 0 ⟨1⟩ [7] restored ∧ FailsQuietly ⟨1⟩ restored call ∧
      ¬ Waits ⟨1⟩ 0 ⟨1⟩ [7] (attemptNext ⟨1⟩ restored call) ∧
      late.newCalls (attemptNext ⟨1⟩ late call) =
        [.called ⟨1⟩ 0 running none .new (.ok (.suspended [7] "later"))] := by
  refine ⟨by decide +kernel, waits_restored, failsQuietly_restored, ?_, by decide +kernel⟩
  rintro ⟨a, hcurrent, -, hstatus, -⟩
  have hrunning : (attemptNext ⟨1⟩ restored call).current ⟨1⟩ = some (0, running) := by
    decide +kernel
  obtain ⟨-, rfl⟩ := Prod.mk.inj (Option.some.inj (hrunning.symm.trans hcurrent))
  exact nomatch hstatus

end NTD97
