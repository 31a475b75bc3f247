import Mathlib
import NTD97.ActionFabric.History

/-!
# ActionFabric/Aftermath — rejected work, and what a rollback reaches

Two promises about work that did not go well.  A rejected action ends its plan, and a rollback
reaches every side effect an adapter reported.  Each has one gap, and holds along every run whose
steps avoid it:

    rejected, rollback fails   ──▸  the plan stays ready, and the action is called again
    retried with a new token   ──▸  the token of the first attempt is forgotten
-/

namespace NTD97

open Machine Guard Effect

variable {W : Type} {s : Session W} {p : ActionPlanId} {pl pl' : ActionPlanState} {w w' : W}
  {events : List Event} {ad : CapabilityAdapter W} {v : ActionVerifier W}
  {d : CapabilityDescriptor} {a : PlannedAction} {answer : Except String AdapterResult}

/-! ## Rejections -/

/-- The verifier rejected an action of the plan. -/
def Rejected (t : List Event) (p : ActionPlanId) : Prop :=
  ∃ i output reason, .verified p i output (.reject reason) ∈ t

/-- **A rejection settles**: if a call passes every gate, its attempt completes with a token and the
verifier rejects that, the adapter undoes it with the token, where the capability supports that. -/
def RejectionSettles (s : Session W) (p : ActionPlanId) (g : AuthorityGrant)
    (v : ActionVerifier W) : Prop :=
  ∀ (pl : ActionPlanState) (a : PlannedAction) (d : CapabilityDescriptor)
    (ad : CapabilityAdapter W) (output : ActionOutput) (token : Bytes) (reason : String)
    (w₁ w₂ : W), Authorized s p g pl a d → s.fabric.adapters[a.capability.val]? = some ad →
    ad.attempt a s.world = (.ok (.completed output (some token)), w₁) →
    a.verificationRequired = true → v.verify d a.action output w₁ = (.reject reason, w₂) →
    d.rollbackSupported = true → (ad.rollback a.id a.action token w₂).1 = .ok ()

/-- Every rejection of the call settles. -/
def SettledStep (s : Session W) : Op W → Prop
  | .executeNext p g v => RejectionSettles s p g v
  | _ => True

/-- A call that follows no rejection of its plan. -/
def Unrejected (before : List Event) (e : Event) : Prop := e.isCall = true → ¬ Rejected before e.plan

/-- **Rejected plans are over.** -/
structure Hushed (s : Session W) : Prop where
  ended : ∀ p, Rejected s.trace p → ∃ pl, s.plans[p.val]? = some pl ∧ pl.status.isTerminal = true
  hushed : Always Unrejected s.trace

theorem rejected_append {t : List Event} :
    Rejected (t ++ events) p ↔ Rejected t p ∨ Rejected events p := by
  simp only [Rejected, List.mem_append, exists_or]

/-- A call that touches one plan: its events are about that plan, and it ends the plan if the plan
was over or is rejected now. -/
theorem Hushed.moved (h : Hushed s) (hstored : s.plans[p.val]? = some pl)
    (hplan : ∀ e ∈ events, e.plan = p)
    (hend : pl.status.isTerminal = true ∨ Rejected events p → pl'.status.isTerminal = true)
    (hhushed : Always Unrejected (s.trace ++ events)) : Hushed (s.moved p.val pl' w events) := by
  refine ⟨fun q hq => ?_, hhushed⟩
  by_cases heq : q = p
  · subst heq
    refine ⟨pl', getElem?_moved_self, hend ?_⟩
    rcases rejected_append.1 hq with hq | hq
    · obtain ⟨plan, hplan, hterm⟩ := h.ended q hq
      exact .inl (Option.some.inj (hplan.symm.trans hstored) ▸ hterm)
    · exact .inr hq
  · rcases rejected_append.1 hq with hq | ⟨i, output, reason, hmem⟩
    · obtain ⟨plan, hplan, hterm⟩ := h.ended q hq
      exact ⟨plan, (getElem?_moved_ne heq).trans hplan, hterm⟩
    · exact absurd (hplan _ hmem) heq

theorem Hushed.live (h : Hushed s) (hstored : s.plans[p.val]? = some pl)
    (hlive : pl.status.isTerminal = false) : ¬ Rejected s.trace p := by
  intro hrej
  obtain ⟨plan, hplan, hterm⟩ := h.ended p hrej
  rw [Option.some.inj (hplan.symm.trans hstored), hlive] at hterm
  exact nomatch hterm

/-- A rejected attempt ends its plan, unless its rollback was asked for and failed. -/
theorem Ending.rejected_cases (h : Ending ad v p d pl a w answer w' events pl')
    (hrej : Rejected events p) : pl'.status = .failed ∨
      ∃ output token reason failure w₁, answer = .ok (.completed output (some token)) ∧
        a.verificationRequired = true ∧ v.verify d a.action output w = (.reject reason, w₁) ∧
        d.rollbackSupported = true ∧ (ad.rollback a.id a.action token w₁).1 = .error failure := by
  obtain ⟨i, output, reason, hmem⟩ := hrej
  cases h with
  | rejected | undone => exact .inl rfl
  | stuck output token reason failure w₁ w₂ hver hv hd hr =>
    exact .inr ⟨output, token, reason, failure, w₁, rfl, hver, hv, hd, congrArg Prod.fst hr⟩
  | error | breach | suspended | retryable | unverified | accepted | retried => simp at hmem

theorem Hushed.execution {g : AuthorityGrant} {s' : Session W} (h : Hushed s)
    (hx : Execution s p g v s') (hsettles : RejectionSettles s p g v) : Hushed s' := by
  have hquiet : ∀ {events : List Event}, (∀ e ∈ events, e.isCall = false) →
      ∀ e ∈ events, ∀ before, Unrejected before e :=
    fun hcall e he before h => by rw [hcall e he] at h; exact nomatch h
  cases hx with
  | idle => exact h
  | exhausted pl hstored hlive hcur =>
    exact h.moved hstored (by simp) (fun _ => rfl) (h.hushed.append (by simp))
  | stalled pl a d hauth hno =>
    refine h.moved hauth.stored (by simp) (fun hor => ?_) (h.hushed.append (by simp))
    rcases hor with hterm | ⟨i, output, reason, hmem⟩
    · rw [hauth.live] at hterm
      exact nomatch hterm
    · exact nomatch hmem
  | attempted pl a d hauth ad had w₁ events pl' hend =>
    have hnot := h.live hauth.stored hauth.live
    refine h.moved hauth.stored ?_ (fun hor => ?_) ?_
    · exact List.forall_mem_cons.2 ⟨rfl, fun e he => (hend.quiet e he).1⟩
    · rcases hor with hterm | ⟨i, output, reason, hmem⟩
      · rw [hauth.live] at hterm
        exact nomatch hterm
      · have hrej : Rejected events p := by
          rcases List.mem_cons.1 hmem with heq | hmem
          · exact nomatch heq
          · exact ⟨i, output, reason, hmem⟩
        rcases hend.rejected_cases hrej with hfail |
          ⟨output, token, reason, failure, w₂, hans, hver, hv, hd, hr⟩
        · rw [hfail]
          rfl
        · -- the rollback this rejection asks for would have failed
          have hok := hsettles pl a d ad output token reason _ w₂ hauth had (Prod.ext hans rfl)
            hver hv hd
          rw [hr] at hok
          exact nomatch hok
    · have hcall : Unrejected s.trace
          (.called p pl.cursor a a.resumption g (ad.attempt a s.world).1) := fun _ => hnot
      rw [List.append_cons]
      exact (always_concat.2 ⟨h.hushed, hcall⟩).append (hquiet fun e he => (hend.quiet e he).2)

theorem Hushed.rollback {ok : Bool} {s' : Session W} (h : Hushed s) (hr : Rollback s p ok s') :
    Hushed s' := by
  have hkeep : ∀ {pl' : ActionPlanState} {w : W} {pl : ActionPlanState} {events : List Event},
      s.plans[p.val]? = some pl → (pl.status.isTerminal = true → pl'.status.isTerminal = true) →
      (∀ e ∈ events, ∃ i id action token answer, e = .rollback p i id action token answer) →
      Hushed (s.moved p.val pl' w events) := by
    intro pl' w pl events hstored hterm hrolls
    refine h.moved hstored (fun e he => ?_) (fun hor => ?_) (h.hushed.append fun e he before hc => ?_)
    · obtain ⟨i, id, action, token, answer, rfl⟩ := hrolls e he
      rfl
    · rcases hor with hor | ⟨i, output, reason, hmem⟩
      · exact hterm hor
      · obtain ⟨_, _, _, _, _, heq⟩ := hrolls _ hmem
        exact nomatch heq
    · obtain ⟨i, id, action, token, answer, rfl⟩ := hrolls e he
      exact nomatch hc
  cases hr with
  | missing => exact h
  | complete pl hstored events w hun =>
    refine hkeep hstored (fun _ => rfl) fun e he => ?_
    obtain ⟨i, id, action, token, heq⟩ := hun.rollbacks e he
    exact ⟨i, id, action, token, _, heq⟩
  | halted pl hstored done x rest hsplit events w' hun hstop w events' hvain =>
    refine hkeep hstored (fun hterm => ?_) fun e he => ?_
    · rw [(undo_frame done pl).2.2.2.1]
      exact hterm
    · rcases List.mem_append.1 he with he | he
      · obtain ⟨i, id, action, token, heq⟩ := hun.rollbacks e he
        exact ⟨i, id, action, token, _, heq⟩
      · obtain ⟨token, failure, heq⟩ := hvain e he
        exact ⟨_, _, _, token, _, heq⟩

/-- **Every settled call keeps rejected plans over.** -/
theorem Hushed.step (h : Hushed s) (hc : Chronicle s) (op : Op W) (hop : SettledStep s op) :
    Hushed (s.step op) := by
  have hstep := step_spec s op
  generalize s.step op = s' at hstep
  cases hstep with
  | registered => exact ⟨h.ended, h.hushed⟩
  | prepared hp =>
    cases hp with
    | refused => exact h
    | prepared pl nextPlanId nextActionId hnew =>
      refine ⟨fun q hq => ?_, h.hushed⟩
      obtain ⟨plan, hplan, hterm⟩ := h.ended q hq
      exact ⟨plan, hc.stored_of_fresh (newPlan_fresh hnew) hplan, hterm⟩
  | executed hx => exact h.execution hx hop
  | rolledBack hr => exact h.rollback hr

theorem hushed_new (registry : CapabilityRegistry) (w : W) : Hushed (Session.new registry w) where
  ended p hrej := by
    obtain ⟨i, output, reason, hmem⟩ := hrej
    exact nomatch hmem
  hushed := always_nil

theorem hushed_run (registry : CapabilityRegistry) (w : W) (ops : List (Op W))
    (hops : StepsMeet Session.step SettledStep (Session.new registry w) ops) :
    Hushed (run Session.step (Session.new registry w) ops) :=
  (statesMeet_of_stepsMeet (I := fun s => Hushed s ∧ Chronicle s)
    (fun _ op h hop => ⟨h.1.step h.2 op hop, h.2.step op⟩) ops _
    ⟨hushed_new registry w, chronicle_new registry w⟩ hops).last.1

/-- **A rejected plan is silent**, in every run whose rejections settle: after the verifier rejected
an action of the plan, no adapter is asked to execute or resume for it again. -/
theorem silent_after_rejection (registry : CapabilityRegistry) (w : W) (ops : List (Op W))
    (hops : StepsMeet Session.step SettledStep (Session.new registry w) ops)
    {before after : List Event} {p : ActionPlanId} {i : ℕ} {output : ActionOutput}
    {reason : String} (h : (run Session.step (Session.new registry w) ops).trace
      = before ++ .verified p i output (.reject reason) :: after) :
    ∀ e ∈ after, e.plan = p → e.isCall = false := by
  intro e he hplan
  obtain ⟨front, back, rfl⟩ := List.append_of_mem he
  by_contra hcall
  refine (hushed_run registry w ops hops).hushed
    (before ++ .verified p i output (.reject reason) :: front) e back ?_
    (Bool.not_eq_false _ ▸ hcall) ?_
  · rw [h, List.append_assoc, List.cons_append]
  · exact ⟨i, output, reason, by rw [hplan]; simp⟩

/-- With the sample adapter that undoes every write, rejections settle. -/
theorem Sample.rejectionSettles {s : Session ℕ} (h : s.fabric.adapters =
      (∅ : BTreeMap String (CapabilityAdapter ℕ)).insert "file.write" (adapter fun _ => .ok ()))
    (p : ActionPlanId) (g : AuthorityGrant) (v : ActionVerifier ℕ) : RejectionSettles s p g v := by
  intro pl a d ad output token reason w₁ w₂ _ had _ _ _ _
  rw [h, Std.ExtTreeMap.getElem?_insert] at had
  split at had
  · cases had
    rfl
  · simp at had

/-- A rejected write is undone, and the plan is not executed again. -/
theorem silent_after_rejection_sample :
    ∃ before after, (Sample.after (Sample.prepare (fun _ => .ok ()) [0] ++
        [Sample.execute (.reject "bad"), Sample.execute .accept])).trace
      = before ++ .verified ⟨1⟩ 0 Sample.output (.reject "bad") :: after ∧
      ∀ e ∈ after, e.plan = ⟨1⟩ → e.isCall = false := by
  have htrace : (Sample.after (Sample.prepare (fun _ => .ok ()) [0] ++
        [Sample.execute (.reject "bad"), Sample.execute .accept])).trace
      = [Sample.called 0 (Sample.prepared 1 0) 0] ++
        .verified ⟨1⟩ 0 Sample.output (.reject "bad") ::
          [Event.rollback ⟨1⟩ 0 ⟨1⟩ Sample.action [0] (.ok ())] := by decide +kernel
  exact ⟨_, _, htrace, silent_after_rejection Sample.registry 0
    (Sample.prepare (fun _ => .ok ()) [0] ++
      [Sample.execute (.reject "bad"), Sample.execute .accept])
    ⟨trivial, trivial, Sample.rejectionSettles rfl _ _ _, Sample.rejectionSettles rfl _ _ _, trivial⟩
    htrace⟩

/-- The rollback of a rejected write fails, and the write is attempted again. -/
theorem not_silent_after_rejection :
    ∃ before after, (Sample.after (Sample.prepare (fun _ => .error "busy") [0] ++
        [Sample.execute (.reject "bad"), Sample.execute .accept])).trace
      = before ++ .verified ⟨1⟩ 0 Sample.output (.reject "bad") :: after ∧
      ∃ e ∈ after, e.plan = ⟨1⟩ ∧ e.isCall = true := by
  refine ⟨[Sample.called 0 (Sample.prepared 1 0) 0],
    [.rollback ⟨1⟩ 0 ⟨1⟩ Sample.action [0] (.error "busy"),
      Sample.called 0 { Sample.prepared 1 0 with status := .running, attempts := 1 } 1,
      .verified ⟨1⟩ 0 Sample.output .accept, .committed ⟨1⟩ 0], ?_, ?_⟩
  · decide +kernel
  · exact ⟨_, List.mem_cons_of_mem _ List.mem_cons_self, rfl, rfl⟩

/-! ## Rollback tokens -/

/-- The adapter was asked to undo the action with the token. -/
def Asked (t : List Event) (p : ActionPlanId) (i : ℕ) (a : PlannedAction) (token : Bytes) : Prop :=
  ∃ answer, .rollback p i a.id a.action token answer ∈ t

/-- The plan still holds the token, on an action that a rollback will reach. -/
def Held (s : Session W) (p : ActionPlanId) (i : ℕ) (token : Bytes) : Prop :=
  ∃ pl a, s.plans[p.val]? = some pl ∧ pl.actions[i]? = some a ∧ a.rollbackToken = some token ∧
    a.status ≠ .prepared ∧ a.status ≠ .rolledBack

/-- **A token survives the next attempt**: where a call passes every gate, and the action it attempts
may write and holds a token that was not used yet, a completed attempt reports the same token again,
or is rejected without being undone. -/
def TokenSurvives (s : Session W) (p : ActionPlanId) (g : AuthorityGrant)
    (v : ActionVerifier W) : Prop :=
  ∀ (pl : ActionPlanState) (a : PlannedAction) (d : CapabilityDescriptor)
    (ad : CapabilityAdapter W) (token : Bytes) (output : ActionOutput) (reported : Option Bytes)
    (w₁ : W), Authorized s p g pl a d →
    a.sideEffect ≠ .readOnly → d.rollbackSupported = true → a.rollbackToken = some token →
    s.fabric.adapters[a.capability.val]? = some ad →
    ad.attempt a s.world = (.ok (.completed output reported), w₁) →
    reported = some token ∨ Asked s.trace p pl.cursor a token ∨
      (a.verificationRequired = true ∧ ∃ reason w₂,
        v.verify d a.action output w₁ = (.reject reason, w₂) ∧
        ∀ t, reported = some t → (ad.rollback a.id a.action t w₂).1 ≠ .ok ())

/-- Every token survives the call. -/
def TokenStep (s : Session W) : Op W → Prop
  | .executeNext p g v => TokenSurvives s p g v
  | _ => True

/-- The capability of an action that may write supports rollback. -/
def Undoable (registry : CapabilityRegistry) (a : PlannedAction) : Prop :=
  a.sideEffect ≠ .readOnly ∧
    ∃ d, registry.descriptor a.capability = .ok d ∧ d.rollbackSupported = true

/-- **Every token an adapter reported was used, or is still held.** -/
def Tracked (s : Session W) : Prop :=
  ∀ p i snapshot resume g output token,
    .called p i snapshot resume g (.ok (.completed output (some token))) ∈ s.trace →
    Undoable s.fabric.registry snapshot → Asked s.trace p i snapshot token ∨ Held s p i token

theorem Asked.append {t : List Event} {i : ℕ} {token : Bytes} (h : Asked t p i a token)
    (events : List Event) : Asked (t ++ events) p i a token :=
  h.imp fun _ hmem => List.mem_append_left _ hmem

theorem keep_of_supported (h : d.rollbackSupported = true) (token : Option Bytes) :
    d.keep token = token := if_pos h

/-- What becomes of a token the current action held: it is still held, or was used. -/
theorem Ending.keeps (h : Ending ad v p d pl a w answer w' events pl')
    (hcur : pl.actions[pl.cursor]? = some a) (hd : d.rollbackSupported = true) {token : Bytes}
    (hheld : a.rollbackToken = some token)
    (hsurvives : ∀ output reported, answer = .ok (.completed output reported) →
      reported = some token ∨ (a.verificationRequired = true ∧ ∃ reason w₂,
        v.verify d a.action output w = (.reject reason, w₂) ∧
        ∀ t, reported = some t → (ad.rollback a.id a.action t w₂).1 ≠ .ok ())) :
    Asked events p pl.cursor a token ∨ ∃ a', pl'.actions[pl.cursor]? = some a' ∧
      a'.rollbackToken = some token ∧ a'.status ≠ .prepared ∧ a'.status ≠ .rolledBack := by
  have hlt : pl.cursor < pl.actions.length := (List.getElem?_eq_some_iff.1 hcur).1
  cases h with
  | error | breach | suspended | retryable | rejected | stuck =>
    exact .inr ⟨_, List.getElem?_set_self hlt, hheld, nofun, nofun⟩
  | unverified output reported hver =>
    rcases hsurvives output reported rfl with rfl | ⟨hver', -⟩
    · exact .inr ⟨_, List.getElem?_set_self hlt, keep_of_supported hd _, nofun, nofun⟩
    · exact nomatch hver.symm.trans hver'
  | accepted output reported w₁ hver hv =>
    rcases hsurvives output reported rfl with rfl | ⟨-, reason, w₂, hrej, -⟩
    · exact .inr ⟨_, List.getElem?_set_self hlt, keep_of_supported hd _, nofun, nofun⟩
    · exact nomatch hv.symm.trans hrej
  | retried output reported reason w₁ hver hv =>
    rcases hsurvives output reported rfl with rfl | ⟨-, reason, w₂, hrej, -⟩
    · exact .inr ⟨_, List.getElem?_set_self hlt, keep_of_supported hd _, nofun, nofun⟩
    · exact nomatch hv.symm.trans hrej
  | undone output reported reason w₁ w₂ hver hv hd hr =>
    rcases hsurvives output (some reported) rfl with heq | ⟨-, reason', w₂', hrej, hnot⟩
    · cases heq
      exact .inl ⟨.ok (), by simp⟩
    · cases hv.symm.trans hrej
      exact absurd (congrArg Prod.fst hr) (hnot reported rfl)

/-- The token of a fresh completion is held, or was used at once. -/
theorem Ending.gains {output : ActionOutput} {token : Bytes}
    (h : Ending ad v p d pl a w (.ok (.completed output (some token))) w' events pl')
    (hcur : pl.actions[pl.cursor]? = some a) (hd : d.rollbackSupported = true) :
    Asked events p pl.cursor a token ∨ ∃ a', pl'.actions[pl.cursor]? = some a' ∧
      a'.rollbackToken = some token ∧ a'.status ≠ .prepared ∧ a'.status ≠ .rolledBack := by
  have hlt : pl.cursor < pl.actions.length := (List.getElem?_eq_some_iff.1 hcur).1
  cases h with
  | breach _ _ hb => exact hb.elim
  | unverified | accepted | retried =>
    exact .inr ⟨_, List.getElem?_set_self hlt, keep_of_supported hd _, nofun, nofun⟩
  | rejected _ _ _ _ _ _ hno =>
    rw [keep_of_supported hd] at hno
    exact nomatch hno
  | undone => exact .inl ⟨.ok (), by simp⟩
  | stuck _ _ _ failure => exact .inl ⟨.error failure, by simp⟩

/-- A call that touches one plan and reports nothing new keeps the tokens tracked, if the tokens
the plan held are used or still held. -/
theorem Tracked.moved (h : Tracked s) (hc : Chronicle s) (hstored : s.plans[p.val]? = some pl)
    (hkeep : ∀ i a token, pl.actions[i]? = some a → Undoable s.fabric.registry a →
      a.rollbackToken = some token → a.status ≠ .prepared → a.status ≠ .rolledBack →
      Asked (s.trace ++ events) p i a token ∨ ∃ a', pl'.actions[i]? = some a' ∧
        a'.rollbackToken = some token ∧ a'.status ≠ .prepared ∧ a'.status ≠ .rolledBack)
    (hnew : ∀ q i snapshot resume g output token,
      .called q i snapshot resume g (.ok (.completed output (some token))) ∈ events →
      Undoable s.fabric.registry snapshot →
      Asked (s.trace ++ events) q i snapshot token ∨ Held (s.moved p.val pl' w events) q i token) :
    Tracked (s.moved p.val pl' w events) := by
  intro q i snapshot resume g output token hmem hund
  rcases List.mem_append.1 hmem with hpast | hpresent
  · rcases h q i snapshot resume g output token hpast hund with hasked | ⟨plan, a, hq, ha, ht, hst⟩
    · exact .inl (hasked.append events)
    by_cases heq : q = p
    · subst heq
      obtain rfl : pl = plan := Option.some.inj (hstored.symm.trans hq)
      -- the call was for this action, so the plan's own copy may be asked instead
      obtain ⟨plan', x, hq', hx, hsame⟩ := hc.origin q i snapshot resume g _ hpast
      obtain rfl : pl = plan' := Option.some.inj (hstored.symm.trans hq')
      obtain rfl : a = x := Option.some.inj (ha.symm.trans hx)
      have hund' : Undoable s.fabric.registry a := by
        refine ⟨hsame.sideEffect ▸ hund.1, ?_⟩
        rw [hsame.capability]
        exact hund.2
      rcases hkeep i a token ha hund' ht hst.1 hst.2 with ⟨answer, hroll⟩ | ⟨a', ha', hrest⟩
      · rw [hsame.id, hsame.action] at hroll
        exact .inl ⟨answer, hroll⟩
      · exact .inr ⟨pl', a', getElem?_moved_self, ha', hrest⟩
    · exact .inr ⟨plan, a, (getElem?_moved_ne heq).trans hq, ha, ht, hst⟩
  · exact hnew q i snapshot resume g output token hpresent hund

theorem Tracked.attempted (h : Tracked s) (hc : Chronicle s) {g : AuthorityGrant}
    (hauth : Authorized s p g pl a d) (had : s.fabric.adapters[a.capability.val]? = some ad)
    (hend : Ending ad v p d pl a (ad.attempt a s.world).2 (ad.attempt a s.world).1 w' events pl')
    (hsurvives : TokenSurvives s p g v) :
    Tracked (s.moved p.val pl' w'
      (.called p pl.cursor a a.resumption g (ad.attempt a s.world).1 :: events)) := by
  obtain ⟨-, hdesc, -⟩ := CapabilityRegistry.validateAction_eq_ok.1 hauth.validated
  have hsup : Undoable s.fabric.registry a → d.rollbackSupported = true := by
    rintro ⟨-, d', hd', hd⟩
    rwa [Except.ok.inj (hdesc.symm.trans hd')]
  have hlater : ∀ {i : ℕ} {x : PlannedAction} {token : Bytes}, Asked events p i x token →
      Asked (s.trace ++ .called p pl.cursor a a.resumption g (ad.attempt a s.world).1 :: events)
        p i x token :=
    fun hasked => hasked.imp fun _ hmem =>
      List.mem_append_right _ (List.mem_cons_of_mem _ hmem)
  refine h.moved hc hauth.stored (fun i x token hx hund ht hp hr => ?_)
    fun q i snapshot resume g' output token hmem hund => ?_
  · by_cases hi : i = pl.cursor
    · subst hi
      obtain rfl : a = x := Option.some.inj (hauth.at_cursor.symm.trans hx)
      by_cases hasked : Asked s.trace p pl.cursor a token
      · exact .inl (hasked.append _)
      refine (hend.keeps hauth.at_cursor (hsup hund) ht fun output reported hans => ?_).imp_left hlater
      rcases hsurvives pl a d ad token output reported _ hauth hund.1 (hsup hund) ht had
        (Prod.ext hans rfl) with hsame | hused | hrej
      · exact .inl hsame
      · exact absurd hused hasked
      · exact .inr hrej
    · refine .inr ⟨x, ?_, ht, hp, hr⟩
      cases hend.shape with
      | put | commit => exact (List.getElem?_set_ne fun h => hi h.symm).trans hx
  · rcases List.mem_cons.1 hmem with heq | hmem
    · injection heq with hq hi hs hresume hg hans
      subst hq hi hs
      rw [← hans] at hend
      rcases hend.gains hauth.at_cursor (hsup hund) with hasked | ⟨a', ha', hrest⟩
      · exact .inl (hlater hasked)
      · exact .inr ⟨pl', a', getElem?_moved_self, ha', hrest⟩
    · exact nomatch (hend.quiet _ hmem).2

theorem Tracked.execution {g : AuthorityGrant} {s' : Session W} (h : Tracked s) (hc : Chronicle s)
    (hx : Execution s p g v s') (hsurvives : TokenSurvives s p g v) : Tracked s' := by
  cases hx with
  | idle => exact h
  | exhausted pl hstored hlive hcur =>
    exact h.moved hc hstored (fun i a token ha _ ht hp hr => .inr ⟨a, ha, ht, hp, hr⟩)
      fun _ _ _ _ _ _ _ hmem => absurd hmem List.not_mem_nil
  | stalled pl a d hauth hno =>
    refine h.moved hc hauth.stored (fun i x token hx _ ht hp hr => ?_)
      fun _ _ _ _ _ _ _ hmem => absurd hmem List.not_mem_nil
    by_cases hi : i = pl.cursor
    · subst hi
      obtain rfl : a = x := Option.some.inj (hauth.at_cursor.symm.trans hx)
      exact .inr ⟨a.started, getElem?_put_self hauth.at_cursor, ht, nofun, nofun⟩
    · exact .inr ⟨x, (List.getElem?_set_ne fun h => hi h.symm).trans hx, ht, hp, hr⟩
  | attempted pl a d hauth ad had w' events pl' hend => exact h.attempted hc hauth had hend hsurvives

/-- Each action undone was undone with the token it held. -/
theorem Unwound.asked {fabric : ActionFabric W} {l : List (PlannedAction × ℕ)}
    (h : Unwound fabric p l w events w') {token : Bytes} :
    ∀ e ∈ l, e.1.rollbackToken = some token → Asked events p e.2 e.1 token := by
  induction h with
  | nil => simp
  | @cons a i l t w w₁ w' events hhead _ ih =>
    refine List.forall_mem_cons.2 ⟨fun ht => ?_, fun e he ht => ?_⟩
    · obtain ⟨ad, hundoer, -⟩ := hhead
      have ht' : a.rollbackToken = some t := by
        unfold ActionFabric.undoer at hundoer
        split at hundoer
        · split at hundoer
          · cases hundoer
            assumption
          · exact nomatch hundoer
        · exact nomatch hundoer
      cases ht'.symm.trans ht
      exact ⟨.ok (), List.mem_cons_self⟩
    · exact (ih e he ht).imp fun _ hmem => List.mem_cons_of_mem _ hmem

/-- A rollback that undid `done`: those actions were asked with the token they held, the others are
as they were. -/
theorem Tracked.unwound (h : Tracked s) (hc : Chronicle s) {done : List (PlannedAction × ℕ)}
    {events' : List Event} (hstored : s.plans[p.val]? = some pl)
    (hpl' : pl'.actions = (pl.undo done).actions) (hsub : ∀ e ∈ done, e ∈ pl.pendings)
    (hun : Unwound s.fabric p done s.world events w')
    (hquiet : ∀ e ∈ events', e.isCall = false) :
    Tracked (s.moved p.val pl' w (events ++ events')) := by
  refine h.moved hc hstored (fun i a token ha _ ht hp hr => ?_)
    fun q i snapshot resume g output token hmem => ?_
  · by_cases hi : i ∈ done.map Prod.snd
    · obtain ⟨e, he, rfl⟩ := List.mem_map.1 hi
      obtain rfl : e.1 = a := Option.some.inj ((mem_pendings.1 (hsub e he)).1.symm.trans ha)
      refine .inl ((hun.asked e he ht).imp fun _ hmem => ?_)
      exact List.mem_append_right _ (List.mem_append_left _ hmem)
    · refine .inr ⟨a, ?_, ht, hp, hr⟩
      rw [hpl', getElem?_undo, ha, Option.map_some, if_neg hi]
  · rcases List.mem_append.1 hmem with hmem | hmem
    · obtain ⟨_, _, _, _, heq⟩ := hun.rollbacks _ hmem
      exact nomatch heq
    · exact nomatch hquiet _ hmem

theorem Tracked.rollback {ok : Bool} {s' : Session W} (h : Tracked s) (hc : Chronicle s)
    (hr : Rollback s p ok s') : Tracked s' := by
  cases hr with
  | missing => exact h
  | complete pl hstored events w hun =>
    rw [← List.append_nil events]
    exact h.unwound hc hstored rfl (fun _ he => he) hun (by simp)
  | halted pl hstored done x rest hsplit events w' hun hstop w events' hvain =>
    refine h.unwound hc hstored rfl (fun e he => by rw [hsplit]; simp [he]) hun fun e he => ?_
    obtain ⟨token, failure, rfl⟩ := hvain e he
    rfl

/-- **Every call that lets tokens survive keeps them tracked.** -/
theorem Tracked.step (h : Tracked s) (hc : Chronicle s) (op : Op W) (hop : TokenStep s op) :
    Tracked (s.step op) := by
  have hstep := step_spec s op
  generalize s.step op = s' at hstep
  cases hstep with
  | registered => exact h
  | prepared hp =>
    cases hp with
    | refused => exact h
    | prepared pl nextPlanId nextActionId hnew =>
      intro q i snapshot resume g output token hmem hund
      refine (h q i snapshot resume g output token hmem hund).imp_right ?_
      rintro ⟨plan, a, hq, hrest⟩
      exact ⟨plan, a, hc.stored_of_fresh (newPlan_fresh hnew) hq, hrest⟩
  | executed hx => exact h.execution hc hx hop
  | rolledBack hr => exact h.rollback hc hr

theorem tracked_new (registry : CapabilityRegistry) (w : W) : Tracked (Session.new registry w) :=
  fun _ _ _ _ _ _ _ hmem => absurd hmem List.not_mem_nil

theorem tracked_run (registry : CapabilityRegistry) (w : W) (ops : List (Op W))
    (hops : StepsMeet Session.step TokenStep (Session.new registry w) ops) :
    Tracked (run Session.step (Session.new registry w) ops) :=
  (statesMeet_of_stepsMeet (I := fun s => Tracked s ∧ Chronicle s)
    (fun _ op h hop => ⟨h.1.step h.2 op hop, h.2.step op⟩) ops _
    ⟨tracked_new registry w, chronicle_new registry w⟩ hops).last.1

/-- **A rollback that answers `Ok` reached every reported side effect**, in every run whose attempts
let tokens survive: the adapter was asked to undo the action with every token that an adapter
reported for it. -/
theorem rollback_reaches_all (registry : CapabilityRegistry) (w : W) (ops : List (Op W))
    (hops : StepsMeet Session.step TokenStep (Session.new registry w) ops) (p : ActionPlanId)
    (hok : (exec (rollbackPlan p) (run Session.step (Session.new registry w) ops)).1.isOk = true) :
    ∀ i snapshot resume g output token, .called p i snapshot resume g
        (.ok (.completed output (some token)))
        ∈ (run Session.step (Session.new registry w) ops).trace →
      Undoable registry snapshot →
      Asked (exec (rollbackPlan p) (run Session.step (Session.new registry w) ops)).2.trace p i
        snapshot token := by
  intro i snapshot resume g output token hmem hund
  have hc := chronicle_run registry w ops
  have htracked := tracked_run registry w ops hops
  have hregistry := registry_run registry w ops
  generalize run Session.step (Session.new registry w) ops = s at *
  have hr := rollbackPlan_rollback s p
  rw [hok] at hr
  generalize (exec (rollbackPlan p) s).2 = s' at hr
  cases hr with
  | complete pl hstored events w hun =>
    rcases htracked p i snapshot resume g output token hmem (hregistry.symm ▸ hund) with
      hasked | ⟨plan, a, hq, ha, ht, hp, hrb⟩
    · exact hasked.append events
    obtain rfl : pl = plan := Option.some.inj (hstored.symm.trans hq)
    obtain ⟨plan', x, hq', hx, hsame⟩ := hc.origin p i snapshot resume g _ hmem
    obtain rfl : pl = plan' := Option.some.inj (hstored.symm.trans hq')
    obtain rfl : a = x := Option.some.inj (ha.symm.trans hx)
    have hpending : a.pending = true := by
      simp [PlannedAction.pending, hp, hrb, hsame.sideEffect, hund.1]
    obtain ⟨answer, hroll⟩ := hun.asked (a, i) (mem_pendings.2 ⟨ha, hpending⟩) ht
    rw [hsame.id, hsame.action] at hroll
    exact ⟨answer, List.mem_append_right _ hroll⟩

theorem Sample.undoable : Undoable registry (prepared 1 0) :=
  ⟨by decide, descriptor, by decide +kernel, rfl⟩

/-- A write that is accepted at once holds no token when it is attempted. -/
theorem Sample.tokenSurvives (g : AuthorityGrant) (v : ActionVerifier ℕ) :
    TokenSurvives (after (prepare (fun _ => .ok ()) [0])) ⟨1⟩ g v := by
  intro pl a d ad token output reported w₁ hauth _ _ ht _ _
  have hpl := hauth.stored
  have ha := hauth.at_cursor
  have hstored : (after (prepare (fun _ => .ok ()) [0])).plans[(1 : UInt64)]?
      = some ⟨⟨1⟩, 1, 0, .ready, [prepared 1 0]⟩ := by decide +kernel
  cases hstored.symm.trans hpl
  cases ha
  exact nomatch ht

/-- The one accepted write is undone. -/
theorem rollback_reaches_all_sample :
    Asked (exec (rollbackPlan ⟨1⟩) (Sample.after (Sample.prepare (fun _ => .ok ()) [0] ++
      [Sample.execute .accept]))).2.trace ⟨1⟩ 0 (Sample.prepared 1 0) [0] :=
  rollback_reaches_all Sample.registry 0 (Sample.prepare (fun _ => .ok ()) [0] ++
      [Sample.execute .accept])
    ⟨trivial, trivial, Sample.tokenSurvives _ _, trivial⟩ ⟨1⟩ (by decide +kernel) 0
    (Sample.prepared 1 0) none .new Sample.output [0] (by decide +kernel) Sample.undoable

/-- The write is retried under a second token, and the rollback answers `Ok` without ever asking
for the first. -/
theorem rollback_misses_token :
    (exec (rollbackPlan ⟨1⟩) (Sample.after (Sample.prepare (fun _ => .ok ()) [0] ++
      [Sample.execute (.retry "again"), Sample.execute .accept]))).1.isOk = true ∧
    Sample.called 0 (Sample.prepared 1 0) 0 ∈ (Sample.after (Sample.prepare (fun _ => .ok ()) [0] ++
      [Sample.execute (.retry "again"), Sample.execute .accept])).trace ∧
    Undoable Sample.registry (Sample.prepared 1 0) ∧
    ¬ Asked (exec (rollbackPlan ⟨1⟩) (Sample.after (Sample.prepare (fun _ => .ok ()) [0] ++
      [Sample.execute (.retry "again"), Sample.execute .accept]))).2.trace ⟨1⟩ 0
      (Sample.prepared 1 0) [0] := by
  refine ⟨by decide +kernel, by decide +kernel, Sample.undoable, ?_⟩
  rintro ⟨answer, hmem⟩
  have hrolls : (exec (rollbackPlan ⟨1⟩) (Sample.after (Sample.prepare (fun _ => .ok ()) [0] ++
      [Sample.execute (.retry "again"), Sample.execute .accept]))).2.trace.all
      (fun e => match e with | .rollback _ _ _ _ token _ => token = [1] | _ => true) = true := by
    decide +kernel
  exact nomatch of_decide_eq_true (List.all_eq_true.1 hrolls _ hmem)

end NTD97
