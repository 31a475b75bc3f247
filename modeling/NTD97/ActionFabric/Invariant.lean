import Mathlib
import NTD97.ActionFabric.Steps
import NTD97.ActionFabric.Valid

/-!
# ActionFabric/Invariant — which calls keep the state valid

    executeNext, preparePlan, registerAdapter   always
    rollbackPlan                                exactly when it does not stop half way

A rollback that stops in the middle leaves the actions it undid marked as rolled back in a plan
whose status still speaks of the time before.  `CleanRollback` is the exact exception: nothing was
undone yet, or only the failed action under the cursor, or the plan was rolled back before.
-/

namespace NTD97

open Guard Effect

variable {W : Type} {registry : CapabilityRegistry}

/-! ## One plan of a session -/

section Moved

variable {s : Session W} {key : UInt64} {pl pl' : ActionPlanState}

/-- **Replacing one plan by one with the same action ids** keeps the state valid exactly when the
new plan is valid. -/
theorem fabricValid_moved_iff (h : FabricValid registry s.fabric.state)
    (hstored : s.plans[key]? = some pl) (hids : pl'.actionIds = pl.actionIds) (w : W)
    (events : List Event) :
    FabricValid registry (s.moved key pl' w events).fabric.state ↔ PlanValid registry key pl' := by
  have hold : ∀ {k : UInt64} {plan : ActionPlanState},
      (s.moved key pl' w events).plans[k]? = some plan →
      (key = k ∧ plan = pl') ∨ s.plans[k]? = some plan := by
    intro k plan hk
    rw [getElem?_moved] at hk
    split at hk
    · next heq => exact .inl ⟨heq, (Option.some.inj hk).symm⟩
    · exact .inr hk
  -- an entry of the moved session has the ids of the entry it replaces
  have hsame : ∀ {k : UInt64} {plan : ActionPlanState},
      (s.moved key pl' w events).plans[k]? = some plan →
      ∃ plan₀, s.plans[k]? = some plan₀ ∧ plan.actionIds = plan₀.actionIds := by
    intro k plan hk
    rcases hold hk with ⟨rfl, rfl⟩ | hk
    · exact ⟨pl, hstored, hids⟩
    · exact ⟨plan, hk, rfl⟩
  refine ⟨fun hv => hv.plan_valid key pl' getElem?_moved_self, fun hpl => ?_⟩
  refine ⟨h.nextPlan_ne, h.nextAction_ne, fun k plan hk => ?_, fun k plan hk => ?_,
    fun k plan hk => ?_, fun k plan hk => ?_, fun k plan k' plan' hk hk' hne => ?_⟩
  · obtain ⟨plan₀, hk₀, -⟩ := hsame hk
    exact h.key_lt k plan₀ hk₀
  · rcases hold hk with ⟨rfl, rfl⟩ | hk
    · exact hpl
    · exact h.plan_valid k plan hk
  · obtain ⟨plan₀, hk₀, heq⟩ := hsame hk
    exact heq ▸ h.id_lt k plan₀ hk₀
  · obtain ⟨plan₀, hk₀, heq⟩ := hsame hk
    exact heq ▸ h.nodup k plan₀ hk₀
  · obtain ⟨plan₀, hk₀, heq⟩ := hsame hk
    obtain ⟨plan₀', hk₀', heq'⟩ := hsame hk'
    exact heq ▸ heq' ▸ h.disjoint k plan₀ k' plan₀' hk₀ hk₀' hne

end Moved

/-! ## The action under the cursor -/

/-- The parts of an action that are fixed when its plan is prepared. -/
structure PlannedAction.Same (a a' : PlannedAction) : Prop where
  id : a'.id = a.id
  capability : a'.capability = a.capability
  version : a'.capabilityVersion = a.capabilityVersion
  sideEffect : a'.sideEffect = a.sideEffect
  verified : a'.verificationRequired = a.verificationRequired
  action : a'.action = a.action

theorem PlannedAction.Same.admitted {a a' : PlannedAction} (h : a.Same a') {d : CapabilityDescriptor}
    (hval : registry.validateAction a.capability a.action = .ok d) (hon : Honours d a') :
    Admitted registry a' :=
  ⟨d, by rw [h.capability, h.action]; exact hval, hon⟩

section Cursor

variable {key : UInt64} {pl : ActionPlanState} {a a' : PlannedAction}

theorem actionIds_set (hcur : pl.actions[pl.cursor]? = some a) (hid : a'.id = a.id) :
    (pl.actions.set pl.cursor a').map (fun a => a.id.val) = pl.actionIds := by
  obtain ⟨hlt, rfl⟩ := List.getElem?_eq_some_iff.1 hcur
  rw [List.map_set, hid, ActionPlanState.actionIds]
  have hlt' : pl.cursor < (pl.actions.map fun a => a.id.val).length := by rwa [List.length_map]
  have hself := List.set_getElem_self hlt'
  rwa [List.getElem_map] at hself

/-- The actions after one of them was replaced. -/
theorem getElem?_set_cases {l : List PlannedAction} {c i : ℕ} {x : PlannedAction}
    (hx : (l.set c a')[i]? = some x) : (i = c ∧ x = a') ∨ (i ≠ c ∧ l[i]? = some x) := by
  rw [List.getElem?_set] at hx
  split at hx
  · next heq =>
    split at hx
    · exact .inl ⟨heq.symm, (Option.some.inj hx).symm⟩
    · exact nomatch hx
  · next hne => exact .inr ⟨fun h => hne h.symm, hx⟩

/-- Replacing the action under the cursor, and with it the status of the plan. -/
theorem PlanValid.put (h : PlanValid registry key pl) (hlive : pl.status.isTerminal = false)
    (hcur : pl.actions[pl.cursor]? = some a) (hid : a'.id = a.id) (hadm : Admitted registry a')
    {status : ActionPlanStatus} (hst : status ≠ .completed) (hfit : CurrentFits status a') :
    PlanValid registry key (pl.put pl.cursor a' status) := by
  have hne : pl.status ≠ .rolledBack := fun h => by rw [h] at hlive; exact nomatch hlive
  refine ⟨h.keyed, h.id_ne, h.task_ne, ?_, fun i x hx => ?_, fun hc => absurd hc hst⟩
  · simpa [ActionPlanState.put] using h.cursor_le
  · rcases getElem?_set_cases hx with ⟨rfl, rfl⟩ | ⟨hi, hx⟩
    · refine ⟨hid ▸ (h.actions _ a hcur).1, hadm, ?_, ?_, fun _ => hfit⟩
      · exact fun hlt => absurd hlt (lt_irrefl _)
      · exact fun hlt => absurd hlt (lt_irrefl _)
    · obtain ⟨hx0, hxa, hxp⟩ := h.actions i x hx
      exact ⟨hx0, hxa, fun hlt _ => hxp.before hlt hne, hxp.after, fun heq => absurd heq hi⟩

/-- Committing the action under the cursor. -/
theorem PlanValid.commit (h : PlanValid registry key pl) (hlive : pl.status.isTerminal = false)
    (hcur : pl.actions[pl.cursor]? = some a) (hid : a'.id = a.id) (hadm : Admitted registry a')
    (hst : a'.status = .committed) : PlanValid registry key (pl.commit a') := by
  have hne : pl.status ≠ .rolledBack := fun h => by rw [h] at hlive; cases hlive
  have hlt : pl.cursor < pl.actions.length := (List.getElem?_eq_some_iff.1 hcur).1
  refine ⟨h.keyed, h.id_ne, h.task_ne, ?_, fun i x hx => ?_, fun hc => ?_⟩
  · simpa [ActionPlanState.commit] using hlt
  · rcases getElem?_set_cases hx with ⟨rfl, rfl⟩ | ⟨hi, hx⟩
    · refine ⟨hid ▸ (h.actions _ a hcur).1, hadm, fun _ _ => hst, ?_, ?_⟩
      · intro hi
        change pl.cursor + 1 < pl.cursor at hi
        omega
      · intro hi
        change pl.cursor = pl.cursor + 1 at hi
        omega
    · obtain ⟨hx0, hxa, hxp⟩ := h.actions i x hx
      refine ⟨hx0, hxa, fun hlt _ => hxp.before ?_ hne, fun hlt => hxp.after ?_, fun heq => ?_⟩
      · change i < pl.cursor + 1 at hlt
        omega
      · change pl.cursor + 1 < i at hlt
        omega
      · -- the next action was not touched yet
        change i = pl.cursor + 1 at heq
        have hprep := hxp.after (by omega)
        change CurrentFits (if _ then _ else _) x
        split
        · trivial
        · exact .inl hprep
  · change pl.cursor + 1 = (pl.actions.set pl.cursor a').length
    rw [List.length_set]
    by_contra hne
    have hshort : ¬ pl.actions.length ≤ pl.cursor + 1 := by omega
    change (if pl.actions.length ≤ pl.cursor + 1 then ActionPlanStatus.completed else _) = _ at hc
    rw [if_neg hshort] at hc
    cases hc

end Cursor

/-! ## Attempts -/

/-- What an attempt may make of the action under the cursor: it stays the same action and keeps its
contract. -/
structure Reworked (d : CapabilityDescriptor) (a a' : PlannedAction) : Prop where
  same : a.Same a'
  honours : Honours d a → Honours d a'

section Attempts

variable {ad : CapabilityAdapter W} {v : ActionVerifier W} {p : ActionPlanId}
  {d : CapabilityDescriptor} {pl pl' : ActionPlanState} {a : PlannedAction} {w w' : W}
  {answer : Except String AdapterResult} {events : List Event} {s : Session W} {g : AuthorityGrant}

theorem reworked_started : Reworked d a a.started :=
  ⟨⟨rfl, rfl, rfl, rfl, rfl, rfl⟩, fun h => ⟨h.1, h.2, h.3, h.4, h.5⟩⟩

theorem keep_isSome {token : Option Bytes} (h : (d.keep token).isSome = true) :
    d.rollbackSupported = true := by
  by_contra hd
  rw [CapabilityDescriptor.keep, if_neg hd] at h
  cases h

/-- **The shape of an attempt**: the action under the cursor is reworked, and either the plan's
status fits it or it is committed. -/
inductive Shape (d : CapabilityDescriptor) (pl : ActionPlanState) (a : PlannedAction) :
    ActionPlanState → Prop
  | put {a' : PlannedAction} {status : ActionPlanStatus} (rework : Reworked d a a')
      (unfinished : status ≠ .completed) (fits : CurrentFits status a') :
      Shape d pl a (pl.put pl.cursor a' status)
  | commit {a' : PlannedAction} (rework : Reworked d a a') (committed : a'.status = .committed) :
      Shape d pl a (pl.commit a')

theorem Ending.shape (h : Ending ad v p d pl a w answer w' events pl') : Shape d pl a pl' := by
  cases h with
  | error reason =>
    refine .put ⟨⟨rfl, rfl, rfl, rfl, rfl, rfl⟩, fun h => ?_⟩ nofun (.inr (.inl rfl))
    exact ⟨h.1, h.2, h.3, fun h => (nomatch h), h.5⟩
  | breach result message =>
    refine .put ⟨⟨rfl, rfl, rfl, rfl, rfl, rfl⟩, fun h => ?_⟩ nofun (.inl rfl)
    exact ⟨h.1, h.2, h.3, h.4, h.5⟩
  | suspended token note hd =>
    refine .put ⟨⟨rfl, rfl, rfl, rfl, rfl, rfl⟩, fun h => ?_⟩ nofun ⟨rfl, rfl⟩
    exact ⟨h.1, h.2, h.3, fun _ => hd, h.5⟩
  | retryable reason token hd =>
    refine .put ⟨⟨rfl, rfl, rfl, rfl, rfl, rfl⟩, fun h => ?_⟩ nofun (.inr (.inl rfl))
    exact ⟨h.1, h.2, h.3, hd, h.5⟩
  | unverified | accepted =>
    refine .commit ⟨⟨rfl, rfl, rfl, rfl, rfl, rfl⟩, fun h => ?_⟩ rfl
    exact ⟨h.1, h.2, h.3, fun h => (nomatch h), keep_isSome⟩
  | retried =>
    refine .put ⟨⟨rfl, rfl, rfl, rfl, rfl, rfl⟩, fun h => ?_⟩ nofun (.inr (.inl rfl))
    exact ⟨h.1, h.2, h.3, fun h => (nomatch h), keep_isSome⟩
  | rejected =>
    refine .put ⟨⟨rfl, rfl, rfl, rfl, rfl, rfl⟩, fun h => ?_⟩ nofun (.inl rfl)
    exact ⟨h.1, h.2, h.3, h.4, h.5⟩
  | undone output token reason w₁ w₂ hver hv hd hr =>
    refine .put ⟨⟨rfl, rfl, rfl, rfl, rfl, rfl⟩, fun h => ?_⟩ nofun (.inr rfl)
    exact ⟨h.1, h.2, h.3, h.4, fun _ => hd⟩
  | stuck => exact .put reworked_started nofun (.inr (.inr rfl))

/-- A reworked action is still admitted. -/
theorem Reworked.admitted {a' : PlannedAction} (h : Reworked d a a')
    (hval : registry.validateAction a.capability a.action = .ok d) (ha : Admitted registry a) :
    Admitted registry a' := by
  obtain ⟨d', hd', hon⟩ := ha
  obtain rfl : d' = d := Except.ok.inj (hd'.symm.trans hval)
  exact h.same.admitted hval (h.honours hon)

/-- The plan an attempt leaves is valid, with the same action ids. -/
theorem Shape.planValid (h : Shape d pl a pl') (hauth : Authorized s p g pl a d)
    (hpl : PlanValid s.fabric.registry p.val pl) :
    PlanValid s.fabric.registry p.val pl' ∧ pl'.actionIds = pl.actionIds := by
  have hadm : ∀ {a' : PlannedAction}, Reworked d a a' → Admitted s.fabric.registry a' :=
    fun hrw => hrw.admitted hauth.validated (hpl.actions _ a hauth.at_cursor).2.1
  cases h with
  | put hrw hst hfit =>
    exact ⟨hpl.put hauth.live hauth.at_cursor hrw.same.id (hadm hrw) hst hfit,
      actionIds_set hauth.at_cursor hrw.same.id⟩
  | commit hrw hst =>
    exact ⟨hpl.commit hauth.live hauth.at_cursor hrw.same.id (hadm hrw) hst,
      actionIds_set hauth.at_cursor hrw.same.id⟩

/-- **`executeNext` keeps the state valid**, however it ends. -/
theorem Execution.fabricValid {s' : Session W} (h : Execution s p g v s')
    (hv : FabricValid s.fabric.registry s.fabric.state) :
    FabricValid s.fabric.registry s'.fabric.state := by
  cases h with
  | idle => exact hv
  | exhausted pl hstored hlive hcur =>
    refine (fabricValid_moved_iff hv hstored ?_ _ _).2 ?_
    · rfl
    have hpl := hv.plan_valid _ pl hstored
    have hend : pl.cursor = pl.actions.length :=
      le_antisymm hpl.cursor_le (List.getElem?_eq_none_iff.1 hcur)
    have hne : pl.status ≠ .rolledBack := fun h => by rw [h] at hlive; exact nomatch hlive
    refine ⟨hpl.keyed, hpl.id_ne, hpl.task_ne, hpl.cursor_le, fun i a ha => ?_, fun _ => hend⟩
    obtain ⟨ha0, hadm, hp⟩ := hpl.actions i a ha
    exact ⟨ha0, hadm, fun hlt _ => hp.before hlt hne, hp.after, fun _ => trivial⟩
  | stalled pl a d hauth hno =>
    have hshape : Shape d pl a (pl.put pl.cursor a.started .ready) :=
      .put reworked_started nofun (.inr (.inr rfl))
    obtain ⟨hpl', hids⟩ := hshape.planValid hauth (hv.plan_valid _ pl hauth.stored)
    exact (fabricValid_moved_iff hv hauth.stored hids _ _).2 hpl'
  | attempted pl a d hauth ad had w' events pl' hend =>
    obtain ⟨hpl', hids⟩ := hend.shape.planValid hauth (hv.plan_valid _ pl hauth.stored)
    exact (fabricValid_moved_iff hv hauth.stored hids _ _).2 hpl'

end Attempts

/-! ## Rollbacks -/

section Rollbacks

variable {s : Session W} {p : ActionPlanId} {pl : ActionPlanState} {key : UInt64}

theorem actionIds_undo (l : List (PlannedAction × ℕ)) : (pl.undo l).actionIds = pl.actionIds := by
  refine List.ext_getElem? fun i => ?_
  simp only [ActionPlanState.actionIds, List.getElem?_map, getElem?_undo, Option.map_map]
  refine congrFun (congrArg Option.map (funext fun a => ?_)) _
  change (if i ∈ l.map Prod.snd then a.undone else a).id.val = a.id.val
  split <;> rfl

/-- An action of a partly undone plan is one of the plan before, marked or not. -/
theorem getElem?_undo_cases {l : List (PlannedAction × ℕ)} {i : ℕ} {x : PlannedAction}
    (hx : (pl.undo l).actions[i]? = some x) : ∃ a, pl.actions[i]? = some a ∧
      ((i ∈ l.map Prod.snd ∧ x = a.undone) ∨ (i ∉ l.map Prod.snd ∧ x = a)) := by
  rw [getElem?_undo] at hx
  obtain ⟨a, ha, rfl⟩ := Option.map_eq_some_iff.1 hx
  refine ⟨a, ha, ?_⟩
  by_cases hi : i ∈ l.map Prod.snd
  · exact .inl ⟨hi, if_pos hi⟩
  · exact .inr ⟨hi, if_neg hi⟩

theorem Admitted.undone {a : PlannedAction} (h : Admitted registry a) :
    Admitted registry a.undone := by
  obtain ⟨d, hd, hon⟩ := h
  exact ⟨d, hd, ⟨hon.1, hon.2, hon.3, hon.4, hon.5⟩⟩

/-- What survives any undoing: all but the progress of the plan. -/
theorem PlanValid.admitted_undo (h : PlanValid registry key pl) {l : List (PlannedAction × ℕ)}
    {i : ℕ} {x : PlannedAction} (hx : (pl.undo l).actions[i]? = some x) :
    x.id.val ≠ 0 ∧ Admitted registry x := by
  obtain ⟨a, ha, ⟨-, rfl⟩ | ⟨-, rfl⟩⟩ := getElem?_undo_cases hx
  · exact ⟨(h.actions i a ha).1, (h.actions i a ha).2.1.undone⟩
  · exact ⟨(h.actions i x ha).1, (h.actions i x ha).2.1⟩

/-- Nothing after the cursor is pending. -/
theorem PlanValid.le_cursor (h : PlanValid registry key pl) {e : PlannedAction × ℕ}
    (he : e ∈ pl.pendings) : e.2 ≤ pl.cursor := by
  obtain ⟨hi, ha⟩ := mem_pendings.1 he
  by_contra hlt
  have hprep := (h.actions e.2 e.1 hi).2.2.after (not_le.1 hlt)
  simp [PlannedAction.pending, hprep] at ha

/-- A completed rollback leaves a valid plan. -/
theorem PlanValid.rolledBack (h : PlanValid registry key pl) :
    PlanValid registry key { pl.undo pl.pendings with status := .rolledBack } := by
  obtain ⟨hid, htask, hcur, -, hlen⟩ := undo_frame pl.pendings pl
  refine ⟨h.keyed.trans (congrArg _ hid.symm), h.id_ne, htask ▸ h.task_ne, ?_, fun i x hx => ?_,
    nofun⟩
  · change (pl.undo pl.pendings).cursor ≤ (pl.undo pl.pendings).actions.length
    rw [hcur, hlen]
    exact h.cursor_le
  · obtain ⟨hx0, hxa⟩ := h.admitted_undo hx
    refine ⟨hx0, hxa, fun _ hne => absurd rfl hne, fun hlt => ?_, fun _ => trivial⟩
    change (pl.undo pl.pendings).cursor < i at hlt
    rw [hcur] at hlt
    obtain ⟨a, ha, ⟨hi, rfl⟩ | ⟨-, rfl⟩⟩ := getElem?_undo_cases hx
    · obtain ⟨e, he, rfl⟩ := List.mem_map.1 hi
      exact absurd (h.le_cursor he) (not_le.2 hlt)
    · exact (h.actions i x ha).2.2.after hlt

/-- **A rollback that stops after undoing `done`** leaves a valid plan exactly when the plan was
rolled back before, or `done` is at most the failed action under the cursor. -/
theorem PlanValid.undo_iff (h : PlanValid registry key pl) {done : List (PlannedAction × ℕ)}
    (hdone : ∀ e ∈ done, e ∈ pl.pendings) :
    PlanValid registry key (pl.undo done) ↔
      pl.status = .rolledBack ∨ ∀ e ∈ done, pl.status = .failed ∧ e.2 = pl.cursor := by
  obtain ⟨hid, htask, hcur, hstatus, hlen⟩ := undo_frame done pl
  constructor
  · intro hv
    by_contra hnot
    rw [not_or] at hnot
    obtain ⟨hne, hbad⟩ := hnot
    refine hbad fun e he => ?_
    obtain ⟨hi, ha⟩ := mem_pendings.1 (hdone e he)
    have hx : (pl.undo done).actions[e.2]? = some e.1.undone := by
      rw [getElem?_undo, hi, Option.map_some, if_pos (List.mem_map_of_mem he)]
    have hplace := (hv.actions e.2 _ hx).2.2
    rw [hcur, hstatus] at hplace
    -- the marked action is not committed, so it stands under the cursor
    have heq : e.2 = pl.cursor := by
      refine le_antisymm (h.le_cursor (hdone e he)) (not_lt.1 fun hlt => ?_)
      exact nomatch hplace.before hlt hne
    refine ⟨?_, heq⟩
    have hfit := hplace.current heq
    cases hst : pl.status with
    | failed => rfl
    | rolledBack => exact absurd hst hne
    | completed =>
      have hlt := (List.getElem?_eq_some_iff.1 hi).1
      rw [heq, h.exhausted hst] at hlt
      exact absurd hlt (lt_irrefl _)
    | suspended =>
      rw [hst] at hfit
      exact nomatch hfit.1
    | ready =>
      rw [hst] at hfit
      rcases hfit with hfit | hfit | hfit <;> exact nomatch hfit
  · intro hcond
    refine ⟨h.keyed.trans (congrArg _ hid.symm), h.id_ne, htask ▸ h.task_ne, ?_, fun i x hx => ?_,
      fun hc => ?_⟩
    · rw [hcur, hlen]
      exact h.cursor_le
    · obtain ⟨hx0, hxa⟩ := h.admitted_undo hx
      refine ⟨hx0, hxa, ?_⟩
      rw [hcur, hstatus]
      obtain ⟨a, ha, ⟨hi, rfl⟩ | ⟨-, rfl⟩⟩ := getElem?_undo_cases hx
      · obtain ⟨e, he, rfl⟩ := List.mem_map.1 hi
        have hle := h.le_cursor (hdone e he)
        refine ⟨fun hlt hne => ?_, fun hlt => absurd hle (not_le.2 hlt), fun _ => ?_⟩
        · rcases hcond with hr | hall
          · exact absurd hr hne
          · exact absurd (hall e he).2 hlt.ne
        · rcases hcond with hr | hall
          · rw [hr]
            trivial
          · rw [(hall e he).1]
            exact .inr rfl
      · exact (h.actions i x ha).2.2
    · rw [hcur, hlen]
      exact h.exhausted (hstatus ▸ hc)

/-- **A clean rollback.**  Whenever the pending actions `done` roll back one after the other and the
next one cannot be undone in the world they leave, the plan was rolled back before, or `done` is at
most the failed action under its cursor. -/
def CleanRollback (s : Session W) (p : ActionPlanId) : Prop :=
  ∀ pl, s.plans[p.val]? = some pl → ∀ done e rest events w',
    pl.pendings = done ++ e :: rest → Unwound s.fabric p done s.world events w' →
    (¬ ∃ token w, Undoes s.fabric e.1 token w' w) →
    pl.status = .rolledBack ∨ ∀ x ∈ done, pl.status = .failed ∧ x.2 = pl.cursor

theorem rollbackPlan_fabricValid_iff (hv : FabricValid s.fabric.registry s.fabric.state) :
    FabricValid s.fabric.registry (exec (rollbackPlan p) s).2.fabric.state ↔
      CleanRollback s p := by
  have hhalted : ∀ {pl done e rest events w'}, s.plans[p.val]? = some pl →
      pl.pendings = done ++ e :: rest → Unwound s.fabric p done s.world events w' →
      (¬ ∃ token w, Undoes s.fabric e.1 token w' w) →
      (FabricValid s.fabric.registry (exec (rollbackPlan p) s).2.fabric.state ↔
        pl.status = .rolledBack ∨ ∀ x ∈ done, pl.status = .failed ∧ x.2 = pl.cursor) := by
    intro pl done e rest events w' hpl hsplit hun hstop
    obtain ⟨error, w, events', hexec, -⟩ := exec_rollbackPlan_halted hpl hsplit hun hstop
    rw [hexec, fabricValid_moved_iff hv hpl (actionIds_undo done)]
    exact (hv.plan_valid _ pl hpl).undo_iff fun x hx => by rw [hsplit]; simp [hx]
  constructor
  · intro hv' pl hpl done e rest events w' hsplit hun hstop
    exact (hhalted hpl hsplit hun hstop).1 hv'
  · intro hclean
    cases hpl : s.plans[p.val]? with
    | none =>
      rw [rollbackPlan, exec_plan_bind_none hpl]
      exact hv
    | some pl =>
      rcases unwound_or_halted s.fabric p pl.pendings s.world with ⟨events, w, hun⟩ |
        ⟨done, e, rest, events, w', hsplit, hun, hstop⟩
      · obtain ⟨report, hexec⟩ := exec_rollbackPlan_complete hpl hun
        rw [hexec]
        refine (fabricValid_moved_iff hv hpl ?_ _ _).2 (hv.plan_valid _ pl hpl).rolledBack
        exact actionIds_undo pl.pendings
      · exact (hhalted hpl hsplit hun hstop).2
          (hclean pl hpl done e rest events w' hsplit hun hstop)

end Rollbacks

/-! ## New plans -/

section Preparation

/-- A node that passed the checks of `preparePlan`. -/
structure NodeFits (registry : CapabilityRegistry) (v : ValidatedNode) : Prop where
  fits : ∃ d, registry.validateAction v.1.capability v.2.1 = .ok d ∧ v.1.sideEffect = d.sideEffect ∧
    v.2.2.1 = d.version ∧ (d.verificationRequired = true → v.2.2.2 = true)

theorem validateNodes_fits : ∀ {nodes : List ActionNode} {seen : Std.ExtTreeSet UInt32}
    {payloads left : BTreeMap UInt32 TypedAction} {validated : List ValidatedNode},
    validateNodes registry nodes seen payloads = .ok (validated, left) →
      ∀ v ∈ validated, NodeFits registry v
  | [], _, _, _, _, h => by
      obtain ⟨rfl, -⟩ := Prod.mk.inj (Except.ok.inj h)
      simp
  | node :: nodes, seen, payloads, left, validated, h => by
      simp only [validateNodes, bind_eq_ok, exists_unit, refuse_eq_ok, okOr_eq_ok, mapError_eq_ok,
        pure_eq_ok, Prod.exists, Prod.mk.injEq] at h
      obtain ⟨-, action, -, d, hd, hse, -, rest, left', hrest, rfl, -⟩ := h
      refine List.forall_mem_cons.2 ⟨⟨d, hd, not_not.1 hse, rfl, fun hv => ?_⟩,
        validateNodes_fits hrest⟩
      simp [hv]

/-- What `preparePlan` adds to a state. -/
structure FreshPlan (registry : CapabilityRegistry) (state : ActionFabricState)
    (pl : ActionPlanState) (nextPlanId nextActionId : UInt64) : Prop where
  id : pl.id.val = state.nextPlanId
  task_ne : pl.taskId ≠ 0
  cursor : pl.cursor = 0
  status : pl.status = .ready
  nextPlan : nextPlanId.toNat = state.nextPlanId.toNat + 1
  nextAction : nextActionId.toNat = state.nextActionId.toNat + pl.actions.length
  actions : ∀ i a, pl.actions[i]? = some a →
    a.id.val.toNat = state.nextActionId.toNat + i ∧ a.status = .prepared ∧
      a.rollbackToken = none ∧ Admitted registry a

theorem plannedAction_eq_ok {first : UInt64} {v : ValidatedNode} {i : ℕ} {a : PlannedAction}
    (hv : NodeFits registry v) (h : plannedAction first (v, i) = .ok a) :
    a.id.val.toNat = first.toNat + i ∧ a.status = .prepared ∧ a.rollbackToken = none ∧
      Admitted registry a := by
  obtain ⟨node, action, version, verified⟩ := v
  simp only [plannedAction, bind_eq_ok, exists_unit, refuse_eq_ok, okOr_eq_ok, pure_eq_ok,
    not_not] at h
  obtain ⟨hi, id, hid, rfl⟩ := h
  obtain ⟨d, hd, hse, hver, hverif⟩ := hv.fits
  rw [checkedAdd64_eq_some, UInt64.toNat_ofNat_of_lt' hi] at hid
  exact ⟨hid, rfl, rfl, d, hd, hver.symm, hse.symm, hverif, fun h => (by cases h),
    fun h => by cases h⟩

theorem newPlan_fresh {state : ActionFabricState} {taskId : UInt64} {graph : TaskGraph}
    {payloads : BTreeMap UInt32 TypedAction} {pl : ActionPlanState}
    {nextPlanId nextActionId : UInt64}
    (h : newPlan registry state taskId graph payloads = .ok (pl, nextPlanId, nextActionId)) :
    FreshPlan registry state pl nextPlanId nextActionId := by
  simp only [newPlan, bind_eq_ok, exists_unit, refuse_eq_ok, Prod.exists] at h
  obtain ⟨htask, validated, left, hnodes, h⟩ := h
  split at h
  · exact absurd h (by simp)
  simp only [bind_eq_ok, exists_unit, refuse_eq_ok, okOr_eq_ok, pure_eq_ok, checkedAdd64_eq_some,
    not_not, Prod.mk.injEq] at h
  obtain ⟨next, hnext, hlen, nextAction, hnextAction, actions, hactions, rfl, rfl, rfl⟩ := h
  rw [mapM_eq_ok] at hactions
  have hsize : actions.length = validated.length := by
    rw [← hactions.length_eq, List.length_zipIdx]
  refine ⟨rfl, fun h => htask (.inl h), rfl, rfl, hnext, ?_, fun i a ha => ?_⟩
  · rw [hnextAction, UInt64.toNat_ofNat_of_lt' hlen, hsize]
  · obtain ⟨hi, rfl⟩ := List.getElem?_eq_some_iff.1 ha
    have hi' : i < validated.length := hsize ▸ hi
    have hstep := hactions.get (i := i) (by simpa using hi') hi
    simp only [List.get_eq_getElem, List.getElem_zipIdx, Nat.zero_add] at hstep
    exact plannedAction_eq_ok (validateNodes_fits hnodes _ (List.getElem_mem hi')) hstep

namespace FreshPlan

variable {state : ActionFabricState} {pl : ActionPlanState} {nextPlanId nextActionId : UInt64}

/-- A number that is not zero is positive, read as a natural number. -/
theorem toNat_pos {n : UInt64} (h : n ≠ 0) : 0 < n.toNat :=
  UInt64.lt_iff_toNat_lt.1 (UInt64.pos_iff_ne_zero.2 h)

/-- The ids of a fresh plan fill the gap between the two next ids. -/
theorem id_bounds (h : FreshPlan registry state pl nextPlanId nextActionId) {id : UInt64}
    (hid : id ∈ pl.actionIds) :
    state.nextActionId.toNat ≤ id.toNat ∧ id.toNat < nextActionId.toNat := by
  obtain ⟨a, ha, rfl⟩ := List.mem_map.1 hid
  obtain ⟨i, hi, rfl⟩ := List.getElem_of_mem ha
  have := (h.actions i _ (List.getElem?_eq_getElem hi)).1
  rw [h.nextAction]
  omega

theorem nodup (h : FreshPlan registry state pl nextPlanId nextActionId) : pl.actionIds.Nodup := by
  rw [List.nodup_iff_getElem?_ne_getElem?]
  intro i j hij hj heq
  simp only [ActionPlanState.actionIds, List.length_map, List.getElem?_map] at hj heq
  rw [List.getElem?_eq_getElem hj, List.getElem?_eq_getElem (hij.trans hj)] at heq
  have hi := (h.actions i _ (List.getElem?_eq_getElem (hij.trans hj))).1
  have hj' := (h.actions j _ (List.getElem?_eq_getElem hj)).1
  rw [Option.map_some, Option.map_some, Option.some.injEq] at heq
  rw [heq] at hi
  omega

theorem planValid (h : FreshPlan registry state pl nextPlanId nextActionId)
    (hplan : state.nextPlanId ≠ 0) (haction : state.nextActionId ≠ 0) :
    PlanValid registry pl.id.val pl := by
  refine ⟨rfl, h.id ▸ hplan, h.task_ne, h.cursor ▸ Nat.zero_le _, fun i a ha => ?_, fun hc => ?_⟩
  · obtain ⟨hid, hst, -, hadm⟩ := h.actions i a ha
    refine ⟨fun h0 => ?_, hadm, fun hlt => ?_, fun _ => hst, fun _ => ?_⟩
    · have hpos := toNat_pos haction
      rw [h0] at hid
      change 0 = _ at hid
      omega
    · rw [h.cursor] at hlt
      exact absurd hlt (Nat.not_lt_zero _)
    · rw [h.status]
      exact .inl hst
  · rw [h.status] at hc
    exact nomatch hc

/-- The plans after preparing one: the fresh one, and those from before. -/
theorem getElem?_insert_cases {k : UInt64} {plan : ActionPlanState}
    (hk : (state.plans.insert pl.id.val pl)[k]? = some plan) :
    (pl.id.val = k ∧ plan = pl) ∨ state.plans[k]? = some plan := by
  rw [Std.ExtTreeMap.getElem?_insert] at hk
  split at hk
  · next heq => exact .inl ⟨Std.LawfulEqCmp.eq_of_compare heq, (Option.some.inj hk).symm⟩
  · exact .inr hk

/-- **A fresh plan keeps the state valid.** -/
theorem fabricValid (h : FreshPlan registry state pl nextPlanId nextActionId)
    (hv : FabricValid registry state) :
    FabricValid registry
      { nextPlanId, nextActionId, plans := state.plans.insert pl.id.val pl } := by
  -- the ids of an older plan are below every id of the fresh one
  have hdisj : ∀ {k : UInt64} {plan : ActionPlanState}, state.plans[k]? = some plan →
      plan.actionIds.Disjoint pl.actionIds := by
    intro k plan hk id hid hid'
    have hlt := UInt64.lt_iff_toNat_lt.1 (hv.id_lt k plan hk id hid)
    have := (h.id_bounds hid').1
    omega
  have hnext := h.nextAction
  have hpos := toNat_pos hv.nextAction_ne
  refine ⟨fun h0 => ?_, fun h0 => ?_, fun k plan hk => ?_, fun k plan hk => ?_, fun k plan hk => ?_,
    fun k plan hk => ?_, fun k plan k' plan' hk hk' hne => ?_⟩
  · have hnext := h.nextPlan
    change nextPlanId = 0 at h0
    rw [h0] at hnext
    exact absurd hnext (Nat.succ_ne_zero _).symm
  · change nextActionId = 0 at h0
    rw [h0] at hnext
    change 0 = _ at hnext
    omega
  · rw [UInt64.lt_iff_toNat_lt]
    change k.toNat < nextPlanId.toNat
    rw [h.nextPlan]
    rcases getElem?_insert_cases hk with ⟨rfl, rfl⟩ | hk₀
    · rw [h.id]
      omega
    · have := UInt64.lt_iff_toNat_lt.1 (hv.key_lt k plan hk₀)
      omega
  · rcases getElem?_insert_cases hk with ⟨rfl, rfl⟩ | hk₀
    · exact h.planValid hv.nextPlan_ne hv.nextAction_ne
    · exact hv.plan_valid k plan hk₀
  · intro id hid
    rw [UInt64.lt_iff_toNat_lt]
    rcases getElem?_insert_cases hk with ⟨rfl, rfl⟩ | hk₀
    · exact (h.id_bounds hid).2
    · have := UInt64.lt_iff_toNat_lt.1 (hv.id_lt k plan hk₀ id hid)
      change id.toNat < nextActionId.toNat
      omega
  · rcases getElem?_insert_cases hk with ⟨rfl, rfl⟩ | hk₀
    · exact h.nodup
    · exact hv.nodup k plan hk₀
  · rcases getElem?_insert_cases hk with ⟨rfl, rfl⟩ | hk₀
    · rcases getElem?_insert_cases hk' with ⟨rfl, rfl⟩ | hk₀'
      · exact absurd rfl hne
      · exact (hdisj hk₀').symm
    · rcases getElem?_insert_cases hk' with ⟨rfl, rfl⟩ | hk₀'
      · exact hdisj hk₀
      · exact hv.disjoint k plan k' plan' hk₀ hk₀' hne

end FreshPlan

end Preparation

/-! ## Every call -/

/-- The condition under which a call keeps the state valid: rollbacks are clean. -/
def CleanStep (s : Session W) : Op W → Prop
  | .rollbackPlan p => CleanRollback s p
  | _ => True

/-- Every call but a rollback keeps the state valid. -/
theorem Step.fabricValid {s s' : Session W} {op : Op W} (h : Step s op s')
    (hop : ∀ p, op ≠ .rollbackPlan p) (hv : FabricValid s.fabric.registry s.fabric.state) :
    FabricValid s.fabric.registry s'.fabric.state := by
  cases h with
  | registered => exact hv
  | prepared h =>
    cases h with
    | refused => exact hv
    | prepared pl nextPlanId nextActionId h => exact (newPlan_fresh h).fabricValid hv
  | executed h => exact h.fabricValid hv
  | rolledBack => exact absurd rfl (hop _)

/-- **A call keeps the state valid exactly if it is clean.** -/
theorem step_fabricValid_iff {s : Session W} (hv : FabricValid s.fabric.registry s.fabric.state)
    (op : Op W) :
    FabricValid (s.step op).fabric.registry (s.step op).fabric.state ↔ CleanStep s op := by
  have hstep := step_spec s op
  rw [hstep.registry_eq]
  cases op with
  | rollbackPlan p => exact rollbackPlan_fabricValid_iff hv
  | registerAdapter | preparePlan | executeNext =>
    exact iff_true_intro (hstep.fabricValid (fun _ h => (nomatch h)) hv)

/-- A new fabric is valid. -/
theorem fabricValid_new : FabricValid registry {} := by
  have hnone : ∀ {k : UInt64} {plan : ActionPlanState},
      (∅ : BTreeMap UInt64 ActionPlanState)[k]? = some plan → False := by
    intro k plan h
    simp at h
  exact ⟨by decide, by decide, fun _ _ h => (hnone h).elim, fun _ _ h => (hnone h).elim,
    fun _ _ h => (hnone h).elim, fun _ _ h => (hnone h).elim, fun _ _ _ _ h => (hnone h).elim⟩

end NTD97
