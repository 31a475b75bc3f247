import Mathlib
import NTD97.ActionFabric.History

/-!
# ActionFabric/Gates — a plan no gate stops

    newPlan ──▸ Cleared ──any call──▸ Cleared ──executeNext──▸ an answer │ an error of the attempt

The gates of a call are the registry, which admits an action under its capability, and the grant,
which permits what it is admitted as.  A plan that was prepared under a registry whose descriptors
are all permitted stays `Cleared`, whatever is called on its fabric; and the attempt behind the
gates has errors of its own only.
-/

namespace NTD97

open Machine Guard Effect

variable {W : Type}

/-- **An error of a gate**: of the capability, its domain or the grant, or of a contract the node of
a plan does not share with its capability. -/
def ActionFabricError.IsGate : ActionFabricError → Prop
  | .capability _ | .sideEffectMismatch .. | .verificationContractMismatch _ => True
  | _ => False

/-! ## Behind the gates -/

/-- **The computation fails with no error of a gate.** -/
def Ungated {α : Type} (x : FabricM W α) : Prop :=
  Triple (fun _ => True) x (fun _ _ => True) fun e _ => ¬ e.IsGate

namespace Ungated

variable {α β : Type} {x : FabricM W α} {f : α → FabricM W β} {e : ActionFabricError}

theorem ret (a : α) : Ungated (pure a : FabricM W α) := Triple.ret fun _ _ => trivial

theorem raise (he : ¬ e.IsGate) : Ungated (throw e : FabricM W α) := Triple.raise fun _ _ => he

theorem bind (hx : Ungated x) (hf : ∀ a, Ungated (f a)) : Ungated (x >>= f) := Triple.bind hx hf

theorem read_bind {f : Session W → FabricM W β} (h : ∀ s, Ungated (f s)) : Ungated (get >>= f) :=
  Triple.read_bind fun s _ =>
    Triple.conseq (h s) (fun _ _ => trivial) (fun _ _ h => h) fun _ _ h => h

theorem write (g : Session W → Session W) : Ungated (modify g : FabricM W PUnit) :=
  Triple.write fun _ _ => trivial

theorem option (o : Option α) (he : ¬ e.IsGate) : Ungated (okOr o e : FabricM W α) := by
  cases o with
  | none => exact raise he
  | some a => exact ret a

theorem checked {ε : Type} {embed : ε → ActionFabricError} {r : Except ε α}
    (h : ∀ e, ¬ (embed e).IsGate) : Ungated (check embed r : FabricM W α) := by
  cases r with
  | error e => exact raise (h e)
  | ok a => exact ret a

theorem error (h : Ungated x) {s t : Session W} (hx : exec x s = (.error e, t)) : ¬ e.IsGate := by
  have hs := h.exec_of (s := s) trivial
  rw [hx] at hs
  exact hs

end Ungated

section Attempt

variable {p : ActionPlanId} {i : ℕ} {a : PlannedAction} {d : CapabilityDescriptor}

theorem ungated_plan : Ungated (W := W) (plan p) :=
  .read_bind fun s => .option s.plans[p.val]? id

theorem ungated_planMut (f : ActionPlanState → ActionPlanState) : Ungated (W := W) (planMut p f) :=
  ungated_plan.bind fun _ => .bind (.write _) fun _ => .ret _

theorem ungated_setPlanStatus (status : ActionPlanStatus) :
    Ungated (W := W) (setPlanStatus p status) :=
  (ungated_planMut _).bind fun _ => .ret _

theorem ungated_actionMut (f : PlannedAction → PlannedAction) :
    Ungated (W := W) (actionMut p i f) :=
  ungated_plan.bind fun _ => .bind (.option _ id) fun _ => .bind (.write _) fun _ => .ret _

theorem ungated_adapter (capability : CapabilityId) : Ungated (W := W) (adapter capability) :=
  .read_bind fun s => .option s.fabric.adapters[capability.val]? id

theorem ungated_outside {α : Type} (call : W → α × W) (event : α → Event) :
    Ungated (outside call event) :=
  .read_bind fun _ => .bind (.write _) fun _ => .ret _

theorem ungated_rollbackCurrent (token : Option Bytes) :
    Ungated (W := W) (rollbackCurrentIfPossible p i a d token) := by
  unfold rollbackCurrentIfPossible
  split
  · exact .ret _
  · cases token with
    | none => exact .ret _
    | some token =>
      exact (ungated_adapter _).bind fun _ => (ungated_outside _ _).bind fun _ =>
        .bind (.checked fun _ => id) fun _ => (ungated_actionMut _).bind fun _ => .ret _

theorem ungated_verification (output : ActionOutput) (v : ActionVerifier W) :
    Ungated (verification p i a d output v) := by
  unfold verification
  split
  · exact ungated_outside _ _
  · exact .ret _

theorem ungated_failContract (message : String) : Ungated (W := W) (failContract p i a message) :=
  (ungated_actionMut _).bind fun _ => (ungated_setPlanStatus _).bind fun _ => .raise id

theorem ungated_applyCompleted (output : ActionOutput) (token : Option Bytes)
    (v : ActionVerifier W) : Ungated (applyCompleted p i a d output token v) := by
  refine (ungated_verification output v).bind fun verdict => ?_
  cases verdict with
  | accept =>
    refine (ungated_actionMut _).bind fun _ => .bind (.write _) fun _ => ?_
    exact .bind ((ungated_planMut _).bind fun _ => .ret _) fun _ => .ret _
  | retry reason =>
    exact (ungated_actionMut _).bind fun _ => (ungated_setPlanStatus _).bind fun _ => .ret _
  | reject reason =>
    refine (ungated_rollbackCurrent token).bind fun _ => (ungated_actionMut _).bind fun _ => ?_
    exact (ungated_setPlanStatus _).bind fun _ => .ret _

theorem ungated_applyAdapterResult (result : AdapterResult) (v : ActionVerifier W) :
    Ungated (applyAdapterResult p i a d result v) := by
  unfold applyAdapterResult
  cases result with
  | completed output token => exact ungated_applyCompleted output token v
  | suspended token note =>
    dsimp only
    split
    · exact ungated_failContract _
    · exact (ungated_actionMut _).bind fun _ => (ungated_setPlanStatus _).bind fun _ => .ret _
  | retryable reason token =>
    dsimp only
    split
    · exact ungated_failContract _
    · exact (ungated_actionMut _).bind fun _ => (ungated_setPlanStatus _).bind fun _ => .ret _

/-- **Behind the gates an attempt has errors of its own only.** -/
theorem ungated_attemptAction (g : AuthorityGrant) (v : ActionVerifier W) :
    Ungated (attemptAction p i a d g v) := by
  refine (ungated_actionMut _).bind fun _ => (ungated_setPlanStatus _).bind fun _ => ?_
  refine (ungated_adapter _).bind fun ad => (ungated_outside _ _).bind fun answer => ?_
  cases answer with
  | error reason =>
    exact (ungated_actionMut _).bind fun _ => (ungated_setPlanStatus _).bind fun _ => .ret _
  | ok result => exact ungated_applyAdapterResult result v

end Attempt

/-! ## Cleared plans -/

/-- **A cleared plan**: the registry admits each of its actions, and the grant permits what it is
admitted as.  No later plan takes its id. -/
structure Cleared (registry : CapabilityRegistry) (g : AuthorityGrant) (p : ActionPlanId)
    (s : Session W) : Prop where
  registry_eq : s.fabric.registry = registry
  below : p.val.toNat < s.fabric.state.nextPlanId.toNat
  actions : ∀ pl, s.plans[p.val]? = some pl → ∀ (i : ℕ) a, pl.actions[i]? = some a →
    ∃ d, registry.validateAction a.capability a.action = .ok d ∧ g.permits d = .ok ()

/-- The plan holds the same actions, as far as they are fixed. -/
def SameActions (pl pl' : ActionPlanState) : Prop :=
  ∀ (i : ℕ) a', pl'.actions[i]? = some a' → ∃ a, pl.actions[i]? = some a ∧ a.Same a'

section Calls

variable {registry : CapabilityRegistry} {g : AuthorityGrant} {v : ActionVerifier W}
  {p q : ActionPlanId} {s s' : Session W} {pl pl' : ActionPlanState} {a : PlannedAction}
  {d : CapabilityDescriptor}

theorem SameActions.refl (pl : ActionPlanState) : SameActions pl pl := fun _ a ha => ⟨a, ha, .refl a⟩

/-- An attempt leaves the actions the same. -/
theorem Shape.sameActions (h : Shape d pl a pl') (hat : pl.actions[pl.cursor]? = some a) :
    SameActions pl pl' := by
  have hset : ∀ {a' : PlannedAction}, a.Same a' → ∀ (i : ℕ) x,
      (pl.actions.set pl.cursor a')[i]? = some x → ∃ y, pl.actions[i]? = some y ∧ y.Same x := by
    intro a' hsame i x hx
    rcases getElem?_set_cases hx with ⟨rfl, rfl⟩ | ⟨-, hx⟩
    · exact ⟨a, hat, hsame⟩
    · exact ⟨x, hx, .refl x⟩
  cases h with
  | put rework => exact hset rework.same
  | commit rework => exact hset rework.same

/-- Undoing actions leaves them the same. -/
theorem sameActions_undo (l : List (PlannedAction × ℕ)) : SameActions pl (pl.undo l) := by
  intro i x hx
  obtain ⟨a, ha, ⟨-, rfl⟩ | ⟨-, rfl⟩⟩ := getElem?_undo_cases hx
  · exact ⟨a, ha, rfl, rfl, rfl, rfl, rfl, rfl⟩
  · exact ⟨x, ha, .refl x⟩

/-- Replacing a plan by one with the same actions keeps every plan cleared. -/
theorem Cleared.moved (h : Cleared registry g p s) (hstored : s.plans[q.val]? = some pl)
    (hsame : SameActions pl pl') (w : W) (events : List Event) :
    Cleared registry g p (s.moved q.val pl' w events) := by
  refine ⟨h.registry_eq, h.below, fun plan hplan i x hx => ?_⟩
  rcases getElem?_moved_cases hplan with ⟨rfl, rfl⟩ | ⟨-, hplan⟩
  · obtain ⟨a, ha, hax⟩ := hsame i x hx
    rw [hax.capability, hax.action]
    exact h.actions pl hstored i a ha
  · exact h.actions plan hplan i x hx

theorem Execution.cleared {g' : AuthorityGrant} (h : Execution s q g' v s')
    (hc : Cleared registry g p s) : Cleared registry g p s' := by
  cases h with
  | idle => exact hc
  | exhausted pl hstored =>
    have hsame : SameActions pl { pl with status := .completed } := SameActions.refl pl
    exact hc.moved hstored hsame _ _
  | stalled pl a d hauth =>
    have hshape : Shape d pl a (pl.put pl.cursor a.started .ready) :=
      .put reworked_started nofun (.inr (.inr rfl))
    exact hc.moved hauth.stored (hshape.sameActions hauth.at_cursor) _ _
  | attempted pl a d hauth ad had w events pl' hend =>
    exact hc.moved hauth.stored (hend.shape.sameActions hauth.at_cursor) _ _

theorem Rollback.cleared {ok : Bool} (h : Rollback s q ok s') (hc : Cleared registry g p s) :
    Cleared registry g p s' := by
  cases h with
  | missing => exact hc
  | complete pl hstored =>
    have hsame : SameActions pl { pl.undo pl.pendings with status := .rolledBack } :=
      sameActions_undo pl.pendings
    exact hc.moved hstored hsame _ _
  | halted pl hstored done => exact hc.moved hstored (sameActions_undo done) _ _

/-- **Every call keeps a plan cleared.** -/
theorem Step.cleared {op : Op W} (h : Step s op s') (hc : Cleared registry g p s) :
    Cleared registry g p s' := by
  cases h with
  | registered => exact ⟨hc.registry_eq, hc.below, hc.actions⟩
  | executed h => exact h.cleared hc
  | rolledBack h => exact h.cleared hc
  | prepared h =>
    cases h with
    | refused => exact hc
    | prepared pl nextPlanId nextActionId h =>
      have hfresh := newPlan_fresh h
      refine ⟨hc.registry_eq, ?_, fun plan hplan => ?_⟩
      · change p.val.toNat < nextPlanId.toNat
        rw [hfresh.nextPlan]
        exact Nat.lt_succ_of_lt hc.below
      · rcases FreshPlan.getElem?_insert_cases hplan with ⟨hid, -⟩ | hplan
        · -- the new plan has the next id, the cleared one a smaller
          have hlt := hc.below
          rw [← hid, hfresh.id] at hlt
          exact absurd hlt (lt_irrefl _)
        · exact hc.actions plan hplan

/-- **A run keeps a plan cleared.** -/
theorem Cleared.run (h : Cleared registry g p s) (ops : List (Op W)) :
    Cleared registry g p (run Session.step s ops) :=
  invariant_run (fun s op hs => (step_spec s op).cleared hs) ops h

/-- **No gate stops a cleared plan.** -/
theorem Cleared.executeNext_ungated (h : Cleared registry g p s) {e : ActionFabricError}
    (he : (exec (executeNext p g v) s).1 = .error e) : ¬ e.IsGate := by
  have hrefused : ∀ {e' : ActionFabricError}, ¬ e'.IsGate →
      exec (executeNext p g v) s = (.error e', s) → ¬ e.IsGate := by
    intro e' hquiet hexec
    rw [hexec] at he
    exact Except.error.inj he ▸ hquiet
  unfold executeNext at he hrefused
  cases hstored : s.plans[p.val]? with
  | none => exact hrefused id (exec_plan_bind_none hstored _)
  | some pl =>
    rw [exec_plan_bind hstored] at he hrefused
    by_cases hlive : pl.status.isTerminal = true
    · exact hrefused id (exec_refuse_of_pos hlive _ _ _)
    rw [exec_refuse_of_neg hlive] at he hrefused
    cases hcur : pl.actions[pl.cursor]? with
    | none =>
      rw [hcur] at he
      exact ((ungated_setPlanStatus .completed).bind fun _ => .ret _).error (Prod.ext he rfl)
    | some a =>
      obtain ⟨d, hd, hpermits⟩ := h.actions pl hstored _ a hcur
      rw [hcur] at he hrefused
      dsimp only at he hrefused
      rw [exec_get_bind, h.registry_eq, hd, exec_check_ok_bind, hpermits, exec_check_ok_bind]
        at he hrefused
      by_cases hresume : a.resumption.isSome = true ∧ ¬ d.resumable = true
      · exact hrefused id (exec_refuse_of_pos hresume _ _ _)
      rw [exec_refuse_of_neg hresume] at he hrefused
      by_cases hsettled : a.status.isSettled = true
      · exact hrefused id (exec_refuse_of_pos hsettled _ _ _)
      rw [exec_refuse_of_neg hsettled] at he
      exact (ungated_attemptAction g v).error (Prod.ext he rfl)

end Calls

/-! ## Preparing a plan -/

section Preparing

variable {registry : CapabilityRegistry} {state : ActionFabricState} {graph : TaskGraph}
  {taskId : UInt64}

/-- **The registry admits a node** with its payload. -/
def NodeAdmitted (registry : CapabilityRegistry) (payloads : BTreeMap UInt32 TypedAction)
    (node : ActionNode) : Prop :=
  ∃ action d, payloads[node.id]? = some action ∧
    registry.validateAction node.capability action = .ok d ∧ node.sideEffect = d.sideEffect ∧
    (d.verificationRequired = true → node.verificationRequired = true)

/-- Nodes with ids of their own, each admitted, are validated; every payload taken is gone. -/
theorem validateNodes_eq_ok : ∀ {nodes : List ActionNode} {seen : Std.ExtTreeSet UInt32}
    {payloads : BTreeMap UInt32 TypedAction}, (nodes.map (·.id)).Nodup →
    (∀ node ∈ nodes, node.id ∉ seen) → (∀ node ∈ nodes, NodeAdmitted registry payloads node) →
    ∃ validated left, validateNodes registry nodes seen payloads = .ok (validated, left) ∧
      validated.length = nodes.length ∧
      ∀ k a, left[k]? = some a → payloads[k]? = some a ∧ k ∉ nodes.map (·.id)
  | [], _, payloads, _, _, _ => ⟨[], payloads, rfl, rfl, fun _ _ h => ⟨h, by simp⟩⟩
  | node :: nodes, seen, payloads, hids, hseen, hnodes => by
      obtain ⟨hid, hids⟩ := List.nodup_cons.1 hids
      obtain ⟨hhead, hnodes⟩ := List.forall_mem_cons.1 hnodes
      obtain ⟨hfree, hseen⟩ := List.forall_mem_cons.1 hseen
      obtain ⟨action, d, haction, hd, hside, hverif⟩ := hhead
      have hne : ∀ other ∈ nodes, other.id ≠ node.id :=
        fun other ho heq => hid (List.mem_map.2 ⟨other, ho, heq⟩)
      have hunseen : ∀ other ∈ nodes, other.id ∉ seen.insert node.id := by
        intro other ho
        rw [Std.ExtTreeSet.mem_insert, Std.compare_eq_iff_eq]
        exact fun h => h.elim (fun heq => hne other ho heq.symm) (hseen other ho)
      have hothers : ∀ other ∈ nodes, NodeAdmitted registry (payloads.erase node.id) other := by
        intro other ho
        obtain ⟨act, d', hact, hrest⟩ := hnodes other ho
        exact ⟨act, d', SortedMap.getElem?_erase_eq_some.2 ⟨hne other ho, hact⟩, hrest⟩
      obtain ⟨validated, left, hrest, hlength, hleft⟩ := validateNodes_eq_ok hids hunseen hothers
      refine ⟨(node, action, d.version, node.verificationRequired || d.verificationRequired) ::
        validated, left, ?_, congrArg (· + 1) hlength, fun k a hk => ?_⟩
      · have hcontract : ¬ (d.verificationRequired = true ∧ ¬ node.verificationRequired = true) :=
          fun h => h.2 (hverif h.1)
        have hmissing : ¬ seen.contains node.id = true := hfree
        simp only [validateNodes, bind_eq_ok, exists_unit, refuse_eq_ok, okOr_eq_ok, mapError_eq_ok,
          pure_eq_ok, Prod.exists]
        exact ⟨hmissing, action, haction, d, hd, not_not.2 hside, hcontract, validated, left, hrest,
          rfl⟩
      · obtain ⟨hk, hout⟩ := hleft k a hk
        obtain ⟨hkne, hk⟩ := SortedMap.getElem?_erase_eq_some.1 hk
        refine ⟨hk, ?_⟩
        rw [List.map_cons, List.mem_cons, not_or]
        exact ⟨hkne, hout⟩

/-- A loop whose rounds all succeed succeeds. -/
theorem exists_mapM_ok {ε α β : Type} {f : α → Except ε β} :
    ∀ {l : List α}, (∀ a ∈ l, ∃ b, f a = .ok b) → ∃ r, l.mapM f = .ok r
  | [], _ => ⟨[], List.mapM_nil⟩
  | a :: l, h => by
      obtain ⟨⟨b, hb⟩, hl⟩ := List.forall_mem_cons.1 h
      obtain ⟨r, hr⟩ := exists_mapM_ok hl
      refine ⟨b :: r, ?_⟩
      rw [List.mapM_cons]
      exact bind_eq_ok.2 ⟨b, hb, bind_eq_ok.2 ⟨r, hr, rfl⟩⟩

/-- **A plan of admitted nodes is prepared**, while there are ids for it. -/
theorem exists_newPlan (htask : taskId ≠ 0) (hnodes : graph.actions ≠ [])
    (hids : (graph.actions.map (·.id)).Nodup) {payloads : BTreeMap UInt32 TypedAction}
    (hadmitted : ∀ node ∈ graph.actions, NodeAdmitted registry payloads node)
    (hpayloads : ∀ k a, payloads[k]? = some a → k ∈ graph.actions.map (·.id))
    (hplan : state.nextPlanId.toNat + 1 < 2 ^ 64)
    (haction : state.nextActionId.toNat + graph.actions.length < 2 ^ 64) :
    ∃ r, newPlan registry state taskId graph payloads = .ok r := by
  have hunseen : ∀ node ∈ graph.actions, node.id ∉ (∅ : Std.ExtTreeSet UInt32) :=
    fun _ _ => Std.ExtTreeSet.not_mem_empty
  obtain ⟨validated, left, hvalidated, hlength, hleft⟩ :=
    validateNodes_eq_ok hids hunseen hadmitted
  have hempty : left = ∅ := by
    refine Std.ExtTreeMap.ext_getElem? fun k => ?_
    rw [Std.ExtTreeMap.getElem?_empty]
    cases hk : left[k]? with
    | none => rfl
    | some a =>
      obtain ⟨hpayload, hout⟩ := hleft k a hk
      exact absurd (hpayloads k a hpayload) hout
  have hkeys : left.keys.head? = none := by
    rw [Std.ExtTreeMap.keys_eq_nil_iff.2 hempty, List.head?_nil]
  have hcount : validated.length < 2 ^ 64 := by omega
  have hadd : ∀ (a : UInt64) (n : ℕ), n < 2 ^ 64 → a.toNat + n < 2 ^ 64 →
      ∃ c, checkedAdd64 a (UInt64.ofNat n) = some c := by
    intro a n hn hsum
    refine Option.ne_none_iff_exists'.1 fun hnone => ?_
    rw [checkedAdd64_eq_none, UInt64.toNat_ofNat_of_lt' hn] at hnone
    omega
  obtain ⟨nextPlanId, hnextPlan⟩ := hadd state.nextPlanId 1 (by decide) hplan
  obtain ⟨nextActionId, hnextAction⟩ := hadd state.nextActionId validated.length hcount (by omega)
  obtain ⟨actions, hactions⟩ : ∃ actions,
      validated.zipIdx.mapM (plannedAction state.nextActionId) = .ok actions := by
    refine exists_mapM_ok fun e he => ?_
    obtain ⟨node, offset⟩ := e
    have hoffset : offset < validated.length := (List.mem_zipIdx' he).1
    obtain ⟨id, hid⟩ := hadd state.nextActionId offset (by omega) (by omega)
    have hlt : ¬ ¬ offset < 2 ^ 64 := not_not.2 (by omega)
    refine ⟨_, bind_eq_ok.2 ⟨(), refuse_eq_ok.2 hlt, bind_eq_ok.2 ⟨id, okOr_eq_ok.2 hid, rfl⟩⟩⟩
  let pl : ActionPlanState :=
    { id := ⟨state.nextPlanId⟩, taskId, cursor := 0, status := .ready, actions }
  refine ⟨(pl, nextPlanId, nextActionId), ?_⟩
  rw [newPlan]
  simp only [bind_eq_ok, exists_unit, refuse_eq_ok, Prod.exists]
  refine ⟨fun h => h.elim htask hnodes, validated, left, hvalidated, ?_⟩
  rw [hkeys]
  simp only [bind_eq_ok, exists_unit, refuse_eq_ok, okOr_eq_ok, pure_eq_ok]
  exact ⟨nextPlanId, hnextPlan, not_not.2 hcount, nextActionId, hnextAction, actions, hactions, rfl⟩

/-- **A plan is cleared once it is prepared**, if the grant permits all that is registered. -/
theorem exec_preparePlan_cleared {g : AuthorityGrant} {s : Session W}
    {payloads : BTreeMap UInt32 TypedAction} {pl : ActionPlanState}
    {nextPlanId nextActionId : UInt64}
    (h : newPlan s.fabric.registry s.fabric.state taskId graph payloads =
      .ok (pl, nextPlanId, nextActionId))
    (hgrant : ∀ id d, s.fabric.registry.descriptor id = .ok d → g.permits d = .ok ()) :
    ∃ s', exec (preparePlan taskId graph payloads) s = (.ok pl.id, s') ∧
      Cleared s.fabric.registry g pl.id s' := by
  have hfresh := newPlan_fresh h
  let s' : Session W := { s with
    fabric.state.nextPlanId := nextPlanId
    fabric.state.nextActionId := nextActionId
    fabric.state.plans := s.plans.insert pl.id.val pl }
  refine ⟨s', ?_, rfl, ?_, ?_⟩
  · rw [preparePlan, exec_get_bind]
    dsimp only
    rw [h, exec_check_ok_bind]
    dsimp only
    rw [exec_modify_bind, exec_pure]
  · change pl.id.val.toNat < nextPlanId.toNat
    rw [hfresh.id, hfresh.nextPlan]
    exact Nat.lt_succ_self _
  · intro plan hplan i a ha
    have hsame : plan = pl := by
      have hself : (s.plans.insert pl.id.val pl)[pl.id.val]? = some pl :=
        Std.ExtTreeMap.getElem?_insert_self
      exact Option.some.inj (hplan.symm.trans hself)
    obtain ⟨-, -, -, d, hd, -⟩ := hfresh.actions i a (hsame ▸ ha)
    exact ⟨d, hd, hgrant _ d (CapabilityRegistry.validateAction_eq_ok.1 hd).2.1⟩

end Preparing

end NTD97
