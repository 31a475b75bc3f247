import Mathlib
import NTD97.ActionFabric.Invariant
import NTD97.ActionFabric.Secrecy
import NTD97.AndroidActions.Permits
import NTD97.AndroidActions.Sparing

/-!
# AndroidActions/Executions — what the calls of a plan do, one after the other

    prepare ▸ call ▸ call ▸ …

A session that executes a plan has the registry and the adapters of the plan, and its actions are
those that were parsed.  So the adapter that a step calls is known, and so is what it leaves behind:
what the file and download adapters complete is trusted, and never undone.  As long as the calls
spare the identities, these stay as they are, and two sessions in worlds that differ only in the
seeds stay beside each other.
-/

namespace NTD97

open Guard Effect Secrecy Text Wire Files

variable {N : Type} {debug : CapabilityError → String} {debugFabric : ActionFabricError → String}
  {env : AndroidEnv N} {actionPlan : ParsedActionPlan} {s s' : Session (AppWorld N)}
  {p : ActionPlanId} {g : AuthorityGrant} {pl pl' : ActionPlanState} {a : PlannedAction}
  {d : CapabilityDescriptor} {w w' : AppWorld N} {events : List Event}

/-! ## The fabric of a plan -/

/-- **A session that executes a plan**, with its registry and its adapters. -/
structure Bridged (debug : CapabilityError → String) (env : AndroidEnv N)
    (actionPlan : ParsedActionPlan) (s : Session (AppWorld N)) : Prop where
  registry : androidRegistry debug actionPlan = .ok s.fabric.registry
  adapters : ∀ k : String, s.fabric.adapters[k]? = if k ∈ planCapabilities actionPlan then
    some (androidAdapter env.host env.adapters k) else none
  planned : ∀ (k : UInt64) (pl : ActionPlanState), s.plans[k]? = some pl → ∀ a ∈ pl.actions,
    FitsCapability a.capability.val a.action ∧ ∃ node ∈ actionPlan.graph.actions,
      node.capability = a.capability ∧ actionPlan.payloads[node.id]? = some a.action

/-- What is assumed of the adapters of other capabilities. -/
def OthersDiscreet (env : AndroidEnv N) (actionPlan : ParsedActionPlan) : Prop :=
  ∀ capability ∈ planCapabilities actionPlan, capability ∉ appPrivateCapabilities →
    Discreet (env.adapters capability)

/-- Nothing but the fabric matters. -/
theorem Bridged.of_fabric_eq (h : Bridged debug env actionPlan s) (heq : s'.fabric = s.fabric) :
    Bridged debug env actionPlan s' := by
  refine ⟨heq ▸ h.registry, fun k => heq ▸ h.adapters k, fun k pl hpl => h.planned k pl ?_⟩
  rw [Session.plans, ← heq]
  exact hpl

/-- One plan is replaced by another with the same actions. -/
theorem Bridged.moved (h : Bridged debug env actionPlan s) (hstored : s.plans[p.val]? = some pl)
    (hactions : ∀ x ∈ pl'.actions, ∃ y ∈ pl.actions, y.Same x) :
    Bridged debug env actionPlan (s.moved p.val pl' w events) := by
  refine ⟨h.registry, h.adapters, fun k other hother x hx => ?_⟩
  rw [getElem?_moved] at hother
  split at hother
  · obtain rfl := Option.some.inj hother
    obtain ⟨y, hy, hsame⟩ := hactions x hx
    rw [hsame.capability, hsame.action]
    exact h.planned p.val pl hstored y hy
  · exact h.planned k other hother x hx

theorem exists_same_of_mem_set {i : ℕ} {a' : PlannedAction} (hcur : pl.actions[i]? = some a)
    (hsame : a.Same a') : ∀ x ∈ pl.actions.set i a', ∃ y ∈ pl.actions, y.Same x := by
  intro x hx
  rcases List.mem_or_eq_of_mem_set hx with hmem | rfl
  · exact ⟨x, hmem, rfl, rfl, rfl, rfl, rfl, rfl⟩
  · exact ⟨a, List.mem_of_getElem? hcur, hsame⟩

/-- **A step leaves a session that executes the plan.** -/
theorem Bridged.execution {v : ActionVerifier (AppWorld N)} (h : Bridged debug env actionPlan s)
    (he : Execution s p g v s') : Bridged debug env actionPlan s' := by
  cases he with
  | idle => exact h
  | exhausted pl hstored hlive hcur =>
    exact h.moved hstored fun x hx => ⟨x, hx, rfl, rfl, rfl, rfl, rfl, rfl⟩
  | stalled pl a d hauth hno =>
    exact h.moved hauth.stored (exists_same_of_mem_set hauth.at_cursor ⟨rfl, rfl, rfl, rfl, rfl, rfl⟩)
  | attempted pl a d hauth ad had w events pl' hend =>
    refine h.moved hauth.stored ?_
    cases hend.shape with
    | put hrework => exact exists_same_of_mem_set hauth.at_cursor hrework.same
    | commit hrework => exact exists_same_of_mem_set hauth.at_cursor hrework.same

/-- The adapter of the action under the cursor is there. -/
theorem Bridged.found (h : Bridged debug env actionPlan s) (hauth : Authorized s p g pl a d) :
    s.fabric.adapters[a.capability.val]? =
        some (androidAdapter env.host env.adapters a.capability.val) ∧
      a.capability.val ∈ planCapabilities actionPlan ∧ FitsCapability a.capability.val a.action ∧
        d.id.val = a.capability.val := by
  obtain ⟨hfits, node, hnode, hcapability, -⟩ :=
    h.planned _ _ hauth.stored a (List.mem_of_getElem? hauth.at_cursor)
  have hmem := mem_planCapabilities.2 ⟨node, hnode, congrArg CapabilityId.val hcapability⟩
  refine ⟨by rw [h.adapters, if_pos hmem], hmem, hfits, ?_⟩
  have hd := (CapabilityRegistry.validateAction_eq_ok.1 hauth.validated).2.1
  unfold CapabilityRegistry.descriptor at hd
  cases hfound : s.fabric.registry.descriptors[a.capability.val]? with
  | none =>
    rw [hfound] at hd
    exact nomatch hd
  | some found =>
    rw [hfound] at hd
    cases hd
    exact (s.fabric.registry.keyed _ _ hfound).1

section Resumable

variable {plan : ParsedActionPlan} {capability : String} {registry self next : CapabilityRegistry}

/-- A normal form is that of a descriptor with the same promises. -/
theorem normalize_keeps {d' : CapabilityDescriptor} (h : d.normalize = .ok d') :
    d'.id.val = trim d.id.val ∧ d'.resumable = d.resumable := by
  simp only [CapabilityDescriptor.normalize, bind_eq_ok, exists_unit, refuse_eq_ok, pure_eq_ok] at h
  obtain ⟨-, -, scopes, -, -, rfl⟩ := h
  exact ⟨rfl, rfl⟩

/-- A descriptor says of its capability what the table does. -/
theorem androidDescriptor_resumable (h : androidDescriptor debug plan capability = .ok d) :
    ∃ entry, androidCapability capability = some entry ∧ d.id.val = trim capability ∧
      d.resumable = entry.2.2.2.1 := by
  simp only [androidDescriptor, bind_eq_ok, okOr_eq_ok] at h
  obtain ⟨entry, hentry, h⟩ := h
  refine ⟨entry, hentry, ?_⟩
  clear hentry
  obtain ⟨domain, sideEffect, rollbackSupported, resumable, scopes⟩ := entry
  dsimp only at h
  -- the scopes of an app action come from the plan, and make no difference here
  obtain ⟨required, plain, hplain, hnormal⟩ : ∃ required plain,
      CapabilityDescriptor.new ⟨capability⟩ 1 domain sideEffect = .ok plain ∧
        { plain with
          rollbackSupported, resumable, requiredScopes := required }.normalize = .ok d := by
    split at h <;> simp only [bind_eq_ok, mapError_eq_ok] at h
    all_goals
      obtain ⟨texts, -, required, -, plain, hplain, hnormal⟩ := h
      exact ⟨required, plain, hplain, hnormal⟩
  simp only [CapabilityDescriptor.new, bind_eq_ok, exists_unit, refuse_eq_ok, pure_eq_ok] at hplain
  obtain ⟨-, -, hplain⟩ := hplain
  obtain ⟨hid, hresumable⟩ := normalize_keeps hnormal
  refine ⟨hid.trans ?_, hresumable⟩
  rw [← hplain]

/-- What is registered is the normal form. -/
theorem register_eq_ok (h : self.register d = .ok next) :
    ∃ d', d.normalize = .ok d' ∧ next.descriptors = self.descriptors.insert d'.id.val d' := by
  unfold CapabilityRegistry.register at h
  split at h
  · cases h
  · next d' hnormal =>
    split at h
    · cases h
    · cases h
      exact ⟨d', hnormal, rfl⟩

/-- Downloads can be resumed, whatever is registered before and after them. -/
theorem foldlM_register_resumable : ∀ {capabilities : List String} {self : CapabilityRegistry},
    capabilities.foldlM (fun (registry : CapabilityRegistry) c => do
      let descriptor ← androidDescriptor debug plan c
      (registry.register descriptor).mapError fun e => "register Android capability: " ++ debug e)
        self = .ok registry →
    (∀ d, self.descriptors["artifact.download"]? = some d → d.resumable = true) →
      ∀ d, registry.descriptors["artifact.download"]? = some d → d.resumable = true
  | [], self, h, hself => by
      cases h
      exact hself
  | c :: capabilities, self, h, hself => by
      rw [List.foldlM_cons] at h
      simp only [bind_eq_ok, mapError_eq_ok] at h
      obtain ⟨next, ⟨d, hd, hnext⟩, hrest⟩ := h
      refine foldlM_register_resumable hrest fun x hx => ?_
      obtain ⟨d', hnormal, hdescriptors⟩ := register_eq_ok hnext
      rw [hdescriptors, SortedMap.getElem?_insert_eq_some] at hx
      rcases hx with ⟨hid, rfl⟩ | ⟨-, hx⟩
      · obtain ⟨entry, hentry, htrim, hresumable⟩ := androidDescriptor_resumable hd
        obtain ⟨hid', hresumable'⟩ := normalize_keeps hnormal
        have hfit := (androidCapability_fit hentry).1.1
        have hc : c = "artifact.download" := by
          rw [hid', htrim, hfit, hfit] at hid
          exact hid.symm
        subst hc
        cases hentry
        exact hresumable'.trans hresumable
      · exact hself x hx

/-- **A download can be resumed.** -/
theorem Bridged.resumable (h : Bridged debug env actionPlan s) (hauth : Authorized s p g pl a d)
    (hc : a.capability.val = "artifact.download") : d.resumable = true := by
  have hregistry := h.registry
  simp only [androidRegistry, bind_eq_ok, exists_unit, refuse_eq_ok] at hregistry
  refine foldlM_register_resumable hregistry.2 (fun d hd => absurd hd ?_) d ?_
  · simp [CapabilityRegistry.new]
  · have hd := (CapabilityRegistry.validateAction_eq_ok.1 hauth.validated).2.1
    unfold CapabilityRegistry.descriptor at hd
    rw [hc] at hd
    split at hd
    · next found hfound =>
      cases hd
      exact hfound
    · cases hd

end Resumable

/-! ## A step -/

/-- The next call of a plan. -/
def callNext (env : AndroidEnv N) (p : ActionPlanId) (g : AuthorityGrant)
    (s : Session (AppWorld N)) : Session (AppWorld N) :=
  (exec (executeNext p g (androidProductionVerifier env.trusted)) s).2

/-- **The call that the plan makes next spares the identities.** -/
def SparesStep (env : AndroidEnv N) (p : ActionPlanId) (g : AuthorityGrant)
    (s : Session (AppWorld N)) : Prop :=
  ∀ pl a d, Authorized s p g pl a d → SparesCall env.host s.world a

/-- The verifier leaves the world alone. -/
theorem verified_world {trusted : CapabilityDescriptor → TypedAction → ActionOutput → Bool}
    {action : TypedAction} {output : ActionOutput} {verdict : ActionVerification}
    (h : (androidProductionVerifier trusted).verify d action output w = (verdict, w')) : w' = w :=
  (congrArg Prod.snd h).symm

/-- What is trusted is not undone, so the world stays as the call left it. -/
theorem Ending.world_eq {ad : CapabilityAdapter (AppWorld N)} {answer : Except String AdapterResult}
    (h : Ending ad (androidProductionVerifier env.trusted) p d pl a w answer w' events pl')
    (htrusted : ∀ output token, answer = .ok (.completed output token) →
      trustedEvidence env.trusted d a.action output = true ∧ isBlank output.summary = false) :
    w' = w := by
  have haccepts {output : ActionOutput} {token : Option Bytes} {reason : String}
      {v : AppWorld N} (hanswer : answer = .ok (.completed output token))
      (hv : (androidProductionVerifier env.trusted).verify d a.action output w =
        (.reject reason, v)) : False := by
    obtain ⟨htrust, hblank⟩ := htrusted output token hanswer
    have hverdict := congrArg Prod.fst hv
    simp [androidProductionVerifier, htrust, hblank] at hverdict
  cases h with
  | error | breach | suspended | retryable | unverified => rfl
  | accepted output token v hver hv => exact verified_world hv
  | retried output token reason v hver hv => exact verified_world hv
  | rejected output token reason v hver hv hno => exact verified_world hv
  | undone output token reason v v' hver hv hd hr => exact (haccepts rfl hv).elim
  | stuck output token reason failure v v' hver hv hd hr => exact (haccepts rfl hv).elim

/-- An attempt with a discreet adapter changes no identity, even if it is undone. -/
theorem Ending.identities_eq {ad : CapabilityAdapter (AppWorld N)} (had : Discreet ad)
    {answer : Except String AdapterResult}
    (h : Ending ad (androidProductionVerifier env.trusted) p d pl a w answer w' events pl') :
    identities w' = identities w := by
  cases h with
  | error | breach | suspended | retryable | unverified => rfl
  | accepted output token v hver hv => rw [verified_world hv]
  | retried output token reason v hver hv => rw [verified_world hv]
  | rejected output token reason v hver hv hno => rw [verified_world hv]
  | undone output token reason v v' hver hv hd hr =>
    have hrolled := (had.rollback a.id a.action token).unchanged v
    rw [hr] at hrolled
    rw [hrolled, verified_world hv]
  | stuck output token reason failure v v' hver hv hd hr =>
    have hrolled := (had.rollback a.id a.action token).unchanged v
    rw [hr] at hrolled
    rw [hrolled, verified_world hv]

/-- **What the next call does**, if there is one: the adapter is called, and the attempt ends as it
answers. -/
theorem Bridged.callNext_eq (h : Bridged debug env actionPlan s) (hauth : Authorized s p g pl a d) :
    ∃ w events pl',
      Ending (androidAdapter env.host env.adapters a.capability.val)
        (androidProductionVerifier env.trusted) p d pl a
        ((androidAdapter env.host env.adapters a.capability.val).attempt a s.world).2
        ((androidAdapter env.host env.adapters a.capability.val).attempt a s.world).1 w events pl' ∧
      callNext env p g s = s.moved p.val pl' w (.called p pl.cursor a a.resumption g
        ((androidAdapter env.host env.adapters a.capability.val).attempt a s.world).1 :: events) := by
  obtain ⟨w, events, pl', hend, hexec⟩ := attemptAction_attempted
    (v := androidProductionVerifier env.trusted) hauth (h.found hauth).1
  refine ⟨w, events, pl', hend, ?_⟩
  rw [callNext, exec_executeNext_of_authorized hauth, hexec]

/-- A call of a file or download adapter leaves the world that it answers with. -/
theorem Bridged.world_callNext (h : Bridged debug env actionPlan s)
    (hauth : Authorized s p g pl a d) (hown : a.capability.val ∈ appPrivateCapabilities) :
    (callNext env p g s).world =
      ((androidAdapter env.host env.adapters a.capability.val).attempt a s.world).2 := by
  obtain ⟨w, events, pl', hend, hexec⟩ := h.callNext_eq hauth
  obtain ⟨-, -, hfits, hd⟩ := h.found hauth
  rw [hexec, moved_world]
  exact hend.world_eq fun output token hanswer => trusted_attempt env.trusted hd hfits hown hanswer

/-- **A step that spares the identities leaves them as they are.** -/
theorem Bridged.identities_callNext (h : Bridged debug env actionPlan s)
    (hothers : OthersDiscreet env actionPlan) (hspares : SparesStep env p g s) :
    identities (callNext env p g s).world = identities s.world := by
  have hstep : Execution s p g (androidProductionVerifier env.trusted) (callNext env p g s) :=
    executeNext_execution ..
  generalize callNext env p g s = t at hstep
  cases hstep with
  | idle | exhausted | stalled => rfl
  | attempted pl a d hauth ad had w events pl' hend =>
    obtain ⟨hfound, hmem, hfits, hd⟩ := h.found hauth
    obtain rfl := Option.some.inj (hfound.symm.trans had)
    have hcall := identities_attempt hfits (hspares pl a d hauth) (hothers _ hmem)
    rw [moved_world, ← hcall]
    by_cases hown : a.capability.val ∈ appPrivateCapabilities
    · rw [hend.world_eq fun output token hanswer =>
        trusted_attempt env.trusted hd hfits hown hanswer]
    · refine Ending.identities_eq ?_ hend
      rw [androidAdapter_other hown]
      exact hothers _ hmem hown

/-- **A step that spares the identities is taken alike** in worlds that differ in the seeds only. -/
theorem Bridged.agrees_executeNext (h : Bridged debug env actionPlan s)
    (hothers : OthersDiscreet env actionPlan) (hspares : SparesStep env p g s)
    (hbeside : Beside Twins s s') :
    Agrees (Beside Twins) (exec (executeNext p g (androidProductionVerifier env.trusted))) s s' := by
  refine hbeside.executeNext (fun _ _ _ _ _ hw => ⟨rfl, hw⟩) fun pl a d ad hauth had => ?_
  obtain ⟨hfound, hmem, hfits, -⟩ := h.found hauth
  obtain rfl := Option.some.inj (hfound.symm.trans had)
  exact agrees_attempt hfits (hspares pl a d hauth) (hothers _ hmem) hbeside.world

/-- Only the fabric decides what is attempted. -/
theorem Authorized.of_fabric_eq (h : Authorized s p g pl a d) (heq : s'.fabric = s.fabric) :
    Authorized s' p g pl a d := by
  refine ⟨?_, h.live, h.at_cursor, ?_, h.permitted, h.resumable, h.unsettled⟩
  · rw [Session.plans, heq]
    exact h.stored
  · rw [heq]
    exact h.validated

/-- Whether a step spares the identities does not depend on the seeds. -/
theorem SparesStep.of_beside (hspares : SparesStep env p g s) (hbeside : Beside Twins s s') :
    SparesStep env p g s' := fun pl a d hauth =>
  (hspares pl a d (hauth.of_fabric_eq hbeside.fabric)).of_twins hbeside.world

/-! ## Runs -/

/-- **A plan that was prepared** for execution without an approval, in the world `w`. -/
structure Prepared (debug : CapabilityError → String) (env : AndroidEnv N) (task : CognitiveTask)
    (actionPlan : ParsedActionPlan) (w : AppWorld N) (p : ActionPlanId) (g : AuthorityGrant)
    (s : Session (AppWorld N)) : Prop where
  authority : androidAuthority debug actionPlan false = .ok g
  prepared : ∃ fabric, androidFabric debug env actionPlan = .ok fabric ∧
    exec (preparePlan task.id actionPlan.graph actionPlan.payloads)
      { fabric, world := w, trace := [] } = (.ok p, s)

/-- The outputs of a plan's actions, as far as they have been executed. -/
def Session.outputs {W : Type} (s : Session W) (p : ActionPlanId) :
    Option (List (Option ActionOutput)) :=
  s.plans[p.val]?.map fun pl => pl.actions.map (·.output)

/-- **No call of the plan fails to spare the identities**, however far it is executed. -/
def SparesIdentities (debug : CapabilityError → String) (env : AndroidEnv N)
    (actionPlan : ParsedActionPlan) (w : AppWorld N) : Prop :=
  ∀ task p g s, Prepared debug env task actionPlan w p g s →
    ∀ n, SparesStep env p g ((callNext env p g)^[n] s)

section Runs

variable {task : CognitiveTask}

/-- The adapters of a new fabric. -/
theorem getElem?_foldl_adapters (host : Host N) (others : String → CapabilityAdapter (AppWorld N)) :
    ∀ (capabilities : List String) (m : BTreeMap String (CapabilityAdapter (AppWorld N)))
      (k : String), (capabilities.foldl (fun adapters capability =>
        adapters.insert capability (androidAdapter host others capability)) m)[k]? =
      if k ∈ capabilities then some (androidAdapter host others k) else m[k]?
  | [], m, k => by rw [List.foldl_nil, if_neg List.not_mem_nil]
  | capability :: capabilities, m, k => by
      rw [List.foldl_cons, getElem?_foldl_adapters host others capabilities,
        Std.ExtTreeMap.getElem?_insert]
      simp only [Std.compare_eq_iff_eq]
      by_cases heq : capability = k
      · rw [heq, if_pos rfl, if_pos List.mem_cons_self, ite_self]
      · rw [if_neg heq]
        exact if_congr (List.mem_cons.trans (or_iff_right (Ne.symm heq))).symm rfl rfl

/-- **A prepared plan is a session that executes the plan.** -/
theorem Prepared.bridged {text : String} (hparse : parseNativeActionPlan text = .ok (.actions actionPlan))
    (h : Prepared debug env task actionPlan w p g s) : Bridged debug env actionPlan s := by
  obtain ⟨fabric, hfabric, hexec⟩ := h.prepared
  obtain ⟨-, nextId, hfiled⟩ := parseNativeActionPlan_filed hparse
  obtain ⟨hregistry, hadapters, hstate⟩ : androidRegistry debug actionPlan = .ok fabric.registry ∧
      (∀ k : String, fabric.adapters[k]? = if k ∈ planCapabilities actionPlan then
        some (androidAdapter env.host env.adapters k) else none) ∧ fabric.state = {} := by
    simp only [androidFabric, bind_eq_ok, pure_eq_ok] at hfabric
    obtain ⟨registry, hregistry, rfl⟩ := hfabric
    exact ⟨hregistry, fun k => (getElem?_foldl_adapters ..).trans (by simp), rfl⟩
  have hstep := preparePlan_preparation { fabric, world := w, trace := [] } task.id actionPlan.graph
    actionPlan.payloads
  rw [hexec] at hstep
  cases hstep with
  | refused =>
    refine ⟨hregistry, hadapters, fun k pl hpl => ?_⟩
    exact absurd hpl (by simp [Session.plans, hstate])
  | prepared pl nextPlanId nextActionId hnew =>
    refine ⟨hregistry, hadapters, fun k pl' hpl a ha => ?_⟩
    obtain rfl : pl' = pl := by
      simp only [Session.plans, Std.ExtTreeMap.getElem?_insert, hstate] at hpl
      split at hpl
      · exact (Option.some.inj hpl).symm
      · exact absurd hpl (by simp)
    obtain ⟨node, hnode, hcapability, hpayload⟩ := newPlan_payloads hnew a ha
    obtain ⟨action, haction, hplanned⟩ := hfiled.planned node hnode
    obtain ⟨payload, hpayload'⟩ := hplanned.parsed
    cases haction.symm.trans hpayload
    rw [hcapability]
    exact ⟨fits_of_parsePayload hpayload', node, hnode, rfl, haction⟩

/-- However far the plan is executed, it is a session that executes the plan. -/
theorem Bridged.iterate (h : Bridged debug env actionPlan s) :
    ∀ n, Bridged debug env actionPlan ((callNext env p g)^[n] s)
  | 0 => h
  | n + 1 => by
      rw [Function.iterate_succ_apply']
      exact (h.iterate n).execution (executeNext_execution ..)

/-- Preparing does not depend on the world, and leaves it alone. -/
theorem Prepared.world_eq (h : Prepared debug env task actionPlan w p g s)
    (h' : Prepared debug env task actionPlan w' p g s') : s' = { s with world := w' } := by
  obtain ⟨fabric, hfabric, hexec⟩ := h.prepared
  obtain ⟨fabric', hfabric', hexec'⟩ := h'.prepared
  obtain rfl := Except.ok.inj (hfabric.symm.trans hfabric')
  have hworld := exec_preparePlan_world task.id actionPlan.graph actionPlan.payloads
    { fabric, world := w, trace := [] } w'
  rw [hexec, hexec'] at hworld
  exact congrArg Prod.snd hworld

/-- The plan is prepared alike in another world. -/
theorem Prepared.twin (h : Prepared debug env task actionPlan w p g s) (w' : AppWorld N) :
    Prepared debug env task actionPlan w' p g { s with world := w' } := by
  obtain ⟨fabric, hfabric, hexec⟩ := h.prepared
  refine ⟨h.authority, fabric, hfabric, ?_⟩
  have hworld := exec_preparePlan_world task.id actionPlan.graph actionPlan.payloads
    { fabric, world := w, trace := [] } w'
  rw [hexec] at hworld
  exact hworld

theorem Prepared.world (h : Prepared debug env task actionPlan w p g s) : s.world = w :=
  congrArg Session.world (h.world_eq h)

/-- **Two sessions that execute the plan** in worlds that differ in the seeds only. -/
theorem Bridged.beside (h : Bridged debug env actionPlan s) (hothers : OthersDiscreet env actionPlan)
    (hfabric : s.fabric = s'.fabric) (htrace : s.trace = s'.trace) (hworld : Twins s.world s'.world) :
    Beside Twins s s' := by
  refine ⟨hfabric, htrace, hworld, fun k ad had => ?_⟩
  rw [h.adapters] at had
  split at had
  · next hmem =>
    cases had
    exact blind_rollback k (hothers k hmem)
  · exact nomatch had

/-- **Steps that spare the identities** leave them as they are in two sessions beside each other, and
these beside each other. -/
theorem spared_iterate (h : Bridged debug env actionPlan s) (hothers : OthersDiscreet env actionPlan)
    (hbeside : Beside Twins s s') : ∀ n, (∀ m < n, SparesStep env p g ((callNext env p g)^[m] s)) →
      Bridged debug env actionPlan ((callNext env p g)^[n] s) ∧
        Beside Twins ((callNext env p g)^[n] s) ((callNext env p g)^[n] s') ∧
          identities ((callNext env p g)^[n] s).world = identities s.world ∧
            identities ((callNext env p g)^[n] s').world = identities s'.world
  | 0, _ => ⟨h, hbeside, rfl, rfl⟩
  | n + 1, hspares => by
      obtain ⟨hbridged, hbeside, hsame, hsame'⟩ :=
        spared_iterate h hothers hbeside n fun m hm => hspares m (Nat.lt_succ_of_lt hm)
      have hstep := hspares n (Nat.lt_succ_self n)
      simp only [Function.iterate_succ_apply']
      refine ⟨hbridged.execution (executeNext_execution ..),
        (hbridged.agrees_executeNext hothers hstep hbeside).2,
        (hbridged.identities_callNext hothers hstep).trans hsame, ?_⟩
      exact ((hbridged.of_fabric_eq hbeside.fabric.symm).identities_callNext hothers
        (hstep.of_beside hbeside)).trans hsame'

/-- Polling a plan, whose steps are taken alike. -/
theorem blind_pollPlan {W : Type} {R : Session W → Session W → Prop} {verifier : ActionVerifier W}
    (hfabric : ∀ s s', R s s' → s.fabric = s'.fabric)
    (hnext : Blind R R (executeNext p g verifier) fun _ => True) (task : CognitiveTask)
    (userMessage : String) : ∀ polls,
      Blind R R (pollPlan p task actionPlan g verifier userMessage polls) fun _ => True
  | 0 => .ret trivial
  | polls + 1 => by
      refine Blind.bind (Blind.attempted (blind_continue hfabric hnext task actionPlan userMessage))
        fun run _ => ?_
      cases run with
      | ok run => exact .ret trivial
      | error e =>
        exact Blind.branch (fun _ => blind_pollPlan hfabric hnext task userMessage polls)
          fun _ => .ret trivial

/-- **Two executions of a plan** all whose steps spare the identities. -/
structure Spared (debug : CapabilityError → String) (env : AndroidEnv N)
    (actionPlan : ParsedActionPlan) (p : ActionPlanId) (g : AuthorityGrant)
    (i i' : Path → Option Bytes) (s s' : Session (AppWorld N)) : Prop where
  bridged : Bridged debug env actionPlan s
  beside : Beside Twins s s'
  kept : identities s.world = i
  kept' : identities s'.world = i'
  spares : ∀ n, SparesStep env p g ((callNext env p g)^[n] s)

/-- The next step leaves two such executions. -/
theorem blind_executeNext {i i' : Path → Option Bytes} (hothers : OthersDiscreet env actionPlan) :
    Blind (Spared debug env actionPlan p g i i') (Spared debug env actionPlan p g i i')
      (executeNext p g (androidProductionVerifier env.trusted)) fun _ => True := by
  refine Blind.of_agrees fun s s' h => ?_
  have hstep := h.spares 0
  obtain ⟨hanswer, hbeside⟩ := h.bridged.agrees_executeNext hothers hstep h.beside
  refine ⟨hanswer, h.bridged.execution (executeNext_execution ..), hbeside, ?_, ?_, fun n => ?_⟩
  · exact (h.bridged.identities_callNext hothers hstep).trans h.kept
  · exact ((h.bridged.of_fabric_eq h.beside.fabric.symm).identities_callNext hothers
      (hstep.of_beside h.beside)).trans h.kept'
  · exact h.spares (n + 1)

end Runs

end NTD97
