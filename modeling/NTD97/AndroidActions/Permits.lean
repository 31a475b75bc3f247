import Mathlib
import NTD97.ActionFabric.Gates
import NTD97.AndroidActions
import NTD97.AssistantActions.Canonical
import NTD97.Lib.Lockstep

/-!
# AndroidActions/Permits — the parser, the registry and the grant agree

    text ──parse──▸ plan ──▸ registry ──▸ prepared ──▸ no gate stops it
                      └────▸ grant ───────────┘

The parser gives a node its side effect and a payload of some domain; the bridge registers its
capability with a side effect, a domain and scopes, and grants scopes for the plan as a whole.
`androidCapability_of_parsed` and `granted_of_required` compare these tables, one case for each
capability.  The peer of a paired PC decides where its adapter connects, not what is registered.
-/

namespace NTD97

open Machine Guard Effect Text Wire

/-! ## What the parser promises -/

/-- **What the parser promises of a node** with its payload. -/
structure NodePlanned (node : ActionNode) (action : TypedAction) : Prop where
  sideEffect : node.sideEffect = plannedSideEffect node.capability.val
  verified : node.verificationRequired = true
  parsed : ∃ payload, parsePayload node.capability.val payload = .ok action
  valid : action.validate = .ok ()

theorem parseActionLine_planned {line canonicalLine : String} {expectedId : UInt32}
    {node : ActionNode} {action : TypedAction}
    (h : parseActionLine line expectedId = .ok (node, action, canonicalLine)) :
    node.id = expectedId ∧ NodePlanned node action := by
  simp only [parseActionLine, bind_eq_ok, exists_unit, refuse_eq_ok, okOr_eq_ok, mapError_eq_ok,
    pure_eq_ok, not_or, not_not] at h
  obtain ⟨_, -, n, -, -, capability, -, payload, -, ⟨-, hn⟩, -, typed, htyped, hvalid, heq⟩ := h
  obtain ⟨rfl, hrest⟩ := Prod.mk.inj heq
  obtain ⟨rfl, -⟩ := Prod.mk.inj hrest
  refine ⟨?_, rfl, rfl, ⟨payload, htyped⟩, hvalid⟩
  change UInt32.ofNat n = expectedId
  rw [hn, UInt32.ofNat_toNat]

/-- **What has been read of a plan**: a few nodes, each with an id of its own below the next one,
and under the ids their payloads and nothing else. -/
structure Filed (plan : ParsedActionPlan) (nextId : UInt32) : Prop where
  count : plan.graph.actions.length ≤ maxActions
  below : ∀ node ∈ plan.graph.actions, node.id < nextId
  nodup : (plan.graph.actions.map (·.id)).Nodup
  planned : ∀ node ∈ plan.graph.actions, ∃ action, plan.payloads[node.id]? = some action ∧
    NodePlanned node action
  filed : ∀ k a, plan.payloads[k]? = some a → k ∈ plan.graph.actions.map (·.id)

/-- One more line. -/
theorem Filed.add {plan plan' : ParsedActionPlan} {node : ActionNode} {action : TypedAction}
    (h : Filed plan node.id) (hcount : plan.graph.actions.length < maxActions)
    (hnext : node.id.toNat + 1 < 2 ^ 32) (hnode : NodePlanned node action)
    (hgraph : plan'.graph.actions = plan.graph.actions ++ [node])
    (hpayloads : plan'.payloads = plan.payloads.insert node.id action) :
    Filed plan' (node.id + 1) := by
  have hlt : node.id < node.id + 1 := by
    rw [UInt32.lt_iff_toNat_lt, UInt32.toNat_add, UInt32.toNat_one]
    omega
  have hfresh : node.id ∉ plan.graph.actions.map (·.id) := by
    intro hmem
    obtain ⟨other, hother, heq⟩ := List.mem_map.1 hmem
    exact absurd (heq ▸ h.below other hother) (UInt32.lt_irrefl _)
  refine ⟨?_, fun other hother => ?_, ?_, fun other hother => ?_, fun k a hk => ?_⟩
  · rw [hgraph, List.length_append]
    exact hcount
  · rw [hgraph, List.mem_append, List.mem_singleton] at hother
    rcases hother with hother | rfl
    · exact UInt32.lt_trans (h.below other hother) hlt
    · exact hlt
  · rw [hgraph, List.map_append, List.map_singleton, List.nodup_append]
    refine ⟨h.nodup, List.nodup_singleton _, fun a ha b hb heq => ?_⟩
    rw [List.mem_singleton] at hb
    exact hfresh (hb ▸ heq ▸ ha)
  · rw [hgraph, List.mem_append, List.mem_singleton] at hother
    rw [hpayloads]
    rcases hother with hother | rfl
    · obtain ⟨act, hact, hplanned⟩ := h.planned other hother
      have hne : other.id ≠ node.id := fun heq => hfresh (List.mem_map.2 ⟨other, hother, heq⟩)
      exact ⟨act, SortedMap.getElem?_insert_eq_some.2 (.inr ⟨hne, hact⟩), hplanned⟩
    · exact ⟨action, Std.ExtTreeMap.getElem?_insert_self, hnode⟩
  · rw [hpayloads] at hk
    rw [hgraph, List.map_append, List.mem_append, List.map_singleton, List.mem_singleton]
    rcases SortedMap.getElem?_insert_eq_some.1 hk with ⟨rfl, -⟩ | ⟨-, hk⟩
    · exact .inr rfl
    · exact .inl (h.filed k a hk)

/-- **The loop files what it reads.** -/
theorem parseActionLines_filed : ∀ {lines : List String} {expectedId : UInt32}
    {plan plan' : ParsedActionPlan} {rest : List String}, Filed plan expectedId →
    parseActionLines lines expectedId plan = .ok (plan', rest) → ∃ nextId, Filed plan' nextId
  | [], _, _, _, _, _, h => (throw_ne_ok.1 h).elim
  | line :: lines, expectedId, plan, plan', rest, hfiled, h => by
      rw [parseActionLines] at h
      split at h
      · obtain ⟨rfl, -⟩ := Prod.mk.inj (pure_eq_ok.1 h)
        exact ⟨expectedId, hfiled⟩
      · simp only [bind_eq_ok, exists_unit, refuse_eq_ok] at h
        obtain ⟨hcount, ⟨node, action, canonicalLine⟩, hline, hnext, hrest⟩ := h
        obtain ⟨rfl, hnode⟩ := parseActionLine_planned hline
        refine parseActionLines_filed ?_ hrest
        exact hfiled.add (not_le.1 hcount) (not_le.1 hnext) hnode rfl rfl

/-- **An accepted plan** holds a few nodes with their payloads. -/
theorem parseNativeActionPlan_filed {text : String} {plan : ParsedActionPlan}
    (h : parseNativeActionPlan text = .ok (.actions plan)) :
    plan.graph.actions ≠ [] ∧ ∃ nextId, Filed plan nextId := by
  obtain ⟨acts, _, plan', -, -, hagain, hne, rfl, -⟩ := parseNativeActionPlan_eq_ok h
  have hstart : Filed startPlan 1 :=
    ⟨Nat.zero_le _, by simp [startPlan], List.nodup_nil, by simp [startPlan], by simp [startPlan]⟩
  obtain ⟨nextId, hfiled⟩ := parseActionLines_filed hstart (hagain [])
  exact ⟨hne, nextId, hfiled.count, hfiled.below, hfiled.nodup, hfiled.planned, hfiled.filed⟩

/-! ## The capability table -/

/-- A text that is a scope, or the id of a capability, as it is. -/
def FitText (value : String) : Prop := trim value = value ∧ value ≠ ""

instance (value : String) : Decidable (FitText value) := inferInstanceAs (Decidable (_ ∧ _))

/-- **The table is fit to be registered.** -/
theorem androidCapability_fit {capability : String}
    {entry : CapabilityDomain × SideEffectClass × Bool × Bool × List String}
    (h : androidCapability capability = some entry) :
    FitText capability ∧ entry.2.1 ≠ .irreversible ∧ ∀ scope ∈ entry.2.2.2.2, FitText scope := by
  unfold androidCapability at h
  split at h <;> first | cases Option.some.inj h | cases h
  all_goals decide

/-- **The parser and the table agree**: on the domain of the payload, and on the side effect. -/
theorem androidCapability_of_parsed {capability payload : String} {action : TypedAction}
    (h : parsePayload capability payload = .ok action) : ∃ rollback resumable scopes,
      androidCapability capability =
        some (action.domain, plannedSideEffect capability, rollback, resumable, scopes) := by
  unfold parsePayload at h
  split at h <;> simp only [bind_eq_ok, exists_unit, refuse_eq_ok, okOr_eq_ok, pure_eq_ok,
    throw_ne_ok, Prod.exists, part] at h
  case h_1 | h_2 | h_5 | h_7 | h_11 =>
    rw [← h]
    exact ⟨_, _, _, rfl⟩
  case h_3 | h_4 | h_14 | h_16 =>
    obtain ⟨left, right, -, rfl⟩ := h
    exact ⟨_, _, _, rfl⟩
  case h_6 | h_12 | h_13 =>
    obtain ⟨first, -, second, -, -, rfl⟩ := h
    exact ⟨_, _, _, rfl⟩
  case h_8 | h_9 =>
    obtain ⟨left, right, -, -, rfl⟩ := h
    exact ⟨_, _, _, rfl⟩
  case h_10 | h_17 =>
    obtain ⟨first, -, second, -, third, -, -, rfl⟩ := h
    exact ⟨_, _, _, rfl⟩
  case h_15 =>
    obtain ⟨first, -, second, -, -, -, rfl⟩ := h
    exact ⟨_, _, _, rfl⟩

/-- What a loop answered, its body answered for an element. -/
theorem exists_of_mem_mapM {ε α β : Type} {f : α → Except ε β} {b : β} :
    ∀ {l : List α} {r : List β}, l.mapM f = .ok r → b ∈ r → ∃ a ∈ l, f a = .ok b
  | [], r, h, hb => by
      obtain rfl := pure_eq_ok.1 h
      exact absurd hb List.not_mem_nil
  | a :: l, r, h, hb => by
      rw [List.mapM_cons] at h
      simp only [bind_eq_ok, pure_eq_ok] at h
      obtain ⟨c, hc, bs, hbs, rfl⟩ := h
      rcases List.mem_cons.1 hb with rfl | hb
      · exact ⟨a, List.mem_cons_self, hc⟩
      · obtain ⟨x, hx, hfx⟩ := exists_of_mem_mapM hbs hb
        exact ⟨x, List.mem_cons_of_mem _ hx, hfx⟩

/-- The scopes of the app actions are two. -/
theorem mem_appActionScopeNames {plan : ParsedActionPlan} {apps : List String}
    (h : appActionScopeNames plan = .ok apps) : ∀ scope ∈ apps,
      scope = "app.launch" ∨ scope = "app.accessibility.interact" := by
  intro scope hscope
  simp only [appActionScopeNames, bind_eq_ok, pure_eq_ok] at h
  obtain ⟨names, hnames, rfl⟩ := h
  rw [SortedMap.mem_sortDedup] at hscope
  obtain ⟨node, -, hnode⟩ := exists_of_mem_mapM hnames hscope
  simp only [bind_eq_ok, okOr_eq_ok] at hnode
  obtain ⟨action, -, hnode⟩ := hnode
  split at hnode
  · simp only [bind_eq_ok, exists_unit] at hnode
    obtain ⟨-, hnode⟩ := hnode
    split at hnode
    · exact .inl (pure_eq_ok.1 hnode).symm
    · simp only [bind_eq_ok, exists_unit, pure_eq_ok] at hnode
      obtain ⟨-, -, -, rfl⟩ := hnode
      exact .inr rfl
  · exact (throw_ne_ok.1 hnode).elim

section Bridge

variable (debug : CapabilityError → String) {plan : ParsedActionPlan} {apps : List String}
  {capability : String} {entry : CapabilityDomain × SideEffectClass × Bool × Bool × List String}

/-! ## Scopes -/

theorem androidScope_fit (what : String) {value : String} (h : FitText value) :
    ∃ scope, androidScope debug what value = .ok scope ∧ scope.value = value := by
  have hne : ¬ trim value = "" := by
    rw [h.1]
    exact h.2
  refine ⟨⟨trim value, trim_trim value, hne⟩, ?_, h.1⟩
  rw [androidScope, AuthorityScope.new, dif_neg hne]
  rfl

/-- Fit texts are all made scopes. -/
theorem mapM_androidScope (what : String) : ∀ {values : List String},
    (∀ value ∈ values, FitText value) →
      ∃ scopes, values.mapM (androidScope debug what) = .ok scopes ∧ scopes.map (·.value) = values
  | [], _ => ⟨[], rfl, rfl⟩
  | value :: values, h => by
      obtain ⟨hvalue, hvalues⟩ := List.forall_mem_cons.1 h
      obtain ⟨scope, hscope, rfl⟩ := androidScope_fit debug what hvalue
      obtain ⟨scopes, hscopes, rfl⟩ := mapM_androidScope what hvalues
      refine ⟨scope :: scopes, ?_, rfl⟩
      rw [List.mapM_cons]
      exact bind_eq_ok.2 ⟨scope, hscope, bind_eq_ok.2 ⟨scopes, hscopes, rfl⟩⟩

/-- The scopes a capability requires; those of an app action are the plan's. -/
def requiredTexts (apps : List String) (capability : String) (scopes : List String) : List String :=
  if capability = "app.action" then apps else scopes

theorem requiredTexts_fit (happs : appActionScopeNames plan = .ok apps)
    (h : androidCapability capability = some entry) :
    ∀ scope ∈ requiredTexts apps capability entry.2.2.2.2, FitText scope := by
  intro scope hscope
  unfold requiredTexts at hscope
  split at hscope
  · rcases mem_appActionScopeNames happs scope hscope with rfl | rfl <;> decide
  · exact (androidCapability_fit h).2.2 scope hscope

/-! ## The registry -/

/-- **What is registered of a capability**: its line of the table. -/
structure Describes (apps : List String) (capability : String)
    (entry : CapabilityDomain × SideEffectClass × Bool × Bool × List String)
    (d : CapabilityDescriptor) : Prop where
  id : d.id.val = capability
  domain : d.domain = entry.1
  sideEffect : d.sideEffect = entry.2.1
  scopes : ∀ scope ∈ d.requiredScopes,
    scope.value ∈ requiredTexts apps capability entry.2.2.2.2
  normal : d.Normal

theorem version_ne_zero : ¬ (1 : UInt32) = 0 := by decide

theorem exists_androidDescriptor (happs : appActionScopeNames plan = .ok apps)
    (h : androidCapability capability = some entry) :
    ∃ d, androidDescriptor debug plan capability = .ok d ∧ Describes apps capability entry d := by
  obtain ⟨⟨htrim, hne⟩, hside, -⟩ := androidCapability_fit h
  have hfit := requiredTexts_fit happs h
  obtain ⟨domain, sideEffect, rollbackSupported, resumable, scopes⟩ := entry
  obtain ⟨required, hrequired, hvalues⟩ :=
    mapM_androidScope debug "scope" hfit
  have hblank : ¬ isBlank capability = true := by
    rw [isBlank, htrim, String.isEmpty_iff]
    exact hne
  have hsame : required.mapM (fun scope => AuthorityScope.new scope.value) = .ok required := by
    have hmap := Lockstep.mapM_ok (l := required) (g := fun scope => scope)
      fun scope _ => AuthorityScope.new_value scope
    rwa [List.map_id'] at hmap
  let plain : CapabilityDescriptor :=
    { id := ⟨capability⟩, version := 1, domain, sideEffect, verificationRequired := true
      rollbackSupported := false, resumable := false, requiredScopes := [] }
  let new : CapabilityDescriptor :=
    { plain with rollbackSupported, resumable, requiredScopes := required }
  have hplain : CapabilityDescriptor.new ⟨capability⟩ 1 domain sideEffect = .ok plain := by
    simp only [CapabilityDescriptor.new, bind_eq_ok, exists_unit, refuse_eq_ok, pure_eq_ok]
    exact ⟨hblank, version_ne_zero, rfl⟩
  have hnormal : new.normalize =
      .ok { new with requiredScopes := SortedMap.sortDedup required } := by
    simp only [CapabilityDescriptor.normalize, bind_eq_ok, exists_unit, refuse_eq_ok, pure_eq_ok]
    refine ⟨htrim.symm ▸ hne, version_ne_zero, required, hsame, fun hirr => hside hirr.1, ?_⟩
    rw [htrim]
  refine ⟨{ new with requiredScopes := SortedMap.sortDedup required }, ?_, rfl, rfl, rfl,
    fun scope hscope => ?_, CapabilityDescriptor.normal_of_normalize hnormal⟩
  · rw [androidDescriptor, h]
    simp only [bind_eq_ok, okOr_eq_ok]
    refine ⟨_, rfl, ?_⟩
    unfold requiredTexts at hrequired
    split at hrequired <;> rename_i hcapability
    · rw [if_pos hcapability]
      simp only [bind_eq_ok, mapError_eq_ok]
      exact ⟨apps, happs, required, hrequired, plain, hplain, hnormal⟩
    · rw [if_neg hcapability]
      simp only [bind_eq_ok, mapError_eq_ok]
      exact ⟨scopes, rfl, required, hrequired, plain, hplain, hnormal⟩
  · rw [SortedMap.mem_sortDedup] at hscope
    change scope.value ∈ requiredTexts apps capability scopes
    rw [← hvalues]
    exact List.mem_map_of_mem hscope

theorem mem_planCapabilities : capability ∈ planCapabilities plan ↔
    ∃ node ∈ plan.graph.actions, node.capability.val = capability := by
  rw [planCapabilities, List.mem_reverse, List.mem_dedup, List.mem_reverse, List.mem_map]

theorem nodup_planCapabilities : (planCapabilities plan).Nodup :=
  List.nodup_reverse.2 (List.nodup_dedup _)

/-- The loop that registers capabilities, each once. -/
theorem foldlM_registerDescriptors : ∀ {capabilities : List String} {self : CapabilityRegistry},
    capabilities.Nodup → (∀ c ∈ capabilities, c ∉ self.descriptors) →
    (∀ c ∈ capabilities, ∃ d, androidDescriptor debug plan c = .ok d ∧ d.id.val = c ∧ d.Normal) →
    ∃ registry, capabilities.foldlM (fun (registry : CapabilityRegistry) c => do
        let descriptor ← androidDescriptor debug plan c
        (registry.register descriptor).mapError fun e =>
          "register Android capability: " ++ debug e) self = .ok registry ∧
      ∀ k d, registry.descriptors[k]? = some d ↔ self.descriptors[k]? = some d ∨
        (k ∈ capabilities ∧ androidDescriptor debug plan k = .ok d)
  | [], self, _, _, _ => ⟨self, rfl, fun k d => by simp⟩
  | c :: capabilities, self, hnodup, hfree, hall => by
      obtain ⟨hc, hnodup⟩ := List.nodup_cons.1 hnodup
      obtain ⟨hcfree, hfree⟩ := List.forall_mem_cons.1 hfree
      obtain ⟨⟨d, hd, hid, hnormal⟩, hall⟩ := List.forall_mem_cons.1 hall
      have hidfree : d.id.val ∉ self.descriptors := hid ▸ hcfree
      obtain ⟨next, hnext, hdescriptors⟩ := CapabilityRegistry.register_of_normal hnormal hidfree
      rw [hid] at hdescriptors
      have hstill : ∀ c' ∈ capabilities, c' ∉ next.descriptors := by
        intro c' hc' hmem
        rw [hdescriptors, Std.ExtTreeMap.mem_insert, Std.compare_eq_iff_eq] at hmem
        rcases hmem with rfl | hmem
        · exact hc hc'
        · exact hfree c' hc' hmem
      obtain ⟨registry, hregistry, hfound⟩ := foldlM_registerDescriptors hnodup hstill hall
      refine ⟨registry, ?_, fun k x => ?_⟩
      · rw [List.foldlM_cons, bind_eq_ok]
        exact ⟨next, bind_eq_ok.2 ⟨d, hd, mapError_eq_ok.2 hnext⟩, hregistry⟩
      · rw [hfound, hdescriptors, SortedMap.getElem?_insert_eq_some, List.mem_cons]
        constructor
        · rintro ((⟨rfl, rfl⟩ | ⟨-, hk⟩) | ⟨hk, hx⟩)
          · exact .inr ⟨.inl rfl, hd⟩
          · exact .inl hk
          · exact .inr ⟨.inr hk, hx⟩
        · rintro (hk | ⟨rfl | hk, hx⟩)
          · refine .inl (.inr ⟨?_, hk⟩)
            rintro rfl
            exact hcfree (Std.ExtTreeMap.mem_iff_isSome_getElem?.2 (by rw [hk]; rfl))
          · exact .inl (.inl ⟨rfl, Except.ok.inj (hx.symm.trans hd)⟩)
          · exact .inr ⟨hk, hx⟩

/-- The capabilities of a plan all have a line in the table. -/
def Tabled (plan : ParsedActionPlan) : Prop :=
  ∀ c ∈ planCapabilities plan, ∃ entry, androidCapability c = some entry

/-- **The registry of a plan** holds the descriptors of its capabilities. -/
theorem exists_androidRegistry (happs : appActionScopeNames plan = .ok apps) (htabled : Tabled plan) :
    ∃ registry, androidRegistry debug plan = .ok registry ∧ ∀ k d,
      registry.descriptors[k]? = some d ↔
        k ∈ planCapabilities plan ∧ androidDescriptor debug plan k = .ok d := by
  have hfree : ∀ c ∈ planCapabilities plan, c ∉ CapabilityRegistry.new.descriptors :=
    fun _ _ => Std.ExtTreeMap.not_mem_empty
  have hall : ∀ c ∈ planCapabilities plan,
      ∃ d, androidDescriptor debug plan c = .ok d ∧ d.id.val = c ∧ d.Normal := by
    intro c hc
    obtain ⟨entry, hentry⟩ := htabled c hc
    obtain ⟨d, hd, hdescribes⟩ := exists_androidDescriptor debug happs hentry
    exact ⟨d, hd, hdescribes.id, hdescribes.normal⟩
  obtain ⟨registry, hregistry, hfound⟩ :=
    foldlM_registerDescriptors debug nodup_planCapabilities hfree hall
  refine ⟨registry, ?_, fun k d => ?_⟩
  · have hnone : ¬ (planCapabilities plan).any (fun c => (androidCapability c).isNone) = true := by
      rw [List.any_eq_true]
      rintro ⟨c, hc, hmissing⟩
      obtain ⟨entry, hentry⟩ := htabled c hc
      rw [hentry] at hmissing
      exact Bool.false_ne_true hmissing
    rw [androidRegistry]
    simp only [bind_eq_ok, exists_unit, refuse_eq_ok]
    exact ⟨hnone, hregistry⟩
  · rw [hfound]
    simp [CapabilityRegistry.new]

/-! ## The grant -/

/-- The plan writes outside the device's own files. -/
def writesOutside (plan : ParsedActionPlan) : Bool :=
  plan.graph.actions.any fun node => node.sideEffect = .externalWrite

/-- The scopes of the reads a plan may do. -/
def readTexts (plan : ParsedActionPlan) : List String :=
  let uses (capability : String) := capability ∈ planCapabilities plan
  ["network.read", "file.app_private"] ++
    (if uses "browser.observe" then ["browser.observe"] else []) ++
    (if uses "file.grant.read" then ["file.user_grant.read"] else []) ++
    (if uses "pc.observe" then ["pc.observe"] else []) ++
    (if uses "pc.artifact.read" then ["pc.artifact.read"] else [])

/-- The scopes of the writes it may do, once they are approved. -/
def writeTexts (plan : ParsedActionPlan) (apps : List String) : List String :=
  let uses (capability : String) := capability ∈ planCapabilities plan
  (if uses "artifact.upload" then ["network.write"] else []) ++
    (if uses "file.grant.write" then ["file.user_grant.write"] else []) ++
    (if uses "browser.interact" then ["browser.interact"] else []) ++
    (if uses "device.interact" then ["device.clipboard.write"] else []) ++
    (if uses "app.action" then apps else []) ++
    (if uses "pc.execute" then ["pc.execute"] else []) ++
    (if uses "pc.artifact.write" then ["pc.artifact.write"] else [])

/-- **The scopes an approved plan is granted.** -/
def grantedTexts (plan : ParsedActionPlan) (apps : List String) : List String :=
  readTexts plan ++ if writesOutside plan then writeTexts plan apps else []

theorem mem_ite_nil {c : Prop} [Decidable c] {value : String} {values : List String} :
    (value ∈ if c then values else []) ↔ c ∧ value ∈ values := by
  split <;> simp_all

theorem grantedTexts_fit (happs : appActionScopeNames plan = .ok apps) :
    ∀ scope ∈ grantedTexts plan apps, FitText scope := by
  intro scope hscope
  simp only [grantedTexts, readTexts, writeTexts, List.mem_append, mem_ite_nil, List.mem_cons,
    List.not_mem_nil, or_false] at hscope
  rcases hscope with (((((rfl | rfl) | ⟨-, rfl⟩) | ⟨-, rfl⟩) | ⟨-, rfl⟩) | ⟨-, rfl⟩) |
    ⟨-, ((((((⟨-, rfl⟩ | ⟨-, rfl⟩) | ⟨-, rfl⟩) | ⟨-, rfl⟩) | ⟨-, happ⟩) | ⟨-, rfl⟩) | ⟨-, rfl⟩)⟩
  case inr.inl.inl.inr => rcases mem_appActionScopeNames happs scope happ with rfl | rfl <;> decide
  all_goals decide

/-- **What a capability of the plan requires is granted**: its scopes of reads always, those of
writes because the plan then writes outside. -/
theorem granted_of_required (hused : capability ∈ planCapabilities plan)
    (h : androidCapability capability = some entry)
    (hwrites : entry.2.1 = .externalWrite → writesOutside plan = true) {scope : String}
    (hscope : scope ∈ requiredTexts apps capability entry.2.2.2.2) :
    scope ∈ grantedTexts plan apps := by
  simp only [grantedTexts, readTexts, writeTexts, List.mem_append, mem_ite_nil, List.mem_cons,
    List.not_mem_nil, or_false]
  unfold androidCapability at h
  split at h <;> first | cases Option.some.inj h | cases h
  all_goals simp_all [requiredTexts]
  all_goals rcases hscope with rfl | rfl <;> simp

theorem mem_foldl_withScope {scope : AuthorityScope} :
    ∀ {scopes : List AuthorityScope} {g : AuthorityGrant},
      scope ∈ (scopes.foldl AuthorityGrant.withScope g).scopes ↔ scope ∈ g.scopes ∨ scope ∈ scopes
  | [], g => by simp
  | s :: scopes, g => by
      rw [List.foldl_cons, mem_foldl_withScope, AuthorityGrant.withScope,
        Std.ExtTreeSet.mem_insert, compare_eq_iff_eq, List.mem_cons, eq_comm]
      tauto

/-- **The grant of an approved plan** holds its scopes, and lets it write if it writes. -/
theorem exists_androidAuthority (happs : appActionScopeNames plan = .ok apps) :
    ∃ g, androidAuthority debug plan true = .ok g ∧ g.allowExternalWrite = writesOutside plan ∧
      ∀ scope : AuthorityScope, scope.value ∈ grantedTexts plan apps → scope ∈ g.scopes := by
  obtain ⟨scopes, hscopes, hvalues⟩ :=
    mapM_androidScope debug "authority scope" (grantedTexts_fit happs)
  refine ⟨{ scopes.foldl AuthorityGrant.withScope AuthorityGrant.new with
    allowExternalWrite := writesOutside plan }, ?_, rfl, fun scope hscope => ?_⟩
  · rw [androidAuthority]
    simp only [bind_eq_ok, exists_unit, refuse_eq_ok, Bool.not_true, Bool.false_eq_true, and_false,
      not_false_eq_true, true_and]
    unfold grantedTexts at hscopes
    by_cases hwrites : (plan.graph.actions.any fun node =>
        decide (node.sideEffect = .externalWrite)) = true
    · have hlist : (if writesOutside plan = true then writeTexts plan apps else []) =
          writeTexts plan apps := if_pos hwrites
      rw [hlist, writeTexts] at hscopes
      rw [if_pos hwrites]
      by_cases happ : "app.action" ∈ planCapabilities plan
      · rw [if_pos happ]
        simp only [if_pos happ] at hscopes
        simp only [bind_eq_ok, pure_eq_ok]
        exact ⟨apps, happs, _, rfl, scopes, hscopes, rfl⟩
      · rw [if_neg happ]
        simp only [if_neg happ] at hscopes
        simp only [bind_eq_ok, pure_eq_ok]
        exact ⟨[], rfl, _, rfl, scopes, hscopes, rfl⟩
    · have hlist : (if writesOutside plan = true then writeTexts plan apps else []) = [] :=
        if_neg hwrites
      rw [hlist] at hscopes
      rw [if_neg hwrites]
      simp only [bind_eq_ok, pure_eq_ok]
      exact ⟨[], rfl, scopes, hscopes, rfl⟩
  · rw [← hvalues] at hscope
    obtain ⟨other, hother, heq⟩ := List.mem_map.1 hscope
    obtain rfl := AuthorityScope.value_injective heq
    exact mem_foldl_withScope.2 (.inr hother)

/-- A descriptor is permitted once its scopes are granted, and writing if it writes. -/
theorem permits_of_granted {g : AuthorityGrant} {d : CapabilityDescriptor}
    (hscopes : ∀ scope ∈ d.requiredScopes, scope ∈ g.scopes)
    (hwrite : d.sideEffect = .externalWrite → g.allowExternalWrite = true)
    (hside : d.sideEffect ≠ .irreversible) : g.permits d = .ok () := by
  rw [AuthorityGrant.permits]
  simp only [bind_eq_ok, exists_unit]
  refine ⟨forM_eq_ok.2 fun scope hscope => refuse_eq_ok.2 (not_not.2 (hscopes scope hscope)), ?_⟩
  cases hkind : d.sideEffect with
  | readOnly | reversible => rfl
  | externalWrite => exact refuse_eq_ok.2 (not_not.2 (hwrite hkind))
  | irreversible => exact absurd hkind hside

/-! ## No gate stops an accepted plan -/

/-- The line of the table for a node the parser made. -/
theorem NodePlanned.tabled {node : ActionNode} {action : TypedAction} (h : NodePlanned node action) :
    ∃ rollback resumable scopes, androidCapability node.capability.val =
      some (action.domain, node.sideEffect, rollback, resumable, scopes) := by
  obtain ⟨payload, hpayload⟩ := h.parsed
  rw [h.sideEffect]
  exact androidCapability_of_parsed hpayload

theorem Filed.tabled {nextId : UInt32} (h : Filed plan nextId) : Tabled plan := by
  intro c hc
  obtain ⟨node, hnode, rfl⟩ := mem_planCapabilities.1 hc
  obtain ⟨action, -, hplanned⟩ := h.planned node hnode
  obtain ⟨rollback, resumable, scopes, hentry⟩ := hplanned.tabled
  exact ⟨_, hentry⟩

/-- A capability that writes outside makes the plan one that does. -/
theorem Filed.writesOutside {nextId : UInt32} (h : Filed plan nextId)
    (hused : capability ∈ planCapabilities plan) (hentry : androidCapability capability = some entry)
    (hside : entry.2.1 = .externalWrite) : writesOutside plan = true := by
  obtain ⟨node, hnode, rfl⟩ := mem_planCapabilities.1 hused
  obtain ⟨action, -, hplanned⟩ := h.planned node hnode
  obtain ⟨rollback, resumable, scopes, hentry'⟩ := hplanned.tabled
  obtain rfl := Option.some.inj (hentry.symm.trans hentry')
  exact List.any_eq_true.2 ⟨node, hnode, decide_eq_true hside⟩

/-- **No gate stops the plan**: its registry and its grant are built, every node agrees with what is
registered, the grant permits all of it, and from a new fabric the plan is prepared and no call of
`executeNext` with the grant meets an error of a gate, whatever was called before. -/
def PassesGates (W : Type) (debug : CapabilityError → String) (plan : ParsedActionPlan)
    (task : CognitiveTask) : Prop :=
  ∃ registry g, androidRegistry debug plan = .ok registry ∧
    androidAuthority debug plan true = .ok g ∧
    (∀ node ∈ plan.graph.actions, NodeAdmitted registry plan.payloads node) ∧
    (∀ id d, registry.descriptor id = .ok d → g.permits d = .ok ()) ∧
    ∀ s : Session W, s.fabric.registry = registry → s.fabric.state = {} →
      ∃ planId prepared,
        exec (preparePlan task.id task.graph plan.payloads) s = (.ok planId, prepared) ∧
        ∀ (ops : List (Op W)) (v : ActionVerifier W) (e : ActionFabricError),
          (exec (executeNext planId g v) (run Session.step prepared ops)).1 = .error e → ¬ e.IsGate

/-- **An accepted plan passes every gate**, if the scopes of its app actions can be named. -/
theorem accepted_passesGates (W : Type) (debug : CapabilityError → String) {text : String}
    {plan : ParsedActionPlan} {apps : List String} {task : CognitiveTask}
    (hplan : parseNativeActionPlan text = .ok (.actions plan))
    (happs : appActionScopeNames plan = .ok apps) (htask : task.id ≠ 0)
    (hgraph : task.graph = plan.graph) : PassesGates W debug plan task := by
  obtain ⟨hne, nextId, hfiled⟩ := parseNativeActionPlan_filed hplan
  obtain ⟨registry, hregistry, hfound⟩ :=
    exists_androidRegistry debug happs hfiled.tabled
  obtain ⟨g, hg, hwrites, hscopes⟩ := exists_androidAuthority debug happs
  have hadmitted : ∀ node ∈ plan.graph.actions, NodeAdmitted registry plan.payloads node := by
    intro node hnode
    obtain ⟨action, haction, hplanned⟩ := hfiled.planned node hnode
    obtain ⟨rollback, resumable, scopes, hentry⟩ := hplanned.tabled
    obtain ⟨d, hd, hdescribes⟩ := exists_androidDescriptor debug happs hentry
    have hstored : registry.descriptors[node.capability.val]? = some d :=
      (hfound _ d).2 ⟨mem_planCapabilities.2 ⟨node, hnode, rfl⟩, hd⟩
    refine ⟨action, d, haction, CapabilityRegistry.validateAction_eq_ok.2
      ⟨hplanned.valid, ?_, hdescribes.domain⟩, hdescribes.sideEffect.symm, fun _ => hplanned.verified⟩
    rw [CapabilityRegistry.descriptor, hstored]
  have hpermits : ∀ id d, registry.descriptor id = .ok d → g.permits d = .ok () := by
    intro id d hid
    have hstored : registry.descriptors[id.val]? = some d := by
      rw [CapabilityRegistry.descriptor] at hid
      split at hid
      · next heq => exact heq.trans (congrArg some (Except.ok.inj hid))
      · cases hid
    obtain ⟨hused, hd⟩ := (hfound _ d).1 hstored
    obtain ⟨entry, hentry⟩ := hfiled.tabled _ hused
    obtain ⟨d', hd', hdescribes⟩ := exists_androidDescriptor debug happs hentry
    obtain rfl := Except.ok.inj (hd.symm.trans hd')
    have hwrite : entry.2.1 = .externalWrite → writesOutside plan = true :=
      hfiled.writesOutside hused hentry
    refine permits_of_granted (fun scope hscope => ?_) (fun hside => ?_) ?_
    · exact hscopes scope (granted_of_required hused hentry hwrite (hdescribes.scopes scope hscope))
    · rw [hwrites]
      exact hwrite (hdescribes.sideEffect ▸ hside)
    · rw [hdescribes.sideEffect]
      exact (androidCapability_fit hentry).2.1
  refine ⟨registry, g, hregistry, hg, hadmitted, hpermits, fun s hs hstate => ?_⟩
  have hplanId : s.fabric.state.nextPlanId.toNat + 1 < 2 ^ 64 := by
    rw [hstate]
    decide
  have hactionId : s.fabric.state.nextActionId.toNat + plan.graph.actions.length < 2 ^ 64 := by
    have hcount := hfiled.count
    rw [maxActions] at hcount
    rw [hstate]
    change 1 + _ < 2 ^ 64
    omega
  obtain ⟨⟨pl, nextPlanId, nextActionId⟩, hnew⟩ :=
    exists_newPlan htask hne hfiled.nodup hadmitted hfiled.filed hplanId hactionId
  rw [← hs] at hnew hpermits
  obtain ⟨prepared, hexec, hcleared⟩ := exec_preparePlan_cleared hnew hpermits
  rw [hgraph]
  exact ⟨pl.id, prepared, hexec, fun ops v e he => (hcleared.run ops).executeNext_ungated he⟩

end Bridge

/-! ## A search and a launch -/

namespace PermitSample

open SpellingSample

def text : String :=
  "NTD97_ACTIONS_V1\n1|web.search|lean\n2|app.action|org.example.reader\tlaunch\nEND"

/-- The task of a plan. -/
def task (plan : ParsedActionPlan) : CognitiveTask where
  id := 1
  goalId := none
  intent := .new "read"
  graph := plan.graph
  status := .planned
  stepsTaken := 0
  verificationFailures := 0
  lastObservation := none
  createdTick := 0
  updatedTick := 0

theorem apps_text : (planOf text).map (fun plan => (appActionScopeNames plan).toOption) =
    some (some ["app.launch"]) := by
  decide +kernel

end PermitSample

open PermitSample in
theorem accepted_passesGates_launch : ∃ plan,
    parseNativeActionPlan text = .ok (.actions plan) ∧
      PassesGates ℕ (fun _ => "refused") plan (task plan) := by
  obtain ⟨plan, hplan, happs⟩ := Option.map_eq_some_iff.1 apps_text
  have hparse := SpellingSample.planOf_eq_some hplan
  have hok : appActionScopeNames plan = .ok ["app.launch"] := by
    cases hresult : appActionScopeNames plan with
    | error e =>
      rw [hresult] at happs
      cases happs
    | ok apps =>
      rw [hresult] at happs
      exact congrArg _ (Option.some.inj happs)
  have htask : (task plan).id ≠ 0 := UInt64.toNat_inj.not.1 Nat.one_ne_zero
  exact ⟨plan, hparse, accepted_passesGates ℕ _ hparse hok htask rfl⟩

end NTD97
