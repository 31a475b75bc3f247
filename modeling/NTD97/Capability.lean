import Mathlib
import NTD97.Core
import NTD97.Lib.Guard
import NTD97.Lib.SortedMap
import NTD97.Lib.Text

/-!
# Capability — descriptors, authority and typed actions

A `CapabilityRegistry` is built by `register` alone, so it carries that every descriptor sits under
its own id in normal form.  `validateAction` is the gate every planned action passes: the action is
well formed, its capability is registered, and the two agree on the domain.
-/

namespace NTD97

open Text Guard

/-- What a capability acts on. -/
inductive CapabilityDomain where
  | web
  | browser
  | file
  | device
  | app
  | custom
  | pc
  deriving DecidableEq, Repr

/-- **A scope is a trimmed, nonempty text** — its field is private, and `new` is the only way in. -/
structure AuthorityScope where
  value : String
  trimmed : trim value = value
  nonempty : value ≠ ""
  deriving DecidableEq

/-- Scopes are told apart by their texts. -/
theorem AuthorityScope.value_injective : Function.Injective AuthorityScope.value
  | ⟨_, _, _⟩, ⟨_, _, _⟩, rfl => rfl

instance : LinearOrder AuthorityScope :=
  LinearOrder.lift' AuthorityScope.value AuthorityScope.value_injective

/-- What a capability may do, and what it needs. -/
structure CapabilityDescriptor where
  id : CapabilityId
  version : UInt32
  domain : CapabilityDomain
  sideEffect : SideEffectClass
  verificationRequired : Bool
  rollbackSupported : Bool
  resumable : Bool
  requiredScopes : List AuthorityScope
  deriving DecidableEq

/-- Why a capability, an action or a grant is refused. -/
inductive CapabilityError where
  | emptyCapabilityId
  | invalidVersion
  | emptyScope
  | invalidDomain (raw : UInt8)
  | invalidAction
  | domainMismatch (capability : CapabilityId) (expected actual : CapabilityDomain)
  | duplicateCapability (id : CapabilityId)
  | missingCapability (id : CapabilityId)
  | missingAuthority (scope : AuthorityScope)
  | externalWriteNotAuthorized
  | irreversibleNotAuthorized
  | irreversibleRollback
  deriving DecidableEq

/-- `AuthorityScope::new`: the text is trimmed and must not be blank. -/
def AuthorityScope.new (value : String) : Except CapabilityError AuthorityScope :=
  if h : trim value = "" then .error .emptyScope
  else .ok ⟨trim value, trim_trim value, h⟩

/-! ## Authority

A grant names scopes and says which side effects it covers. -/

/-- What the user has allowed. -/
structure AuthorityGrant where
  scopes : Std.ExtTreeSet AuthorityScope
  allowExternalWrite : Bool
  allowIrreversible : Bool

instance : DecidableEq AuthorityGrant := fun a b =>
  decidable_of_iff (a.scopes.toList = b.scopes.toList ∧
      a.allowExternalWrite = b.allowExternalWrite ∧ a.allowIrreversible = b.allowIrreversible) <| by
    rcases a with ⟨scopes, write, irreversible⟩
    rcases b with ⟨scopes', write', irreversible'⟩
    simp only [AuthorityGrant.mk.injEq, and_congr_left_iff]
    exact fun _ => ⟨fun h => Std.ExtTreeSet.ext_toList (by rw [h]), fun h => by rw [h]⟩

/-- The default grant permits nothing beyond reversible work without scopes. -/
def AuthorityGrant.new : AuthorityGrant where
  scopes := ∅
  allowExternalWrite := false
  allowIrreversible := false

/-- One scope more. -/
def AuthorityGrant.withScope (self : AuthorityGrant) (scope : AuthorityScope) : AuthorityGrant :=
  { self with scopes := self.scopes.insert scope }

/-- Every scope the descriptor requires is granted, and its side effect is allowed. -/
def AuthorityGrant.permits (self : AuthorityGrant) (descriptor : CapabilityDescriptor) :
    Except CapabilityError Unit := do
  descriptor.requiredScopes.forM fun required =>
    refuse (¬ self.scopes.contains required) (.missingAuthority required)
  match descriptor.sideEffect with
  | .readOnly | .reversible => pure ()
  | .externalWrite => refuse (¬ self.allowExternalWrite) .externalWriteNotAuthorized
  | .irreversible => refuse (¬ self.allowIrreversible) .irreversibleNotAuthorized

/-! ## Descriptors

A registry holds descriptors in normal form: trimmed, with their scopes in order. -/

/-- A descriptor with the defaults of its side effect class. -/
def CapabilityDescriptor.new (id : CapabilityId) (version : UInt32) (domain : CapabilityDomain)
    (sideEffect : SideEffectClass) : Except CapabilityError CapabilityDescriptor := do
  refuse (isBlank id.val) .emptyCapabilityId
  refuse (version = 0) .invalidVersion
  return {
    id, version, domain, sideEffect
    verificationRequired := true
    rollbackSupported := false
    resumable := false
    requiredScopes := [] }

/-- Trim the id and the scopes, sort the scopes, and refuse a rollback of the irreversible. -/
def CapabilityDescriptor.normalize (self : CapabilityDescriptor) :
    Except CapabilityError CapabilityDescriptor := do
  let id : CapabilityId := ⟨trim self.id.val⟩
  refuse (id.val = "") .emptyCapabilityId
  refuse (self.version = 0) .invalidVersion
  let scopes ← self.requiredScopes.mapM fun scope => AuthorityScope.new scope.value
  refuse (self.sideEffect = .irreversible ∧ self.rollbackSupported) .irreversibleRollback
  return { self with id, requiredScopes := SortedMap.sortDedup scopes }

/-- **The normal form of a descriptor**, which `normalize` establishes. -/
structure CapabilityDescriptor.Normal (d : CapabilityDescriptor) : Prop where
  trimmed : trim d.id.val = d.id.val
  nonempty : d.id.val ≠ ""
  versioned : d.version ≠ 0
  ascending : d.requiredScopes.Pairwise (· < ·)
  reversible : d.sideEffect = .irreversible → d.rollbackSupported = false

/-- What `normalize` returns is in normal form. -/
theorem CapabilityDescriptor.normal_of_normalize {d d' : CapabilityDescriptor}
    (h : d.normalize = .ok d') : d'.Normal := by
  simp only [normalize, bind_eq_ok, exists_unit, refuse_eq_ok, pure_eq_ok] at h
  obtain ⟨hid, hv, scopes, -, hirr, rfl⟩ := h
  refine ⟨trim_trim _, hid, hv, SortedMap.sortedLT_sortDedup _, fun hse => ?_⟩
  by_contra hrb
  exact hirr ⟨hse, by simpa using hrb⟩

/-- A scope is recovered from its text. -/
theorem AuthorityScope.new_value (scope : AuthorityScope) :
    AuthorityScope.new scope.value = .ok scope := by
  have hne : ¬ trim scope.value = "" := by
    rw [scope.trimmed]
    exact scope.nonempty
  rw [AuthorityScope.new, dif_neg hne]
  exact congrArg Except.ok (AuthorityScope.value_injective scope.trimmed)

/-- **A normal descriptor is its own normal form.** -/
theorem CapabilityDescriptor.normalize_of_normal {d : CapabilityDescriptor} (h : d.Normal) :
    d.normalize = .ok d := by
  have hscopes : d.requiredScopes.mapM (fun scope => AuthorityScope.new scope.value) =
      .ok d.requiredScopes := by
    simp only [AuthorityScope.new_value]
    have hpure := List.mapM_pure (m := Except CapabilityError) (l := d.requiredScopes)
      (f := fun scope => scope)
    rw [List.map_id'] at hpure
    exact hpure
  have hirr : ¬ (d.sideEffect = .irreversible ∧ d.rollbackSupported = true) := by
    rintro ⟨hse, hrb⟩
    rw [h.reversible hse] at hrb
    exact Bool.false_ne_true hrb
  simp only [normalize, bind_eq_ok, exists_unit, refuse_eq_ok, pure_eq_ok]
  refine ⟨?_, h.versioned, _, hscopes, hirr, ?_⟩
  · rw [h.trimmed]
    exact h.nonempty
  · rw [h.trimmed, SortedMap.sortDedup_of_sortedLT h.ascending]

/-! ## Typed actions

An action carries what its adapter needs; each is of one domain. -/

/-- What is asked of an adapter. -/
inductive TypedAction where
  | webSearch (query : String) (maxResults : UInt16)
  | webFetch (url : String)
  | artifactDownload (url path : String)
  | artifactUpload (url path : String)
  | browserObserve (target : String)
  | browserInteract (target operation : String) (value : Option String)
  | fileRead (path : String)
  | fileWrite (path : String) (bytes : Bytes)
  | deviceObserve (surface : String)
  | deviceInteract (surface operation : String) (argument : Option String)
  | appAction (app action : String) (payload : Bytes)
  | pcObserve (peer surface : String)
  | pcExecute (peer program : String) (args : List String) (workingDir : Option String)
  | pcArtifactRead (peer path : String)
  | pcArtifactWrite (peer path : String) (bytes : Bytes)
  | custom (typeName : String) (payload : Bytes)
  deriving DecidableEq

/-- The domain an action belongs to. -/
def TypedAction.domain : TypedAction → CapabilityDomain
  | webSearch .. | webFetch .. | artifactDownload .. | artifactUpload .. => .web
  | browserObserve .. | browserInteract .. => .browser
  | fileRead .. | fileWrite .. => .file
  | deviceObserve .. | deviceInteract .. => .device
  | appAction .. => .app
  | pcObserve .. | pcExecute .. | pcArtifactRead .. | pcArtifactWrite .. => .pc
  | custom .. => .custom

/-- A text that is not blank. -/
def nonempty (value : String) : Except CapabilityError Unit :=
  refuse (isBlank value) .invalidAction

/-- The texts that an action cannot do without. -/
def TypedAction.validate : TypedAction → Except CapabilityError Unit
  | webSearch query maxResults => do
    nonempty query
    refuse (maxResults = 0) .invalidAction
  | webFetch url => nonempty url
  | artifactDownload url path | artifactUpload url path => do
    nonempty url
    nonempty path
  | browserObserve target => nonempty target
  | browserInteract target operation _ => do
    nonempty target
    nonempty operation
  | fileRead path => nonempty path
  | fileWrite path _ => nonempty path
  | deviceObserve surface => nonempty surface
  | deviceInteract surface operation _ => do
    nonempty surface
    nonempty operation
  | appAction app action _ => do
    nonempty app
    nonempty action
  | pcObserve peer surface => do
    nonempty peer
    nonempty surface
  | pcExecute peer program _ workingDir => do
    nonempty peer
    nonempty program
    workingDir.forM nonempty
  | pcArtifactRead peer path | pcArtifactWrite peer path _ => do
    nonempty peer
    nonempty path
  | custom typeName _ => nonempty typeName

/-- What an action yields. -/
inductive ActionValue where
  | none
  | text (value : String)
  | bytes (value : Bytes)
  | textList (values : List String)
  | fields (entries : BTreeMap String String)
  deriving DecidableEq

/-- What is kept of an action that was carried out. -/
structure ActionOutput where
  summary : String
  value : ActionValue
  evidence : List String
  deriving DecidableEq

/-- An output with a text, without evidence. -/
def ActionOutput.ofText (summary value : String) : ActionOutput where
  summary := summary
  value := .text value
  evidence := []

/-! ## The registry

Descriptors by their id; an id is registered once. -/

/-- **A registry holds normal descriptors under their own ids** — `register` is the only way in. -/
structure CapabilityRegistry where
  descriptors : BTreeMap String CapabilityDescriptor
  keyed : ∀ (k : String) (d : CapabilityDescriptor), descriptors[k]? = some d → d.id.val = k ∧ d.Normal

namespace CapabilityRegistry

/-- A registry without capabilities. -/
def new : CapabilityRegistry where
  descriptors := ∅
  keyed k d h := by simp at h

/-- `register`: the descriptor is put into normal form first. -/
def register (self : CapabilityRegistry) (descriptor : CapabilityDescriptor) :
    Except CapabilityError CapabilityRegistry :=
  match h : descriptor.normalize with
  | .error e => .error e
  | .ok d =>
    if self.descriptors.contains d.id.val then .error (.duplicateCapability d.id)
    else .ok {
      descriptors := self.descriptors.insert d.id.val d
      keyed := fun k d' hk => by
        rw [Std.ExtTreeMap.getElem?_insert] at hk
        split at hk
        · next heq =>
          cases hk
          exact ⟨Std.LawfulEqCmp.eq_of_compare heq, CapabilityDescriptor.normal_of_normalize h⟩
        · exact self.keyed k d' hk }

/-- A normal descriptor whose id is free is registered as it is. -/
theorem register_of_normal {self : CapabilityRegistry} {d : CapabilityDescriptor} (hd : d.Normal)
    (hfree : d.id.val ∉ self.descriptors) :
    ∃ r, self.register d = .ok r ∧ r.descriptors = self.descriptors.insert d.id.val d := by
  have hnorm := CapabilityDescriptor.normalize_of_normal hd
  have hcontains : ¬ self.descriptors.contains d.id.val = true := hfree
  unfold register
  split
  · next e he =>
    rw [hnorm] at he
    exact nomatch he
  · next d' he =>
    obtain rfl := Except.ok.inj (hnorm.symm.trans he)
    rw [if_neg hcontains]
    exact ⟨_, rfl, rfl⟩

/-- The descriptor of an id. -/
def descriptor (self : CapabilityRegistry) (id : CapabilityId) :
    Except CapabilityError CapabilityDescriptor :=
  match self.descriptors[id.val]? with
  | some d => .ok d
  | none => .error (.missingCapability id)

/-- **The gate of every planned action**: it is well formed, and its capability covers its
domain. -/
def validateAction (self : CapabilityRegistry) (id : CapabilityId) (action : TypedAction) :
    Except CapabilityError CapabilityDescriptor := do
  action.validate
  let descriptor ← self.descriptor id
  let actual := action.domain
  refuse (descriptor.domain ≠ actual) (.domainMismatch id descriptor.domain actual)
  return descriptor

variable {self : CapabilityRegistry} {id : CapabilityId} {action : TypedAction}
  {d : CapabilityDescriptor}

/-- A valid action fits a registered capability of its own domain. -/
theorem validateAction_eq_ok : self.validateAction id action = .ok d ↔
    action.validate = .ok () ∧ self.descriptor id = .ok d ∧ d.domain = action.domain := by
  simp only [validateAction, bind_eq_ok, exists_unit, refuse_eq_ok, pure_eq_ok, ne_eq, not_not]
  constructor
  · rintro ⟨hv, d', hd, hdom, rfl⟩
    exact ⟨hv, hd, hdom⟩
  · rintro ⟨hv, hd, hdom⟩
    exact ⟨hv, d, hd, hdom, rfl⟩

end CapabilityRegistry

end NTD97
