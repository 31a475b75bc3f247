import Mathlib
import NTD97.MobileContinuity

/-!
# MobileContinuity/Canonical — which bundles have one spelling

    bytes ──read as spelled──▸ ids and scopes as written ──settle──▸ normal descriptors

The decoder trims ids and scopes, and sorts scopes and drops repeated ones, before it hands a bundle
out; the encoder writes normal descriptors.  So a file is what its own bundle is written as exactly
if its snapshot is spelled normally (`mcs97_rewritten_iff`).
-/

namespace NTD97

open Guard Text Wire

namespace MobileContinuity

/-! ## The snapshot as it is spelled -/

/-- A descriptor as a file spells it. -/
structure SpelledDescriptor where
  id : String
  version : UInt32
  domain : CapabilityDomain
  sideEffect : SideEffectClass
  verificationRequired : Bool
  rollbackSupported : Bool
  resumable : Bool
  requiredScopes : List String
  deriving DecidableEq

/-- A descriptor, written as it is spelt. -/
def pushSpelled (descriptor : SpelledDescriptor) : Encoder := do
  pushString descriptor.id
  pushU32 descriptor.version
  pushU8 (domainByte descriptor.domain)
  pushU8 (encodeSideEffect descriptor.sideEffect)
  pushBool descriptor.verificationRequired
  pushBool descriptor.rollbackSupported
  pushBool descriptor.resumable
  pushList pushString descriptor.requiredScopes

/-- A descriptor, read as it is spelt. -/
def spelled : Decoder SpelledDescriptor := do
  let id ← string
  let version ← u32
  let domain ← coded domainOf
  let sideEffect ← coded decodeSideEffect
  let verificationRequired ← boolean .invalidBoolean
  let rollbackSupported ← boolean .invalidBoolean
  let resumable ← boolean .invalidBoolean
  let requiredScopes ← getList string
  return {
    id, version, domain, sideEffect, verificationRequired, rollbackSupported, resumable
    requiredScopes }

/-- A spelling is read back. -/
theorem codec_spelled : Codec pushSpelled spelled := by
  refine inverse_string.field SpelledDescriptor.id (fun _ _ => trivial) fun _ _ => ?_
  refine inverse_u32.field SpelledDescriptor.version (fun _ _ => trivial) fun _ _ => ?_
  refine codec_domain.field SpelledDescriptor.domain (fun _ _ => trivial) fun _ _ => ?_
  refine codec_sideEffect.field SpelledDescriptor.sideEffect (fun _ _ => trivial) fun _ _ => ?_
  refine (inverse_boolean _).field SpelledDescriptor.verificationRequired (fun _ _ => trivial)
    fun _ _ => ?_
  refine (inverse_boolean _).field SpelledDescriptor.rollbackSupported (fun _ _ => trivial)
    fun _ _ => ?_
  refine (inverse_boolean _).field SpelledDescriptor.resumable (fun _ _ => trivial) fun _ _ => ?_
  refine (codec_list inverse_string).last SpelledDescriptor.requiredScopes ?_ ?_
  · rintro ⟨⟩ ⟨⟨⟨⟨⟨⟨⟨-, rfl⟩, rfl⟩, rfl⟩, rfl⟩, rfl⟩, rfl⟩, rfl⟩
    exact ⟨trivial, rfl⟩
  · intro _ _
    simp

/-- Behind the header, the identity, the state, the wake reason, two reserved bytes and the sequence
number come the two checkpoints, and then the snapshot. -/
def findSnapshot : Decoder (List SpelledDescriptor) := do
  let _ ← take (headerLen + 28)
  let _ ← bytes
  let _ ← bytes
  getList spelled

/-- **The snapshot of a file as it is spelled.** -/
def spelledSnapshot (b : Bytes) : Option (List SpelledDescriptor) :=
  (findSnapshot.run b).toOption.map Prod.fst

/-- **A normal spelling**: nothing to trim, nothing to sort and nothing to drop. -/
structure SpelledDescriptor.Plain (d : SpelledDescriptor) : Prop where
  id_trimmed : trim d.id = d.id
  scopes_trimmed : ∀ scope ∈ d.requiredScopes, trim scope = scope
  scopes_ascending : d.requiredScopes.Pairwise (· < ·)

/-! ## What spellings settle to -/

/-- The spelling of a descriptor that the encoder chooses. -/
def spelling (d : CapabilityDescriptor) : SpelledDescriptor where
  id := d.id.val
  version := d.version
  domain := d.domain
  sideEffect := d.sideEffect
  verificationRequired := d.verificationRequired
  rollbackSupported := d.rollbackSupported
  resumable := d.resumable
  requiredScopes := d.requiredScopes.map AuthorityScope.value

/-- The descriptor the decoder makes of a spelling. -/
def settle (r : SpelledDescriptor) : Except CapabilityError CapabilityDescriptor := do
  let requiredScopes ← r.requiredScopes.mapM AuthorityScope.new
  normalized {
    id := ⟨r.id⟩
    version := r.version
    domain := r.domain
    sideEffect := r.sideEffect
    verificationRequired := r.verificationRequired
    rollbackSupported := r.rollbackSupported
    resumable := r.resumable
    requiredScopes }

/-- A scope is what it is spelt as, without the white space around it. -/
theorem scope_new_eq_ok {value : String} {scope : AuthorityScope} :
    AuthorityScope.new value = .ok scope → scope.value = trim value := by
  unfold AuthorityScope.new
  split
  · exact fun h => nomatch h
  · exact fun h => congrArg AuthorityScope.value (Except.ok.inj h).symm

/-- Scopes that were spelled normally are spelled so again. -/
theorem map_value_of_trimmed {values : List String} {scopes : List AuthorityScope}
    (hnew : List.Forall₂ (fun value scope => AuthorityScope.new value = .ok scope) values scopes)
    (h : ∀ value ∈ values, trim value = value) : scopes.map AuthorityScope.value = values := by
  induction hnew with
  | nil => rfl
  | cons hscope _ ih =>
    obtain ⟨hvalue, hvalues⟩ := List.forall_mem_cons.1 h
    rw [List.map_cons, scope_new_eq_ok hscope, hvalue, ih hvalues]

/-- What is settled is the spelled descriptor with a trimmed id and its scopes in order. -/
theorem settle_eq_ok {r : SpelledDescriptor} {d : CapabilityDescriptor} (h : settle r = .ok d) :
    d.Normal ∧ ∃ scopes, r.requiredScopes.mapM AuthorityScope.new = .ok scopes ∧
      d = { id := ⟨trim r.id⟩, version := r.version, domain := r.domain
            sideEffect := r.sideEffect, verificationRequired := r.verificationRequired
            rollbackSupported := r.rollbackSupported, resumable := r.resumable
            requiredScopes := SortedMap.sortDedup scopes } := by
  obtain ⟨scopes, hscopes, hnormalized⟩ := bind_eq_ok.1 h
  simp only [normalized, CapabilityDescriptor.new, bind_eq_ok, exists_unit, refuse_eq_ok,
    pure_eq_ok] at hnormalized
  obtain ⟨_, ⟨-, -, rfl⟩, hnorm⟩ := hnormalized
  refine ⟨CapabilityDescriptor.normal_of_normalize hnorm, scopes, hscopes, ?_⟩
  have hself : scopes.mapM (fun scope => AuthorityScope.new scope.value) = .ok scopes := by
    rw [mapM_eq_ok, List.forall₂_same]
    exact fun scope _ => AuthorityScope.new_value scope
  simp only [CapabilityDescriptor.normalize, bind_eq_ok, exists_unit, refuse_eq_ok, pure_eq_ok,
    hself, Except.ok.injEq, exists_eq_left'] at hnorm
  exact hnorm.2.2.2.symm

/-- **A spelling is the encoder's own exactly if it is normal.** -/
theorem spelling_settle_iff {r : SpelledDescriptor} {d : CapabilityDescriptor}
    (h : settle r = .ok d) : spelling d = r ↔ r.Plain := by
  obtain ⟨hnormal, scopes, hscopes, rfl⟩ := settle_eq_ok h
  constructor
  · intro heq
    have hid := congrArg SpelledDescriptor.id heq
    have hvalues := congrArg SpelledDescriptor.requiredScopes heq
    refine ⟨hid, ?_, ?_⟩
    · intro value hvalue
      rw [← hvalues] at hvalue
      obtain ⟨scope, -, rfl⟩ := List.mem_map.1 hvalue
      exact scope.trimmed
    · rw [← hvalues]
      exact List.pairwise_map.2 hnormal.ascending
  · intro hplain
    have hvalues := map_value_of_trimmed (mapM_eq_ok.1 hscopes) hplain.scopes_trimmed
    have hascending : scopes.Pairwise (· < ·) := by
      have hvalues' := hplain.scopes_ascending
      rw [← hvalues, List.pairwise_map] at hvalues'
      exact hvalues'
    rw [spelling, hplain.id_trimmed, SortedMap.sortDedup_of_sortedLT hascending, hvalues]

/-! ## Reading the spelling -/

/-- **A descriptor is read as it is spelled, and settled.** -/
theorem reads_spelled {bs mid rest : Bytes} {id : String} {d : CapabilityDescriptor}
    (hid : Reads (string : Decoder String) bs id mid) (h : Reads (descriptor id) mid d rest) :
    ∃ r, Reads spelled bs r rest ∧ settle r = .ok d := by
  unfold descriptor at h
  obtain ⟨version, m₁, hversion, h⟩ := reads_bind.1 h
  obtain ⟨domain, m₂, hdomain, h⟩ := reads_bind.1 h
  obtain ⟨sideEffect, m₃, hsideEffect, h⟩ := reads_bind.1 h
  obtain ⟨verificationRequired, m₄, hverification, h⟩ := reads_bind.1 h
  obtain ⟨rollbackSupported, m₅, hrollback, h⟩ := reads_bind.1 h
  obtain ⟨resumable, m₆, hresumable, h⟩ := reads_bind.1 h
  obtain ⟨requiredScopes, m₇, hscopes, h⟩ := reads_bind.1 h
  obtain ⟨hnormalized, rfl⟩ := reads_lift.1 h
  obtain ⟨count, m₈, hcount, hscopes⟩ := reads_bind.1 hscopes
  obtain ⟨values, hvalues, hall⟩ := reads_getN_map hscopes
  have hmap : values.mapM AuthorityScope.new = .ok requiredScopes :=
    mapM_eq_ok.2 (hall.imp fun _ _ h => mapError_eq_ok.1 h)
  refine ⟨{ id, version, domain, sideEffect, verificationRequired, rollbackSupported, resumable
            requiredScopes := values }, ?_, bind_eq_ok.2 ⟨_, hmap, mapError_eq_ok.1 hnormalized⟩⟩
  refine reads_bind.2 ⟨_, _, hid, reads_bind.2 ⟨_, _, hversion, reads_bind.2 ⟨_, _, hdomain, ?_⟩⟩⟩
  refine reads_bind.2 ⟨_, _, hsideEffect, reads_bind.2 ⟨_, _, hverification, ?_⟩⟩
  refine reads_bind.2 ⟨_, _, hrollback, reads_bind.2 ⟨_, _, hresumable, ?_⟩⟩
  exact reads_bind.2 ⟨_, _, reads_bind.2 ⟨_, _, hcount, hvalues⟩, reads_pure.2 ⟨rfl, rfl⟩⟩

/-- The spellings of a list of descriptors settle to it. -/
def Settles (rs : List SpelledDescriptor) (l : List CapabilityDescriptor) : Prop :=
  List.Forall₂ (fun r d => settle r = .ok d) rs l

/-- **Descriptors that are read were spelt somehow**, and settle from their spelling. -/
theorem reads_spelledFrom : ∀ {n : ℕ} {previous : Option String} {bs rest : Bytes}
    {l : List CapabilityDescriptor}, Reads (capabilitiesFrom n previous) bs l rest →
    ∃ rs, Reads (getN spelled n) bs rs rest ∧ Settles rs l
  | 0, _, _, _, _, h => by
      obtain ⟨rfl, rfl⟩ := reads_pure.1 h
      exact ⟨[], reads_pure.2 ⟨rfl, rfl⟩, .nil⟩
  | n + 1, _, bs, rest, l, h => by
      obtain ⟨id, m₁, hid, h⟩ := reads_bind.1 h
      obtain ⟨-, h⟩ := reads_refuse_bind.1 h
      obtain ⟨d, m₂, hd, h⟩ := reads_bind.1 h
      obtain ⟨ds, m₃, hds, h⟩ := reads_bind.1 h
      obtain ⟨rfl, rfl⟩ := reads_pure.1 h
      obtain ⟨r, hr, hsettle⟩ := reads_spelled hid hd
      obtain ⟨rs, hrs, hall⟩ := reads_spelledFrom hds
      refine ⟨r :: rs, reads_bind.2 ⟨r, _, hr, reads_bind.2 ⟨rs, _, hrs, ?_⟩⟩, .cons hsettle hall⟩
      exact reads_pure.2 ⟨rfl, rfl⟩

/-- **The snapshot is read as it is spelled, and settled.** -/
theorem reads_capabilities {bs rest : Bytes} {l : List CapabilityDescriptor}
    (h : Reads capabilities bs l rest) :
    ∃ rs, Reads (getList spelled) bs rs rest ∧ Settles rs l := by
  obtain ⟨count, mid, hcount, h⟩ := reads_bind.1 h
  obtain ⟨rs, hrs, hall⟩ := reads_spelledFrom h
  exact ⟨rs, reads_bind.2 ⟨count, mid, hcount, hrs⟩, hall⟩

/-! ## Writing the spelling -/

/-- The encoder writes its own spelling. -/
theorem pushCapabilities_eq (l : List CapabilityDescriptor) :
    pushCapabilities l = pushList pushSpelled (l.map spelling) := by
  rw [pushList_map, pushCapabilities]
  refine congrArg (pushList · l) (funext fun d => ?_)
  rw [pushSpelled, pushDescriptor, spelling, pushList_map]

/-- What settles is spelt as before exactly if it was spelt plainly. -/
theorem settles_plain_iff : ∀ {rs : List SpelledDescriptor} {l : List CapabilityDescriptor},
    Settles rs l → (l.map spelling = rs ↔ ∀ r ∈ rs, r.Plain)
  | _, _, .nil => by simp
  | r :: rs, d :: l, .cons hr hrs => by
      rw [List.map_cons, List.cons.injEq, List.forall_mem_cons, spelling_settle_iff hr,
        settles_plain_iff hrs]

/-! ## The bundle around the snapshot -/

/-- What comes before the two checkpoints. -/
def pushHead (bundle : MobileContinuityBundle) : Encoder := do
  tell bundle.identity.bytes
  pushU8 (stateByte bundle.state)
  pushU8 (wakeReasonByte bundle.wakeReason)
  pushU16 0
  pushU64 bundle.checkpointSequence

/-- What comes behind the snapshot. -/
def pushTail (bundle : MobileContinuityBundle) : Encoder := do
  pushOption pushApproval bundle.pendingApproval
  pushOption pushRetry bundle.retry

/-- The bytes of a bundle around its snapshot. -/
structure Laid (bundle : MobileContinuityBundle) (head cognitive action tail : Bytes) : Prop where
  head : Emits (pushHead bundle) head
  cognitive : Emits (pushBytes (ε := MobileContinuityError) bundle.cognitiveCheckpoint) cognitive
  action : Emits (pushBytes (ε := MobileContinuityError) bundle.actionCheckpoint) action
  tail : Emits (pushTail bundle) tail

/-- The head has a fixed length. -/
theorem length_head {bundle : MobileContinuityBundle} {head : Bytes}
    (h : Emits (pushHead bundle) head) : head.length = 28 := by
  simp only [pushHead, pushU8, pushU16, pushU64, emits_bind, emits_tell, exists_eq_left'] at h
  obtain ⟨_, ⟨_, ⟨_, ⟨_, rfl, rfl⟩, rfl⟩, rfl⟩, rfl⟩ := h
  simp only [List.length_append, length_leBytes, bundle.identity.length_eq]

theorem emits_head {bundle : MobileContinuityBundle} {b₁ b₂ b₃ b₄ b₅ : Bytes}
    (h₁ : Emits (tell bundle.identity.bytes : Encoder) b₁)
    (h₂ : Emits (pushU8 (stateByte bundle.state) : Encoder) b₂)
    (h₃ : Emits (pushU8 (wakeReasonByte bundle.wakeReason) : Encoder) b₃)
    (h₄ : Emits (pushU16 0 : Encoder) b₄)
    (h₅ : Emits (pushU64 bundle.checkpointSequence : Encoder) b₅) :
    Emits (pushHead bundle) (b₁ ++ (b₂ ++ (b₃ ++ (b₄ ++ b₅)))) :=
  emits_bind.2 ⟨b₁, h₁, _, emits_bind.2 ⟨b₂, h₂, _, emits_bind.2 ⟨b₃, h₃, _,
    emits_bind.2 ⟨b₄, h₄, b₅, h₅, rfl⟩, rfl⟩, rfl⟩, rfl⟩

/-- **A payload is the snapshot, and what is laid around it.** -/
theorem emits_encodePayload {bundle : MobileContinuityBundle} {payload : Bytes} :
    Emits (encodePayload bundle) payload ↔ ∃ head cognitive action tail snapshot,
      Laid bundle head cognitive action tail ∧
        Emits (pushCapabilities bundle.capabilities) snapshot ∧
        payload = head ++ (cognitive ++ (action ++ (snapshot ++ tail))) := by
  constructor
  · intro h
    obtain ⟨b₁, h₁, _, hnext₁, rfl⟩ := emits_bind.1 h
    obtain ⟨b₂, h₂, _, hnext₂, rfl⟩ := emits_bind.1 hnext₁
    obtain ⟨b₃, h₃, _, hnext₃, rfl⟩ := emits_bind.1 hnext₂
    obtain ⟨b₄, h₄, _, hnext₄, rfl⟩ := emits_bind.1 hnext₃
    obtain ⟨b₅, h₅, _, hnext₅, rfl⟩ := emits_bind.1 hnext₄
    obtain ⟨cognitive, hcognitive, _, hnext₆, rfl⟩ := emits_bind.1 hnext₅
    obtain ⟨action, haction, _, hnext₇, rfl⟩ := emits_bind.1 hnext₆
    obtain ⟨snapshot, hsnapshot, tail, htail, rfl⟩ := emits_bind.1 hnext₇
    refine ⟨b₁ ++ (b₂ ++ (b₃ ++ (b₄ ++ b₅))), cognitive, action, tail, snapshot,
      ⟨?_, hcognitive, haction, htail⟩, hsnapshot, by simp only [List.append_assoc]⟩
    exact emits_head h₁ h₂ h₃ h₄ h₅
  · rintro ⟨head, cognitive, action, tail, snapshot, ⟨hhead, hcognitive, haction, htail⟩,
      hsnapshot, rfl⟩
    obtain ⟨b₁, h₁, _, hnext₁, rfl⟩ := emits_bind.1 hhead
    obtain ⟨b₂, h₂, _, hnext₂, rfl⟩ := emits_bind.1 hnext₁
    obtain ⟨b₃, h₃, _, hnext₃, rfl⟩ := emits_bind.1 hnext₂
    obtain ⟨b₄, h₄, b₅, h₅, rfl⟩ := emits_bind.1 hnext₃
    simp only [List.append_assoc]
    refine emits_bind.2 ⟨b₁, h₁, _, emits_bind.2 ⟨b₂, h₂, _,
      emits_bind.2 ⟨b₃, h₃, _, ?_, rfl⟩, rfl⟩, rfl⟩
    refine emits_bind.2 ⟨b₄, h₄, _, emits_bind.2 ⟨b₅, h₅, _,
      emits_bind.2 ⟨_, hcognitive, _, ?_, rfl⟩, rfl⟩, rfl⟩
    exact emits_bind.2 ⟨_, haction, _, emits_bind.2 ⟨_, hsnapshot, _, htail, rfl⟩, rfl⟩

/-- A bundle that was read is laid around what its snapshot was read from. -/
theorem laid_of_reads {bundle : MobileContinuityBundle} {payload : Bytes}
    (h : Reads decodePayload payload bundle []) : ∃ head cognitive action tail mid,
      Laid bundle head cognitive action tail ∧ Reads capabilities mid bundle.capabilities tail ∧
        payload = head ++ (cognitive ++ (action ++ mid)) := by
  unfold decodePayload at h
  obtain ⟨identity, _, hidentity, hnext₁⟩ := reads_bind.1 h
  obtain ⟨-, b₁, h₁, rfl⟩ := codec_identity.put_get hidentity
  obtain ⟨state, _, hstate, hnext₂⟩ := reads_bind.1 hnext₁
  obtain ⟨-, b₂, h₂, rfl⟩ := codec_state.put_get hstate
  obtain ⟨wakeReason, _, hwakeReason, hnext₃⟩ := reads_bind.1 hnext₂
  obtain ⟨-, b₃, h₃, rfl⟩ := codec_wakeReason.put_get hwakeReason
  obtain ⟨reserved, _, hreserved, hnext₄⟩ := reads_bind.1 hnext₃
  obtain ⟨-, b₄, h₄, rfl⟩ := inverse_u16.put_get hreserved
  obtain ⟨hzero, hnext₅⟩ := reads_refuse_bind.1 hnext₄
  obtain rfl := not_not.1 hzero
  obtain ⟨checkpointSequence, _, hsequence, hnext₆⟩ := reads_bind.1 hnext₅
  obtain ⟨-, b₅, h₅, rfl⟩ := inverse_u64.put_get hsequence
  obtain ⟨cognitiveCheckpoint, _, hcognitive, hnext₇⟩ := reads_bind.1 hnext₆
  obtain ⟨-, cognitive, hcognitive', rfl⟩ := inverse_bytes.put_get hcognitive
  obtain ⟨actionCheckpoint, mid, haction, hnext₈⟩ := reads_bind.1 hnext₇
  obtain ⟨-, action, haction', rfl⟩ := inverse_bytes.put_get haction
  obtain ⟨descriptors, _, hcapabilities, hnext₉⟩ := reads_bind.1 hnext₈
  obtain ⟨pendingApproval, _, happroval, hlast⟩ := reads_bind.1 hnext₉
  obtain ⟨-, b₆, h₆, rfl⟩ := (codec_option codec_approval).put_get happroval
  obtain ⟨retry, _, hretry, hpure⟩ := reads_bind.1 hlast
  obtain ⟨-, b₇, h₇, rfl⟩ := (codec_option codec_retry).put_get hretry
  obtain ⟨rfl, rfl⟩ := reads_pure.1 hpure
  rw [List.append_nil] at hcapabilities
  refine ⟨b₁ ++ (b₂ ++ (b₃ ++ (b₄ ++ b₅))), cognitive, action, b₆ ++ b₇, mid,
    ⟨emits_head h₁ h₂ h₃ h₄ h₅, hcognitive', haction', emits_bind.2 ⟨b₆, h₆, b₇, h₇, rfl⟩⟩,
    hcapabilities, by simp only [List.append_assoc]⟩

/-- The snapshot of a file is found behind what is laid before it. -/
theorem spelledSnapshot_eq {bundle : MobileContinuityBundle} {rs : List SpelledDescriptor}
    {header head cognitive action tail mid : Bytes} (hheader : header.length = headerLen)
    (hlaid : Laid bundle head cognitive action tail) (hmid : Reads (getList spelled) mid rs tail) :
    spelledSnapshot (header ++ (head ++ (cognitive ++ (action ++ mid)))) = some rs := by
  have hskip : Reads (take (headerLen + 28) : Decoder Bytes)
      (header ++ (head ++ (cognitive ++ (action ++ mid)))) (header ++ head)
      (cognitive ++ (action ++ mid)) := by
    refine reads_take.2 ⟨?_, (List.append_assoc ..).symm⟩
    rw [List.length_append, hheader, length_head hlaid.head]
  have hcognitive := inverse_bytes.get_put trivial hlaid.cognitive (action ++ mid)
  have haction := inverse_bytes.get_put trivial hlaid.action mid
  have hread : Reads findSnapshot (header ++ (head ++ (cognitive ++ (action ++ mid)))) rs tail :=
    reads_bind.2 ⟨_, _, hskip, reads_bind.2 ⟨_, _, hcognitive, reads_bind.2 ⟨_, _, haction, hmid⟩⟩⟩
  unfold Reads at hread
  rw [spelledSnapshot, hread]
  rfl

end MobileContinuity

open MobileContinuity

/-! ## Files that are written as they were read -/

/-- The snapshot of a file is spelled normally. -/
def SpelledPlainly (b : Bytes) : Prop := ∀ rs, spelledSnapshot b = some rs → ∀ r ∈ rs, r.Plain

/-- A payload is written exactly if the encoder emits it. -/
theorem encodeMobileContinuityBundle_iff {bundle : MobileContinuityBundle} {b payload : Bytes}
    (hvalid : validateBundle bundle = .ok ())
    (hopen : openFrame (ε := MobileContinuityError) mcs97 b = .ok (mcs97.minor, payload)) :
    encodeMobileContinuityBundle bundle = .ok b ↔ Emits (encodePayload bundle) payload := by
  simp only [encodeMobileContinuityBundle, bind_eq_ok, hvalid, exists_unit, true_and,
    written_eq_ok]
  constructor
  · rintro ⟨payload', hpayload, hseal⟩
    have heq := hopen.symm.trans (openFrame_iff_sealFrame.2 hseal)
    rwa [(Prod.mk.inj (Except.ok.inj heq)).2]
  · exact fun hpayload => ⟨payload, hpayload, openFrame_iff_sealFrame.1 hopen⟩

/-- **A file is what its bundle is written as exactly if its snapshot is spelled normally.** -/
theorem mcs97_rewritten_iff {b : Bytes} {bundle : MobileContinuityBundle}
    (hminor : headerMinor b = mcs97.minor) (hdecode : decodeMobileContinuityBundle b = .ok bundle) :
    encodeMobileContinuityBundle bundle = .ok b ↔ SpelledPlainly b := by
  simp only [decodeMobileContinuityBundle, bind_eq_ok, exists_unit, pure_eq_ok, Prod.exists]
    at hdecode
  obtain ⟨minor, payload, hopen, _, hread, hvalid, rfl⟩ := hdecode
  obtain rfl : minor = mcs97.minor := (headerMinor_of_openFrame hopen).symm.trans hminor
  rw [encodeMobileContinuityBundle_iff hvalid hopen]
  obtain ⟨-, -, header, hheader, rfl⟩ := openFrame_eq_ok.1 hopen
  obtain ⟨head, cognitive, action, tail, mid, hlaid, hcapabilities, rfl⟩ :=
    laid_of_reads (readAll_eq_ok.1 hread)
  obtain ⟨rs, hrs, hsettles⟩ := reads_capabilities hcapabilities
  have hsnapshot := spelledSnapshot_eq (length_pushHeader hheader) hlaid hrs
  obtain ⟨-, snapshot, hspelled, rfl⟩ := (codec_list codec_spelled).put_get hrs
  have hplain : SpelledPlainly _ ↔ ∀ r ∈ rs, r.Plain :=
    ⟨fun h => h rs hsnapshot, fun h rs' hrs' => Option.some.inj (hsnapshot.symm.trans hrs') ▸ h⟩
  rw [hplain, ← settles_plain_iff hsettles, emits_encodePayload]
  constructor
  · rintro ⟨head', cognitive', action', tail', snapshot', hlaid', hsnapshot', heq⟩
    rw [hlaid'.head.unique hlaid.head, hlaid'.cognitive.unique hlaid.cognitive,
      hlaid'.action.unique hlaid.action, hlaid'.tail.unique hlaid.tail] at heq
    simp only [List.append_cancel_left_eq, List.append_cancel_right_eq] at heq
    rw [pushCapabilities_eq] at hsnapshot'
    have htail : snapshot' ++ tail = snapshot ++ tail := congrArg (· ++ tail) heq.symm
    exact ((codec_list codec_spelled).cancel trivial trivial hsnapshot' hspelled htail).1
  · rintro rfl
    refine ⟨head, cognitive, action, tail, snapshot, hlaid, ?_, rfl⟩
    rw [pushCapabilities_eq]
    exact hspelled

namespace MobileSample

/-- The file of the session between two writes, with another spelling of its snapshot. -/
def respelled (f : SpelledDescriptor → SpelledDescriptor) : Except MobileContinuityError Bytes := do
  let bundle ← built
  let payload ← written (do
    pushHead bundle
    pushBytes bundle.cognitiveCheckpoint
    pushBytes bundle.actionCheckpoint
    pushList pushSpelled (bundle.capabilities.map fun d => f (spelling d))
    pushTail bundle)
  sealFrame mcs97 payload

/-- The file as it is written. -/
def plain : Bytes := (respelled id).toOption.getD []

/-- The file with the scopes of its capability out of order. -/
def shuffled : Bytes :=
  (respelled fun d => { d with requiredScopes := ["write", "read"] }).toOption.getD []

end MobileSample

open MobileSample in
theorem mcs97_rewritten_iff_plain : ∃ bundle,
    decodeMobileContinuityBundle plain = .ok bundle ∧
      (encodeMobileContinuityBundle bundle = .ok plain ↔ SpelledPlainly plain) := by
  have hminor : headerMinor plain = mcs97.minor := by decide +kernel
  obtain ⟨bundle, hdecode⟩ := exists_eq_ok
    (show (decodeMobileContinuityBundle plain).toOption.isSome by decide +kernel)
  exact ⟨bundle, hdecode, mcs97_rewritten_iff hminor hdecode⟩

open MobileSample in
/-- Scopes out of order are accepted, and written in order. -/
theorem not_rewritten_shuffled : ¬ ∀ (b : Bytes) (bundle : MobileContinuityBundle),
    headerMinor b = mcs97.minor → decodeMobileContinuityBundle b = .ok bundle →
      encodeMobileContinuityBundle bundle = .ok b := by
  intro hcanonical
  have hminor : headerMinor shuffled = mcs97.minor := by decide +kernel
  obtain ⟨bundle, hdecode⟩ := exists_eq_ok
    (show (decodeMobileContinuityBundle shuffled).toOption.isSome by decide +kernel)
  have hother : (decodeMobileContinuityBundle shuffled >>= encodeMobileContinuityBundle).toOption ≠
      some shuffled := by decide +kernel
  rw [hdecode] at hother
  exact hother (congrArg Except.toOption (hcanonical shuffled bundle hminor hdecode))

end NTD97
