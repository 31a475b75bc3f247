import Mathlib
import NTD97.Lib.Puts
import NTD97.Package.Authentic

/-!
# Package/Sandbox — which candidates that the sandbox accepts can be packaged

    candidate ──sandbox──▸ report ──build──▸ capsule ──verify──▸ package

Building ends with the verification of what was built.  The log is written with the id of the
candidate, the package has it trimmed; the capability chunk is written in normal form, the package
has the descriptor of the candidate.  `packaged_iff` says that nothing else stands in the way.
-/

namespace NTD97

open Guard Wire Text Capsule Package

/-! ## The sandbox -/

namespace NativeValidationSandbox

/-- One probe of a candidate. -/
def probe : CandidateBody → RegressionProbe → Except AssimilationError Unit
  | .intelligence graph _, .graphRoundTrip => do
    let encoded ← (encodeGraph graph).mapError fun e => AssimilationError.sandboxRejected (.graph e)
    let decoded ← (decodeGraph encoded).mapError fun e =>
      AssimilationError.sandboxRejected (.graph e)
    refuse (decoded ≠ graph) (.sandboxRejected (.text "graph round trip drift"))
  | .capability _ adapter, .adapterDigest expected =>
    refuse (sha256 adapter.bytes ≠ expected) (.sandboxRejected (.text "adapter digest regression"))
  | _, _ => throw (.sandboxRejected (.text "regression probe does not match candidate"))

def validate (candidate : NativeCandidate) : Except AssimilationError SandboxReport := do
  candidate.validate
  candidate.regressions.forM fun regression => probe candidate.body regression.probe
  let passed := candidate.regressions.map fun regression => trim regression.name
  refuse (¬ passed.Nodup) (.sandboxRejected (.text "duplicate regression result"))
  return {
    isolated := true
    networkUsed := false
    externalWriteUsed := false
    passedRegressions := passed }

end NativeValidationSandbox

namespace Package

/-! ## Sizes -/

section Limits

variable (candidate : NativeCandidate) (provenance : ProvenanceRecord) (importerId : String)

/-- The texts that stand in a package. -/
def texts : List String :=
  [provenance.sourceUri, provenance.license.spdxId, provenance.license.notice,
    provenance.attribution, candidate.assetId, importerId] ++
  (candidate.regressions.map fun regression => trim regression.name) ++
  match candidate.body with
  | .capability descriptor adapter =>
    trim descriptor.id.val :: adapter.format :: descriptor.requiredScopes.map AuthorityScope.value
  | .intelligence .. => []

/-- The sections of a package that are signed. -/
def packageSections : Except AssimilationError (List (SectionKind × Bytes)) := do
  let provenanceBytes ← encodeProvenance provenance
  let logBytes ← encodeAssimilationLog candidate.assetId candidate.version candidate.kind importerId
    (candidate.regressions.map fun regression => trim regression.name)
  let (own, _) ← candidateSections candidate
  return own ++ [(.provenance, provenanceBytes), (.assimilationLog, logBytes)]

/-- **All sizes are within the integers that the encoders write them with.** -/
structure WithinLimits : Prop where
  texts : ∀ text ∈ texts candidate provenance importerId, (utf8 text).length < 2 ^ 32
  regressions : candidate.regressions.length < 2 ^ 32
  adapter : ∀ descriptor adapter, candidate.body = .capability descriptor adapter →
    adapter.bytes.length < 2 ^ 32 ∧
      (SortedMap.sortDedup descriptor.requiredScopes).length < 2 ^ 32
  sections : ∀ graph extra, candidate.body = .intelligence graph extra → extra.length + 4 < 2 ^ 32
  file : ∀ sections, packageSections candidate provenance importerId = .ok sections →
    Fit (headLen (sections.length + 1))
      ((sections ++ [(SectionKind.signatures, List.replicate signatureLen 0)]).map embed)

end Limits

/-! ## What is written -/

section Written

variable {candidate : NativeCandidate} {provenance : ProvenanceRecord} {importerId : String}

theorem puts_putMagic (magic : Bytes) : Puts (putMagic magic) :=
  .bind (puts_tell _) (.bind (puts_pushU16 _) (puts_pushU16 _))

theorem puts_putCapability {d : CapabilityDescriptor} (hid : (utf8 d.id.val).length < 2 ^ 32)
    (hcount : d.requiredScopes.length < 2 ^ 32)
    (hscopes : ∀ scope ∈ d.requiredScopes, (utf8 scope.value).length < 2 ^ 32) :
    Puts (putCapability d) := by
  unfold putCapability
  refine (puts_putMagic _).bind ?_
  refine (puts_pushString hid).bind ?_
  refine (puts_pushU32 _).bind ((puts_pushU8 _).bind ((puts_pushU8 _).bind ?_))
  refine (puts_pushBool _).bind ((puts_pushBool _).bind ((puts_pushBool _).bind ?_))
  exact puts_pushList hcount fun scope hmem => puts_pushString (hscopes scope hmem)

theorem exists_provenance (h : WithinLimits candidate provenance importerId) :
    ∃ b, encodeProvenance provenance = .ok b := by
  have htext (text : String) (hmem : text ∈ [provenance.sourceUri, provenance.license.spdxId,
      provenance.license.notice, provenance.attribution]) : Puts (pushString text : Encoder) := by
    refine puts_pushString (h.texts text ?_)
    simp only [texts, List.mem_append, List.mem_cons] at hmem ⊢
    tauto
  refine Puts.written (.bind (puts_putMagic _)
    (.bind (htext _ (by simp)) (.bind (puts_tell _) (.bind (htext _ (by simp))
      (.bind (htext _ (by simp)) (htext _ (by simp)))))))

theorem exists_log (h : WithinLimits candidate provenance importerId) :
    ∃ b, encodeAssimilationLog candidate.assetId candidate.version candidate.kind importerId
      (candidate.regressions.map fun regression => trim regression.name) = .ok b := by
  refine Puts.written (.bind (puts_putMagic _)
    (.bind (puts_pushU8 _) (.bind (puts_pushString (h.texts _ ?_)) (.bind (puts_pushU32 _)
      (.bind (puts_pushString (h.texts _ ?_)) (puts_pushList ?_ fun text hmem => ?_))))))
  · simp [texts]
  · simp [texts]
  · rw [List.length_map]
    exact h.regressions
  · refine puts_pushString (h.texts _ ?_)
    simp only [texts, List.mem_append]
    exact .inl (.inr hmem)

theorem normalize_eq_ok {d d' : CapabilityDescriptor} : d.normalize = .ok d' ↔
    ({ d with
      id := ⟨trim d.id.val⟩
      requiredScopes := SortedMap.sortDedup d.requiredScopes } : CapabilityDescriptor).Normal ∧
    d' = { d with
      id := ⟨trim d.id.val⟩
      requiredScopes := SortedMap.sortDedup d.requiredScopes } := by
  have hscopes : d.requiredScopes.mapM (fun scope => AuthorityScope.new scope.value) =
      .ok d.requiredScopes := by
    simp only [AuthorityScope.new_value]
    have hpure := List.mapM_pure (m := Except CapabilityError) (l := d.requiredScopes)
      (f := fun scope => scope)
    rw [List.map_id'] at hpure
    exact hpure
  constructor
  · intro h
    have hnormal := CapabilityDescriptor.normal_of_normalize h
    simp only [CapabilityDescriptor.normalize, hscopes, bind_eq_ok, exists_unit, refuse_eq_ok,
      pure_eq_ok] at h
    obtain ⟨-, -, scopes, hsame, -, rfl⟩ := h
    obtain rfl := Except.ok.inj hsame
    exact ⟨hnormal, rfl⟩
  · rintro ⟨hnormal, rfl⟩
    simp only [CapabilityDescriptor.normalize, hscopes, bind_eq_ok, exists_unit, refuse_eq_ok,
      pure_eq_ok]
    refine ⟨hnormal.nonempty, hnormal.versioned, _, rfl, fun hirr => ?_, rfl⟩
    have hno : d.rollbackSupported = false := hnormal.reversible hirr.1
    rw [hno] at hirr
    exact Bool.false_ne_true hirr.2

theorem encodeCapabilityDescriptor_eq {descriptor normal : CapabilityDescriptor}
    (h : descriptor.normalize = .ok normal) :
    encodeCapabilityDescriptor descriptor = written (putCapability normal) := by
  rw [encodeCapabilityDescriptor, h]
  rfl

/-- The sections of a candidate's own can be written, and what is written. -/
theorem exists_capability {descriptor normal : CapabilityDescriptor} {adapter : NativeAdapter}
    (h : WithinLimits candidate provenance importerId)
    (hbody : candidate.body = .capability descriptor adapter)
    (hnormal : descriptor.normalize = .ok normal) :
    ∃ b, encodeCapabilityDescriptor descriptor = .ok b ∧ written (putCapability normal) = .ok b := by
  obtain ⟨-, rfl⟩ := normalize_eq_ok.1 hnormal
  have htext (text : String) (hmem : text ∈ trim descriptor.id.val :: adapter.format ::
      descriptor.requiredScopes.map AuthorityScope.value) : (utf8 text).length < 2 ^ 32 := by
    refine h.texts text ?_
    rw [texts, hbody]
    exact List.mem_append_right _ hmem
  have hscopes (scope : AuthorityScope)
      (hmem : scope ∈ SortedMap.sortDedup descriptor.requiredScopes) :
      (utf8 scope.value).length < 2 ^ 32 := by
    refine htext _ (List.mem_cons_of_mem _ (List.mem_cons_of_mem _ (List.mem_map_of_mem ?_)))
    exact SortedMap.mem_sortDedup.1 hmem
  obtain ⟨b, hb⟩ := Puts.written (puts_putCapability (d := { descriptor with
      id := ⟨trim descriptor.id.val⟩
      requiredScopes := SortedMap.sortDedup descriptor.requiredScopes })
    (htext _ (by simp)) (h.adapter _ _ hbody).2 hscopes)
  exact ⟨b, (encodeCapabilityDescriptor_eq hnormal).trans hb, hb⟩

theorem exists_adapter {descriptor : CapabilityDescriptor} {adapter : NativeAdapter}
    (h : WithinLimits candidate provenance importerId)
    (hbody : candidate.body = .capability descriptor adapter)
    (hadapter : adapter.validate = .ok ()) :
    ∃ b, encodeAdapter adapter.format adapter.bytes = .ok b := by
  refine Puts.written (puts_refuse_bind (refuse_eq_ok.1 hadapter) (.bind (puts_putMagic _)
    (.bind (puts_pushString (h.texts _ ?_)) (puts_pushBytes (h.adapter _ _ hbody).1))))
  rw [texts, hbody]
  exact List.mem_append_right _ (by simp)

theorem exists_capsuleId (h : WithinLimits candidate provenance importerId) :
    ∃ id, nativeCapsuleId candidate.assetId candidate.version provenance.sourceDigest = .ok id := by
  obtain ⟨b, hb⟩ := Puts.written (ε := AssimilationError)
    (x := do
      pushString candidate.assetId
      pushU32 candidate.version
      tell provenance.sourceDigest.bytes)
    (.bind (puts_pushString (h.texts _ (by simp [texts]))) (.bind (puts_pushU32 _)
      (puts_tell _)))
  rw [nativeCapsuleId, hb]
  exact ⟨_, rfl⟩

theorem exists_payload {sections : List (SectionKind × Bytes)} (hlen : sections.length < 2 ^ 32)
    (hbytes : ∀ native ∈ sections, native.2.length < 2 ^ 64) :
    ∃ b, sectionSigningPayload sections = .ok b :=
  Puts.written (.bind (puts_tell _) (puts_pushList hlen fun native hmem =>
    .bind (puts_pushU16 _) (.bind (puts_pushUsize (hbytes native hmem)) (puts_tell _))))

end Written

/-! ## What is read back -/

section ReadBack

theorem reads_magic {expected b : Bytes} (hlen : expected.length = 6)
    (hb : Emits (putMagic expected) b) (rest : Bytes) :
    Reads (magic expected) (b ++ rest) () rest := by
  obtain ⟨b₁, h₁, b₂, h₂, rfl⟩ := emits_bind.1 hb
  obtain ⟨b₃, h₃, b₄, h₄, rfl⟩ := emits_bind.1 h₂
  rw [List.append_assoc, List.append_assoc]
  refine reads_bind.2 ⟨expected, _, (inverse_take 6).get_put hlen h₁ _, reads_refuse_bind.2
    ⟨not_not.2 rfl, reads_bind.2 ⟨0, _, inverse_u16.get_put trivial h₃ _, reads_refuse_bind.2
      ⟨not_not.2 rfl, reads_bind.2 ⟨1, _, inverse_u16.get_put trivial h₄ _, ?_⟩⟩⟩⟩⟩
  exact reads_refuse.2 ⟨by decide, rfl⟩

theorem assetKindOf_assetKindByte (kind : AssetKind) :
    assetKindOf (assetKindByte kind) = .ok kind := by
  cases kind <;> rfl

/-- **The log says what was written into it.** -/
theorem decodeAssimilationLog_of_encode {assetId importerId : String} {version : UInt32}
    {kind : AssetKind} {regressions : List String} {b : Bytes}
    (h : encodeAssimilationLog assetId version kind importerId regressions = .ok b) :
    decodeAssimilationLog b = .ok (assetId, version, kind) := by
  obtain ⟨b₁, h₁, b₂, h₂, rfl⟩ := emits_bind.1 (written_eq_ok.1 h)
  obtain ⟨b₃, h₃, b₄, h₄, rfl⟩ := emits_bind.1 h₂
  obtain ⟨b₅, h₅, b₆, h₆, rfl⟩ := emits_bind.1 h₄
  obtain ⟨b₇, h₇, b₈, h₈, rfl⟩ := emits_bind.1 h₆
  obtain ⟨b₉, h₉, b₀, h₀, rfl⟩ := emits_bind.1 h₈
  refine readAll_eq_ok.2 ?_
  rw [← List.append_nil (b₁ ++ _)]
  simp only [List.append_assoc]
  refine reads_bind.2 ⟨(), _, reads_magic rfl h₁ _, reads_bind.2 ⟨_, _,
    inverse_u8.get_put trivial h₃ _, reads_bind.2 ⟨kind, _,
      reads_lift.2 ⟨assetKindOf_assetKindByte kind, rfl⟩, ?_⟩⟩⟩
  refine reads_bind.2 ⟨assetId, _, inverse_string.get_put trivial h₅ _, reads_bind.2 ⟨version, _,
    inverse_u32.get_put trivial h₇ _, reads_bind.2 ⟨importerId, _,
      inverse_string.get_put trivial h₉ _, reads_bind.2 ⟨regressions, _,
        (inverse_list inverse_string).get_put (fun _ _ => trivial) h₀ _,
          reads_pure.2 ⟨rfl, rfl⟩⟩⟩⟩⟩

theorem domainOf_domainByte (domain : CapabilityDomain) :
    domainOf (domainByte domain) = .ok domain := by
  cases domain <;> rfl

theorem sideEffectOf_sideEffectByte (sideEffect : SideEffectClass) :
    sideEffectOf (sideEffectByte sideEffect) = .ok sideEffect := by
  cases sideEffect <;> rfl

theorem recovers_packageScope :
    Recovers (fun _ => True) (fun scope : AuthorityScope => pushString scope.value)
      Package.scope := by
  refine inverse_string.recovers.last AuthorityScope.value fun a _ => ⟨trivial, ?_⟩
  rw [scopeOf, AuthorityScope.new_value]
  rfl

/-- **A descriptor in normal form is read back.** -/
theorem decodeCapabilityDescriptor_of_written {d : CapabilityDescriptor} (hnormal : d.Normal)
    {b : Bytes} (h : written (putCapability d) = .ok b) : decodeCapabilityDescriptor b = .ok d := by
  obtain ⟨b₁, h₁, _, hid, rfl⟩ := emits_bind.1 (written_eq_ok.1 h)
  obtain ⟨b₂, h₂, _, hversion, rfl⟩ := emits_bind.1 hid
  obtain ⟨b₃, h₃, _, hdomain, rfl⟩ := emits_bind.1 hversion
  obtain ⟨b₄, h₄, _, heffect, rfl⟩ := emits_bind.1 hdomain
  obtain ⟨b₅, h₅, _, hverification, rfl⟩ := emits_bind.1 heffect
  obtain ⟨b₆, h₆, _, hrollback, rfl⟩ := emits_bind.1 hverification
  obtain ⟨b₇, h₇, _, hresumable, rfl⟩ := emits_bind.1 hrollback
  obtain ⟨b₈, h₈, b₉, h₉, rfl⟩ := emits_bind.1 hresumable
  have hflag := (inverse_boolean (ε := AssimilationError) fun _ => AssimilationError.invalidPackage)
  have hread : readAll capabilityFields .invalidPackage
      (b₁ ++ (b₂ ++ (b₃ ++ (b₄ ++ (b₅ ++ (b₆ ++ (b₇ ++ (b₈ ++ b₉)))))))) = .ok d := by
    refine readAll_eq_ok.2 ?_
    rw [← List.append_nil (b₁ ++ _)]
    simp only [List.append_assoc]
    refine reads_bind.2 ⟨(), _, reads_magic rfl h₁ _, reads_bind.2 ⟨_, _,
      inverse_string.get_put trivial h₂ _, reads_bind.2 ⟨_, _, inverse_u32.get_put trivial h₃ _,
        reads_bind.2 ⟨_, _, inverse_u8.get_put trivial h₄ _, reads_bind.2 ⟨_, _,
          reads_lift.2 ⟨domainOf_domainByte _, rfl⟩, reads_bind.2 ⟨_, _,
            inverse_u8.get_put trivial h₅ _, reads_bind.2 ⟨_, _,
              reads_lift.2 ⟨sideEffectOf_sideEffectByte _, rfl⟩, ?_⟩⟩⟩⟩⟩⟩⟩
    exact reads_bind.2 ⟨_, _, hflag.get_put trivial h₆ _, reads_bind.2 ⟨_, _,
      hflag.get_put trivial h₇ _, reads_bind.2 ⟨_, _, hflag.get_put trivial h₈ _,
        reads_bind.2 ⟨_, _, recovers_packageScope.list.get_put (fun _ _ => trivial) h₉ _,
          reads_pure.2 ⟨rfl, rfl⟩⟩⟩⟩⟩
  have hblank : ¬ isBlank d.id.val = true := by
    rw [isBlank, hnormal.trimmed, String.isEmpty_iff]
    exact hnormal.nonempty
  simp only [decodeCapabilityDescriptor, hread, CapabilityDescriptor.new, bind_eq_ok, exists_unit,
    refuse_eq_ok, pure_eq_ok, mapError_eq_ok]
  exact ⟨d, rfl, _, ⟨hblank, hnormal.versioned, rfl⟩,
    CapabilityDescriptor.normalize_of_normal hnormal⟩

theorem length_encodeSignature (key : Block 32) (signature : Block 64) :
    (encodeSignature key signature).length = signatureLen := by
  rw [encodeSignature, List.length_append, List.length_append, key.length_eq, signature.length_eq]
  rfl

theorem decodeSignature_encodeSignature (key : Block 32) (signature : Block 64) :
    decodeSignature (encodeSignature key signature) = .ok (key, signature) := by
  have hhead : encodeSignature key signature =
      signatureMagic ++ leBytes 2 0 ++ leBytes 2 1 ++ (key.bytes ++ (signature.bytes ++ [])) := by
    rw [encodeSignature, List.append_nil, List.append_assoc _ key.bytes]
  have hten : (signatureMagic ++ leBytes 2 0 ++ leBytes 2 1).length = 10 := rfl
  have hdrop : (encodeSignature key signature).drop 10 = key.bytes ++ (signature.bytes ++ []) := by
    rw [hhead]
    exact List.drop_left' hten
  have hkey : Reads (block 32 : Decoder (Block 32)) (key.bytes ++ (signature.bytes ++ [])) key
      (signature.bytes ++ []) := reads_block.2 rfl
  have hsignature : Reads (block 64 : Decoder (Block 64)) (signature.bytes ++ []) signature [] :=
    reads_block.2 rfl
  simp only [decodeSignature, bind_eq_ok, exists_unit, refuse_eq_ok, pure_eq_ok, Prod.exists, hdrop,
    length_encodeSignature, not_or, not_not]
  have hminor : u16At (encodeSignature key signature) 8 = 1 := rfl
  exact ⟨⟨trivial, rfl, rfl, by rw [hminor]; decide⟩, key, _, hkey, signature, [], hsignature, rfl⟩

end ReadBack

/-! ## What is built -/

section Built

variable {candidate : NativeCandidate} {report : SandboxReport} {own : List (SectionKind × Bytes)}
  {capability : Option CapabilityDescriptor}

/-- What the sandbox accepts has been validated, and its report says so. -/
theorem sandbox_eq_ok : NativeValidationSandbox.validate candidate = .ok report ↔
    candidate.validate = .ok () ∧
    (∀ regression ∈ candidate.regressions,
      NativeValidationSandbox.probe candidate.body regression.probe = .ok ()) ∧
    (candidate.regressions.map fun regression => trim regression.name).Nodup ∧
    ({
      isolated := true
      networkUsed := false
      externalWriteUsed := false
      passedRegressions := candidate.regressions.map fun regression =>
        trim regression.name } : SandboxReport) = report := by
  simp only [NativeValidationSandbox.validate, bind_eq_ok, exists_unit, forM_eq_ok, refuse_eq_ok,
    pure_eq_ok, not_not]

theorem validateReport_sandbox (h : NativeValidationSandbox.validate candidate = .ok report) :
    validateReport candidate report = .ok () := by
  obtain ⟨-, -, -, rfl⟩ := sandbox_eq_ok.1 h
  simp only [validateReport, bind_eq_ok, exists_unit, forM_eq_ok, refuse_eq_ok, not_not]
  exact ⟨by decide, fun regression hmem => List.mem_map_of_mem hmem⟩

theorem identity_of_validate (h : candidate.validate = .ok ()) :
    ¬ (isBlank candidate.assetId = true ∨ candidate.version = 0) ∧ candidate.regressions ≠ [] := by
  simp only [NativeCandidate.validate, bind_eq_ok, exists_unit, refuse_eq_ok] at h
  obtain ⟨hidentity, names, hnames, hsome, -⟩ := h
  refine ⟨hidentity, fun hnil => hsome ?_⟩
  rw [hnil] at hnames
  exact (Except.ok.inj hnames).symm

theorem capability_of_validate {descriptor : CapabilityDescriptor} {adapter : NativeAdapter}
    (h : candidate.validate = .ok ()) (hbody : candidate.body = .capability descriptor adapter) :
    (∃ normal, descriptor.normalize = .ok normal) ∧ adapter.validate = .ok () := by
  simp only [NativeCandidate.validate, bind_eq_ok, exists_unit, hbody, mapError_eq_ok] at h
  obtain ⟨-, _, -, -, normal, hnormal, hadapter⟩ := h
  exact ⟨⟨normal, hnormal⟩, hadapter⟩

theorem intelligence_of_validate {graph : Graph} {extra : List NativeSection}
    (h : candidate.validate = .ok ()) (hbody : candidate.body = .intelligence graph extra) :
    NativeCandidate.validateSections [] extra = .ok () := by
  simp only [NativeCandidate.validate, bind_eq_ok, exists_unit, hbody, mapError_eq_ok] at h
  obtain ⟨-, _, -, -, -, hsections⟩ := h
  exact hsections

/-- The sections of a candidate's own are none of those that a package adds. -/
theorem kind_of_validateSections : ∀ {kinds : List SectionKind} {extra : List NativeSection},
    NativeCandidate.validateSections kinds extra = .ok () → ∀ native ∈ extra,
      native.kind ∉ [SectionKind.graph, .provenance, .signatures, .assimilationLog]
  | _, [], _ => by simp
  | kinds, native :: extra, h => by
      rw [NativeCandidate.validateSections, bind_eq_ok] at h
      obtain ⟨_, hnative, hrest⟩ := h
      have hkind := (not_or.1 (refuse_eq_ok.1 hnative)).2
      refine List.forall_mem_cons.2 ⟨hkind, ?_⟩
      split at hrest
      · rw [bind_eq_ok] at hrest
        obtain ⟨_, -, hrest⟩ := hrest
        exact kind_of_validateSections hrest
      · exact kind_of_validateSections hrest

/-- A graph that the sandbox accepts can be written. -/
theorem exists_graph {graph : Graph} {extra : List NativeSection}
    (h : NativeValidationSandbox.validate candidate = .ok report)
    (hbody : candidate.body = .intelligence graph extra) : ∃ b, encodeGraph graph = .ok b := by
  obtain ⟨hvalid, hprobes, -⟩ := sandbox_eq_ok.1 h
  obtain ⟨regression, hmem⟩ := List.exists_mem_of_ne_nil _ (identity_of_validate hvalid).2
  have hprobe := hprobes regression hmem
  rw [hbody] at hprobe
  cases hkind : regression.probe with
  | graphRoundTrip =>
    simp only [hkind, NativeValidationSandbox.probe, bind_eq_ok, mapError_eq_ok] at hprobe
    obtain ⟨b, hb, -⟩ := hprobe
    exact ⟨b, hb⟩
  | adapterDigest expected =>
    rw [hkind] at hprobe
    cases hprobe

/-- **The sections of a candidate's own**, and what they are. -/
inductive Own (candidate : NativeCandidate) :
    List (SectionKind × Bytes) → Option CapabilityDescriptor → Prop
  | capability {descriptor normal : CapabilityDescriptor} {adapter : NativeAdapter} {b b' : Bytes}
      (hbody : candidate.body = .capability descriptor adapter)
      (hnormal : descriptor.normalize = .ok normal) (hb : written (putCapability normal) = .ok b) :
      Own candidate [(.capabilities, b), (.adapters, b')] (some descriptor)
  | intelligence {graph : Graph} {extra : List NativeSection} {b : Bytes}
      (hbody : candidate.body = .intelligence graph extra) (hb : encodeGraph graph = .ok b)
      (hkinds : ∀ native ∈ extra,
        native.kind ∉ [SectionKind.graph, .provenance, .signatures, .assimilationLog]) :
      Own candidate ((.graph, b) :: extra.map fun native => (native.kind, native.bytes)) none

theorem own_of_candidateSections (hvalid : candidate.validate = .ok ())
    (h : candidateSections candidate = .ok (own, capability)) : Own candidate own capability := by
  cases hbody : candidate.body with
  | capability descriptor adapter =>
    obtain ⟨⟨normal, hnormal⟩, -⟩ := capability_of_validate hvalid hbody
    simp only [candidateSections, hbody, bind_eq_ok, pure_eq_ok, Prod.mk.injEq] at h
    obtain ⟨b, hb, b', -, rfl, rfl⟩ := h
    rw [encodeCapabilityDescriptor, hnormal] at hb
    exact .capability hbody hnormal hb
  | intelligence graph extra =>
    simp only [candidateSections, hbody, bind_eq_ok, pure_eq_ok, Prod.mk.injEq, mapError_eq_ok] at h
    obtain ⟨b, hb, rfl, rfl⟩ := h
    exact .intelligence hbody hb (kind_of_validateSections (intelligence_of_validate hvalid hbody))

theorem exists_own {provenance : ProvenanceRecord} {importerId : String}
    (h : NativeValidationSandbox.validate candidate = .ok report)
    (hlimits : WithinLimits candidate provenance importerId) :
    ∃ own capability, candidateSections candidate = .ok (own, capability) ∧
      own.length + 3 < 2 ^ 32 := by
  have hvalid := (sandbox_eq_ok.1 h).1
  cases hbody : candidate.body with
  | capability descriptor adapter =>
    obtain ⟨⟨normal, hnormal⟩, hadapter⟩ := capability_of_validate hvalid hbody
    obtain ⟨b, hb, -⟩ := exists_capability hlimits hbody hnormal
    obtain ⟨b', hb'⟩ := exists_adapter hlimits hbody hadapter
    refine ⟨[(.capabilities, b), (.adapters, b')], some descriptor, ?_, by norm_num⟩
    simp only [candidateSections, hbody, hb, hb', bind_eq_ok]
    exact ⟨_, rfl, _, rfl, rfl⟩
  | intelligence graph extra =>
    obtain ⟨b, hb⟩ := exists_graph h hbody
    refine ⟨(.graph, b) :: extra.map fun native => (native.kind, native.bytes), none, ?_, ?_⟩
    · simp only [candidateSections, hbody, hb]
      rfl
    · rw [List.length_cons, List.length_map]
      exact hlimits.sections _ _ hbody

theorem Own.kind (h : Own candidate own capability) : ∀ native ∈ own,
    native.1 ≠ .signatures ∧ native.1 ≠ .assimilationLog := by
  cases h with
  | capability => simp
  | intelligence hbody hb hkinds =>
    refine List.forall_mem_cons.2 ⟨by simp, fun native hmem => ?_⟩
    obtain ⟨one, hone, rfl⟩ := List.mem_map.1 hmem
    have hkind := hkinds one hone
    exact ⟨fun h : one.kind = _ => hkind (by simp [h]), fun h : one.kind = _ => hkind (by simp [h])⟩

/-! ## What is verified -/

section Verified

variable {ed : Ed25519} {seed : Block 32} {logBytes provenanceBytes message : Bytes}
  {entry : LogEntry} {g : Gathered (SectionKind × Bytes)}

theorem foldlM_gather_own : ∀ {own : List (SectionKind × Bytes)}
    {g : Gathered (SectionKind × Bytes)},
    (∀ native ∈ own, native.1 ≠ .signatures ∧ native.1 ≠ .assimilationLog) →
    ((own.map embed).map view).foldlM gather g = .ok { g with signable := g.signable ++ own }
  | [], g, _ => by
      rw [List.append_nil]
      rfl
  | native :: own, g, h => by
      obtain ⟨⟨hsignature, hlog⟩, hrest⟩ := List.forall_mem_cons.1 h
      have hone : gather g (view (embed native)) =
          .ok { g with signable := g.signable ++ [native] } := by
        change (if native.1 = .signatures then _ else _) = _
        rw [if_neg hsignature]
        change (if native.1 = .assimilationLog then _ else _) = _
        rw [if_neg hlog]
        rfl
      rw [List.map_cons, List.map_cons, List.foldlM_cons, hone]
      refine (foldlM_gather_own hrest).trans ?_
      rw [List.append_assoc]
      rfl

/-- **The walk over the chunks of a package**: everything but the signature is signed. -/
theorem foldlM_gather_package {key : Block 32} {signature : Block 64}
    (hown : ∀ native ∈ own, native.1 ≠ .signatures ∧ native.1 ≠ .assimilationLog)
    (hlog : decodeAssimilationLog logBytes = .ok entry) :
    ((((own ++ [(SectionKind.provenance, provenanceBytes), (.assimilationLog, logBytes)]) ++
      [(SectionKind.signatures, encodeSignature key signature)]).map embed).map view).foldlM gather
        .empty = .ok {
      signable := own ++ [(.provenance, provenanceBytes), (.assimilationLog, logBytes)]
      signature := some (key, signature)
      log := some entry } := by
  rw [List.append_assoc, List.map_append, List.map_append, List.foldlM_append,
    foldlM_gather_own hown]
  simp only [List.cons_append, List.nil_append, List.map_cons, List.map_nil, embed, view,
    List.foldlM_cons, List.foldlM_nil, gather, Gathered.sign, Gathered.empty, hlog,
    decodeSignature_encodeSignature]
  change Except.ok (⟨(own ++ [(SectionKind.provenance, provenanceBytes)]) ++
    [(SectionKind.assimilationLog, logBytes)], some (key, signature), some entry⟩ : Gathered _) = _
  rw [List.append_assoc]
  rfl

theorem filter_views (kind : SectionKind) (sections : List (SectionKind × Bytes)) :
    ((sections.map embed).map view).filter (·.kind = kind) =
      ((sections.filter (·.1 = kind)).map embed).map view := by
  rw [List.filter_map, List.filter_map]
  rfl

theorem any_views (kind : SectionKind) (sections : List (SectionKind × Bytes)) :
    ((sections.map embed).map view).any (·.kind = kind) = sections.any (·.1 = kind) := by
  rw [List.any_map, List.any_map]
  rfl

/-- What the kind of a package asks of its capsule, by the sections of its own. -/
theorem checkKind_iff {package : NativePackage} {v : CapsuleView} {key : Block 32}
    {signature : Block 64} (hown : Own candidate own capability)
    (hplain : ∀ graph extra, candidate.body = .intelligence graph extra →
      ∀ native ∈ extra, native.kind ≠ .tensors ∧ native.kind ≠ .tokenizer)
    (hread : CapsuleView.read package.nativeCapsule = .ok v)
    (hchunks : v.chunks = (((own ++ [(SectionKind.provenance, provenanceBytes),
      (.assimilationLog, logBytes)]) ++
        [(SectionKind.signatures, encodeSignature key signature)]).map embed).map view)
    (hkind : package.kind = candidate.kind) (hcapability : package.capability = capability) :
    checkKind package v = .ok () ↔ ∀ descriptor adapter,
      candidate.body = .capability descriptor adapter → descriptor.normalize = .ok descriptor := by
  cases hown with
  | @capability descriptor normal adapter b b' hbody hnormal hb =>
    have hpackage : package.kind = .capability := by rw [hkind, NativeCandidate.kind, hbody]
    have hdecode := decodeCapabilityDescriptor_of_written
      (CapabilityDescriptor.normal_of_normalize hnormal) hb
    have hload : loadNativeCapability package.nativeCapsule = .ok normal := by
      simp only [loadNativeCapability, hread, Except.mapError, bind, Except.bind, hchunks]
      exact hdecode
    simp only [checkKind, hpackage, hload, bind_eq_ok, refuse_eq_ok, not_not, hcapability]
    constructor
    · rintro ⟨_, hsame, hcap⟩ descriptor' adapter' hbody'
      rw [hbody] at hbody'
      cases hbody'
      cases hsame
      cases hcap
      exact hnormal
    · intro h
      have hsame := h descriptor adapter hbody
      rw [hnormal] at hsame
      exact ⟨normal, rfl, by rw [Except.ok.inj hsame]⟩
  | @intelligence graph extra b hbody hb hkinds =>
    have hpackage : package.kind = .intelligence := by rw [hkind, NativeCandidate.kind, hbody]
    have hgraph : v.chunks.filter (·.kind = .graph) = [view (embed (.graph, b))] := by
      have hextra : (extra.map fun native => (native.kind, native.bytes)).filter
          (·.1 = SectionKind.graph) = [] := by
        rw [List.filter_map, List.filter_eq_nil_iff.2]
        · rfl
        · intro native hmem h
          have hnative : native.kind = .graph := of_decide_eq_true h
          exact hkinds native hmem (by simp [hnative])
      rw [hchunks, filter_views, List.filter_append, List.filter_append, List.filter_cons_of_pos rfl,
        hextra]
      rfl
    have hnone (kind : SectionKind) (h : kind = .tensors ∨ kind = .tokenizer) :
        v.chunks.any (·.kind = kind) = false := by
      rw [hchunks, any_views, List.any_eq_false]
      intro native hmem hsame
      have hnative := of_decide_eq_true hsame
      simp only [List.mem_append, List.mem_cons, List.not_mem_nil, or_false, List.mem_map] at hmem
      rcases hmem with ((rfl | ⟨one, hone, rfl⟩) | rfl | rfl) | rfl
      · rcases h with rfl | rfl <;> cases hnative
      · have hone := hplain graph extra hbody one hone
        rcases h with rfl | rfl
        · exact hone.1 hnative
        · exact hone.2 hnative
      all_goals rcases h with rfl | rfl <;> cases hnative
    have hdecoded : decodeGraphSection (view (embed (.graph, b))) = .ok graph := by
      change (decodeGraph b).mapError GraphSectionError.codec = _
      rw [decodeGraph_of_encode hb]
      rfl
    have hcheck : checkGraph v.chunks = .ok () := by
      rw [checkGraph, hgraph]
      change ((decodeGraphSection (view (embed (.graph, b)))).mapError _ >>= _) = _
      rw [hdecoded]
      rfl
    have hok : checkKind package v = .ok () := by
      simp only [checkKind, hpackage, hcapability, hcheck, hnone _ (.inl rfl), hnone _ (.inr rfl)]
      rfl
    refine iff_of_true hok fun descriptor adapter hbody' => ?_
    rw [hbody] at hbody'
    cases hbody'

/-- The package that is built. -/
def packageOf (candidate : NativeCandidate) (capability : Option CapabilityDescriptor)
    (file : Bytes) : NativePackage where
  assetId := trim candidate.assetId
  version := candidate.version
  kind := candidate.kind
  capsuleHash := sha256 file
  nativeCapsule := file
  capability := capability

/-- The capsule that is built. -/
def capsuleOf (capsuleId : Block 16) (sections : List (SectionKind × Bytes)) (key : Block 32)
    (signature : Block 64) : CapsuleBuilder where
  kind := .full
  capsuleId := capsuleId
  baseRoot := none
  chunks := (sections ++ [(SectionKind.signatures, encodeSignature key signature)]).map embed

/-- **What is built passes its verification** exactly if its id is trimmed and its descriptor is in
normal form. -/
theorem verify_iff {capsuleId : Block 16} {file : Bytes}
    (hkey : ed.isKey (ed.verifyingKey seed) = true)
    (hsigns : ∀ message, ed.verify (ed.verifyingKey seed) message (ed.sign seed message) = true)
    (hvalid : candidate.validate = .ok ()) (hown : Own candidate own capability)
    (hplain : ∀ graph extra, candidate.body = .intelligence graph extra →
      ∀ native ∈ extra, native.kind ≠ .tensors ∧ native.kind ≠ .tokenizer)
    (hlog : decodeAssimilationLog logBytes =
      .ok (candidate.assetId, candidate.version, candidate.kind))
    (hpayload : sectionSigningPayload (own ++ [(.provenance, provenanceBytes),
      (.assimilationLog, logBytes)]) = .ok message)
    (hwrite : (capsuleOf capsuleId (own ++ [(.provenance, provenanceBytes),
      (.assimilationLog, logBytes)]) (ed.verifyingKey seed) (ed.sign seed message)).write = .ok file) :
    verifyNativePackage ed (packageOf candidate capability file) (ed.verifyingKey seed) = .ok () ↔
    trim candidate.assetId = candidate.assetId ∧ ∀ descriptor adapter,
      candidate.body = .capability descriptor adapter → descriptor.normalize = .ok descriptor := by
  obtain ⟨v, hread, -, hkind, -, -, hchunks⟩ := ncc97_readBack _ _ hwrite
  have hcheck : checkKind (packageOf candidate capability file) v = .ok () ↔ _ :=
    checkKind_iff hown hplain hread hchunks rfl rfl
  have hgathered := (congrArg (List.foldlM gather Gathered.empty) hchunks).trans
    (foldlM_gather_package hown.kind hlog)
  have hblank : ¬ isBlank (trim candidate.assetId) = true := by
    rw [isBlank, trim_trim]
    exact fun h => (identity_of_validate hvalid).1 (.inl h)
  have hversion : candidate.version ≠ 0 := fun h => (identity_of_validate hvalid).1 (.inr h)
  simp only [verifyNativePackage, bind_eq_ok, exists_unit, refuse_eq_ok, mapError_eq_ok, okOr_eq_ok,
    not_not, Prod.exists, not_or]
  constructor
  · rintro ⟨-, v', hread', -, g, hg, -, assetId, version, kind, hentry, ⟨rfl, -, -⟩, hkinds⟩
    obtain rfl := Except.ok.inj (hread'.symm.trans hread)
    obtain rfl := Except.ok.inj (hg.symm.trans hgathered)
    exact ⟨(Prod.mk.inj (Option.some.inj hentry)).1.symm, hcheck.1 hkinds⟩
  · rintro ⟨htrim, hnormal⟩
    refine ⟨⟨hblank, hversion, rfl⟩, v, hread, hkind, _, hgathered, ?_, _, _, _, rfl,
      ⟨htrim.symm, rfl, rfl⟩, hcheck.2 hnormal⟩
    exact checkSignature_eq_ok.2 ⟨_, message, rfl, hpayload, hkey, hsigns message⟩

/-- **What is packaged has a trimmed id**, and its descriptor is in normal form. -/
theorem plain_of_build {provenance : ProvenanceRecord} {importerId : String} {p : NativePackage}
    (hkey : ed.isKey (ed.verifyingKey seed) = true)
    (hsigns : ∀ message, ed.verify (ed.verifyingKey seed) message (ed.sign seed message) = true)
    (hplain : ∀ graph extra, candidate.body = .intelligence graph extra →
      ∀ native ∈ extra, native.kind ≠ .tensors ∧ native.kind ≠ .tokenizer)
    (h : buildNativePackage ed candidate provenance importerId report (.fromSeed ed seed) = .ok p) :
    trim candidate.assetId = candidate.assetId ∧ ∀ descriptor adapter,
      candidate.body = .capability descriptor adapter → descriptor.normalize = .ok descriptor := by
  simp only [buildNativePackage, bind_eq_ok, exists_unit, refuse_eq_ok, pure_eq_ok, mapError_eq_ok,
    Prod.exists] at h
  obtain ⟨hvalid, -, -, -, _, -, _, hlog, _, _, hown, _, hmessage, _, -, _, hwrite, hverified,
    -⟩ := h
  exact (verify_iff hkey hsigns hvalid (own_of_candidateSections hvalid hown) hplain
    (decodeAssimilationLog_of_encode hlog) hmessage hwrite).1 hverified

/-- **A capsule that can be written is written.** -/
theorem exists_write {builder : CapsuleBuilder} (h : Writable builder) :
    ∃ b, builder.write = .ok b := by
  obtain ⟨manifest, hmanifest⟩ : Puts (encodeManifest (manifestFields builder)) :=
    .bind (puts_pushU8 _) (.bind (puts_pushU8 _) (.bind (puts_tell _)
      (.bind (puts_tell _) (puts_tell _))))
  obtain ⟨index, hindex⟩ : Puts
      (encodeIndex (entriesAt (headLen builder.chunks.length) builder.chunks)) :=
    puts_forM fun entry _ => .bind (puts_pushU16 _) (.bind (puts_pushU16 _)
      (.bind (puts_pushU32 _) (.bind (puts_pushU64 _) (.bind (puts_pushU64 _)
        (puts_tell _)))))
  obtain ⟨header, hheader⟩ : Puts (encodeHeader (headerFields .current builder.chunks.length
      (metadataRoot manifest index))) :=
    .bind (puts_tell _) (.bind (puts_pushU16 _) (.bind (puts_pushU16 _)
      (.bind (puts_pushU16 _) (.bind (puts_pushU16 _) (.bind (puts_pushU16 _)
        (.bind (puts_pushU32 _) (.bind (puts_pushU64 _) (.bind (puts_pushU64 _)
          (.bind (puts_pushU64 _) (.bind (puts_pushU64 _) (.bind (puts_pushU64 _)
            (.bind (puts_pushU32 _) (.bind (puts_pushU32 _) (.bind (puts_tell _)
              (puts_tell _)))))))))))))))
  exact ⟨_, write_eq_ok.2 ⟨h, header, manifest, index, ⟨hmanifest, hindex, hheader⟩, rfl⟩⟩

/-- Where blocks end depends on their lengths only. -/
theorem ends_congr {a : ℕ} : ∀ {l l' : List Bytes} {pos : ℕ},
    l.map List.length = l'.map List.length → Layout.ends a pos l = Layout.ends a pos l'
  | [], [], _, _ => rfl
  | block :: l, block' :: l', pos, h => by
      obtain ⟨hblock, hrest⟩ := List.cons.inj h
      rw [Layout.ends, Layout.ends, hblock, ends_congr hrest]

theorem payloads_embed : ∀ sections : List (SectionKind × Bytes),
    payloads (sections.map embed) = sections.map Prod.snd
  | [] => rfl
  | native :: sections => congrArg (native.2 :: ·) (payloads_embed sections)

theorem writable_capsuleOf (capsuleId : Block 16) {sections : List (SectionKind × Bytes)}
    (key : Block 32) (signature : Block 64) (hcount : sections.length + 1 < 2 ^ 32)
    (hfit : Fit (headLen (sections.length + 1))
      ((sections ++ [(SectionKind.signatures, List.replicate signatureLen 0)]).map embed)) :
    Writable (capsuleOf capsuleId sections key signature) := by
  have hlen : (capsuleOf capsuleId sections key signature).chunks.length = sections.length + 1 := by
    rw [capsuleOf, List.length_map, List.length_append]
    rfl
  refine ⟨fun h => ?_, hlen ▸ hcount, ?_⟩
  · obtain ⟨chunk, hchunk, hexternal⟩ := List.any_eq_true.1 h.2
    obtain ⟨native, -, rfl⟩ := List.mem_map.1 hchunk
    cases hexternal
  · rw [hlen]
    refine fun e he => hfit e ?_
    rw [capsuleOf, payloads_embed] at he
    rw [payloads_embed, ends_congr ?_]
    · exact he
    · rw [List.map_append, List.map_append, List.map_append, List.map_append]
      refine congrArg (_ ++ ·) (congrArg (fun n => [n]) ?_)
      exact List.length_replicate.trans (length_encodeSignature key signature).symm

/-- **Which accepted candidates can be packaged.**  With all sizes within limits, and a signature
library that accepts what it signs, a candidate that the sandbox accepts is packaged exactly if its
id has no space around it and its descriptor, if it has one, is in normal form. -/
theorem packaged_iff (ed : Ed25519) (seed : Block 32)
    (hkey : ed.isKey (ed.verifyingKey seed) = true)
    (hsigns : ∀ message, ed.verify (ed.verifyingKey seed) message (ed.sign seed message) = true)
    (candidate : NativeCandidate) (provenance : ProvenanceRecord) (importerId : String)
    (report : SandboxReport) (hsandbox : NativeValidationSandbox.validate candidate = .ok report)
    (hplain : ∀ graph extra, candidate.body = .intelligence graph extra →
      ∀ native ∈ extra, native.kind ≠ .tensors ∧ native.kind ≠ .tokenizer)
    (hprovenance : provenance.validate = .ok ()) (himporter : ¬ isBlank importerId = true)
    (hlimits : WithinLimits candidate provenance importerId) :
    (∃ p, buildNativePackage ed candidate provenance importerId report (.fromSeed ed seed) = .ok p ∧
      verifyNativePackage ed p (AssimilationIdentity.fromSeed ed seed).verifyKey = .ok ()) ↔
    trim candidate.assetId = candidate.assetId ∧ ∀ descriptor adapter,
      candidate.body = .capability descriptor adapter → descriptor.normalize = .ok descriptor := by
  obtain ⟨hvalid, -, -, hreport⟩ := sandbox_eq_ok.1 hsandbox
  obtain ⟨provenanceBytes, hprovenanceBytes⟩ := exists_provenance hlimits
  obtain ⟨logBytes, hlogBytes⟩ := exists_log hlimits
  obtain ⟨own, capability, hown, hlen⟩ := exists_own hsandbox hlimits
  obtain ⟨capsuleId, hcapsuleId⟩ := exists_capsuleId hlimits
  set sections := own ++ [(SectionKind.provenance, provenanceBytes), (.assimilationLog, logBytes)]
    with hsections
  have hfit : Fit (headLen (sections.length + 1))
      ((sections ++ [(SectionKind.signatures, List.replicate signatureLen 0)]).map embed) := by
    refine hlimits.file sections ?_
    simp only [packageSections, hprovenanceBytes, hlogBytes, hown]
    rfl
  have hcount : sections.length + 1 < 2 ^ 32 := by
    rw [hsections, List.length_append]
    exact hlen
  obtain ⟨message, hmessage⟩ := exists_payload ((Nat.lt_succ_self _).trans hcount)
    fun native hmem => length_lt_of_fit hfit native.2 (by
      rw [payloads_embed, List.map_append]
      exact List.mem_append_left _ (List.mem_map_of_mem hmem))
  obtain ⟨file, hwrite⟩ := exists_write (writable_capsuleOf capsuleId (ed.verifyingKey seed)
    (ed.sign seed message) hcount hfit)
  have hverify := verify_iff hkey hsigns hvalid (own_of_candidateSections hvalid hown) hplain
    (decodeAssimilationLog_of_encode hlogBytes) hmessage hwrite
  have hpassed : encodeAssimilationLog candidate.assetId candidate.version candidate.kind importerId
      report.passedRegressions = .ok logBytes := by
    rw [← hreport]
    exact hlogBytes
  constructor
  · rintro ⟨p, hp, -⟩
    exact plain_of_build hkey hsigns hplain hp
  · intro h
    have hverified := hverify.2 h
    refine ⟨packageOf candidate capability file, ?_, hverified⟩
    simp only [buildNativePackage, bind_eq_ok, exists_unit, refuse_eq_ok, pure_eq_ok, mapError_eq_ok,
      Prod.exists]
    exact ⟨hvalid, hprovenance, validateReport_sandbox hsandbox, himporter, _, hprovenanceBytes, _,
      hpassed, _, _, hown, _, hmessage, _, hcapsuleId, _, hwrite, hverified, rfl⟩

end Verified

end Built

/-! ## Candidates with and without spaces -/

namespace SandboxSample

/-- A library that signs with two hashes. -/
def ed : Ed25519 where
  verifyingKey := id
  sign seed message := ⟨(sha256 (seed.bytes ++ message)).bytes ++ (sha256 message).bytes, by
    rw [List.length_append, (sha256 _).length_eq, (sha256 _).length_eq]⟩
  isKey _ := true
  verify key message signature :=
    decide (signature.bytes = (sha256 (key.bytes ++ message)).bytes ++ (sha256 message).bytes)

theorem verify_sign (seed : Block 32) (message : Bytes) :
    ed.verify (ed.verifyingKey seed) message (ed.sign seed message) = true := decide_eq_true rfl

def candidate (assetId : String) : NativeCandidate := { Sample.candidate with assetId }

/-- The sections of the candidate. -/
def sections (assetId : String) : List (SectionKind × Bytes) :=
  (packageSections (candidate assetId) Sample.provenance "i").toOption.getD []

/-- What the kernel computes of both candidates. -/
theorem computed {assetId : String} (h : assetId = "a" ∨ assetId = "a ") :
    (candidate assetId).validate.toOption = some () ∧
      (packageSections (candidate assetId) Sample.provenance "i").toOption.isSome ∧
      Fit (headLen ((sections assetId).length + 1))
        ((sections assetId ++ [(SectionKind.signatures, List.replicate signatureLen 0)]).map embed) ∧
      ∀ text ∈ texts (candidate assetId) Sample.provenance "i", (utf8 text).length < 2 ^ 32 := by
  unfold Fit
  rcases h with rfl | rfl <;> decide +kernel

theorem sandbox_candidate {assetId : String} (h : assetId = "a" ∨ assetId = "a ") :
    NativeValidationSandbox.validate (candidate assetId) = .ok Sample.report := by
  refine sandbox_eq_ok.2 ⟨toOption_eq_some (computed h).1, ?_, by simp [candidate, Sample.candidate],
    rfl⟩
  exact List.forall_mem_singleton.2 (refuse_eq_ok.2 (not_not.2 rfl))

theorem withinLimits {assetId : String} (h : assetId = "a" ∨ assetId = "a ") :
    WithinLimits (candidate assetId) Sample.provenance "i" where
  texts := (computed h).2.2.2
  regressions := by
    change 1 < 2 ^ 32
    norm_num
  adapter descriptor adapter hbody := by
    cases hbody
    decide
  sections graph extra hbody := by cases hbody
  file sections hsections := by
    obtain ⟨-, hsome, hfit, -⟩ := computed h
    obtain rfl := Except.ok.inj ((eq_ok_getD hsome []).symm.trans hsections)
    exact hfit

/-- The provenance of the sample is accepted, and so is its importer. -/
theorem imported : Sample.provenance.validate = .ok () ∧ ¬ isBlank "i" = true := by
  obtain ⟨-, -, -, -, -, -, hprovenance, -, himporter, -⟩ := Sample.computed
  exact ⟨toOption_eq_some hprovenance, himporter⟩

theorem plain_candidate (assetId : String) (graph : Graph) (extra : List NativeSection)
    (h : (candidate assetId).body = .intelligence graph extra) :
    ∀ native ∈ extra, native.kind ≠ .tensors ∧ native.kind ≠ .tokenizer := by
  cases h

end SandboxSample

open SandboxSample in
/-- The candidate with a trimmed id is packaged. -/
theorem packaged_iff_trimmed : ∃ p,
    buildNativePackage ed (candidate "a") Sample.provenance "i" Sample.report
      (.fromSeed ed Sample.seed) = .ok p ∧
    verifyNativePackage ed p (AssimilationIdentity.fromSeed ed Sample.seed).verifyKey = .ok () :=
  (packaged_iff ed Sample.seed rfl (verify_sign Sample.seed) (candidate "a") Sample.provenance "i"
    Sample.report (sandbox_candidate (.inl rfl)) (plain_candidate "a") imported.1
    imported.2 (withinLimits (.inl rfl))).2 ⟨by decide +kernel, fun descriptor adapter hbody => by
      cases hbody
      exact CapabilityDescriptor.normalize_of_normal
        ⟨by decide +kernel, by decide, by decide, by decide, by decide⟩⟩

open SandboxSample in
/-- The candidate with a space behind its id is accepted, and cannot be packaged. -/
theorem not_packaged : ¬ ∀ (ed : Ed25519) (seed : Block 32), ed.isKey (ed.verifyingKey seed) = true →
    (∀ message, ed.verify (ed.verifyingKey seed) message (ed.sign seed message) = true) →
    ∀ candidate provenance importerId report,
      NativeValidationSandbox.validate candidate = .ok report →
      (∀ graph extra, candidate.body = .intelligence graph extra →
        ∀ native ∈ extra, native.kind ≠ .tensors ∧ native.kind ≠ .tokenizer) →
      provenance.validate = .ok () → ¬ isBlank importerId = true →
      WithinLimits candidate provenance importerId →
      ∃ p, buildNativePackage ed candidate provenance importerId report (.fromSeed ed seed) = .ok p ∧
        verifyNativePackage ed p (AssimilationIdentity.fromSeed ed seed).verifyKey = .ok () := by
  intro h
  obtain ⟨p, hp, -⟩ := h ed Sample.seed rfl (verify_sign Sample.seed) (candidate "a ")
    Sample.provenance "i" Sample.report (sandbox_candidate (.inr rfl)) (plain_candidate "a ")
    imported.1 imported.2 (withinLimits (.inr rfl))
  have htrim := (plain_of_build rfl (verify_sign Sample.seed) (plain_candidate "a ") hp).1
  exact absurd htrim (by decide +kernel)

end Package

end NTD97
