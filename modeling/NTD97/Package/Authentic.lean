import Mathlib
import NTD97.Package

/-!
# Package/Authentic — an accepted package is a package that was built

    accepted ──verify──▸ (payload, signature) ──ideal──▸ built      payload ──injective──▸ chunks

The signature of a package covers the list of its other chunks: what each one is, whether it is
embedded, its length and its hash.  Everything else that is trusted is read back from those chunks,
so two packages with one payload say the same, unless two contents collide.
-/

namespace NTD97

open Guard Wire Capsule Text

namespace Package

/-! ## What is signed -/

/-- The chunks that the signature is over. -/
def signed (view : CapsuleView) : List ChunkSpec :=
  (view.chunks.filter (·.kind ≠ .signatures)).map ChunkView.spec

/-- A section of a full package, as a chunk. -/
def embed (native : SectionKind × Bytes) : ChunkSpec := ⟨native.1, .embedded native.2⟩

/-- The message of a signature over these chunks. -/
def Payload : CapsuleKind → List ChunkSpec → Bytes → Prop
  | .full, specs, message =>
    ∃ sections, sections.map embed = specs ∧ sectionSigningPayload sections = .ok message
  | .thin, specs, message => thinSectionSigningPayload specs = .ok message
  | .state, _, _ => False

/-- The log so far, after one more chunk. -/
def relog (log : Option LogEntry) (spec : ChunkSpec) : Option LogEntry :=
  match spec.kind, spec.source with
  | .assimilationLog, .embedded bytes => (decodeAssimilationLog bytes).toOption.or log
  | _, _ => log

/-- The descriptor of the only capability chunk. -/
def capabilityOf (specs : List ChunkSpec) : Option CapabilityDescriptor :=
  match specs.filter (·.kind = .capabilities) with
  | [⟨_, .embedded bytes⟩] => (decodeCapabilityDescriptor bytes).toOption
  | _ => none

/-- **A signature that a package contains**, with the message it is for. -/
inductive Signs (package : NativePackage) : Bytes → Block 64 → Prop where
  | full {view : CapsuleView} {gathered : Gathered (SectionKind × Bytes)} {key : Block 32}
      {message : Bytes} {signature : Block 64}
      (hread : CapsuleView.read package.nativeCapsule = .ok view) (hkind : view.kind = .full)
      (hgathered : view.chunks.foldlM gather .empty = .ok gathered)
      (hsignature : gathered.signature = some (key, signature))
      (hmessage : sectionSigningPayload gathered.signable = .ok message) :
      Signs package message signature
  | thin {view : CapsuleView} {gathered : Gathered ThinPackageChunk} {key : Block 32}
      {message : Bytes} {signature : Block 64}
      (hread : CapsuleView.read package.nativeCapsule = .ok view) (hkind : view.kind = .thin)
      (hgathered : view.chunks.foldlM gatherThin .empty = .ok gathered)
      (hsignature : gathered.signature = some (key, signature))
      (hmessage : thinSectionSigningPayload gathered.signable = .ok message) :
      Signs package message signature

/-- **A package that an identity built.** -/
inductive Issued (ed : Ed25519) (identity : AssimilationIdentity) (package : NativePackage) :
    Prop where
  | full {candidate : NativeCandidate} {provenance : ProvenanceRecord} {importerId : String}
      {report : SandboxReport}
      (h : buildNativePackage ed candidate provenance importerId report identity = .ok package) :
      Issued ed identity package
  | thin {spec : StreamedPackageSpec} {model : StreamedLoweredLlamaModel}
      {provenance : ProvenanceRecord} {report : SandboxReport} {shardStore : FileTensorShardStore}
      (h : buildStreamedNativePackage ed spec model provenance report shardStore identity =
        .ok package) : Issued ed identity package

/-- What is built has been verified. -/
theorem verify_of_build {ed : Ed25519} {identity : AssimilationIdentity} {package : NativePackage}
    {candidate : NativeCandidate} {provenance : ProvenanceRecord} {importerId : String}
    {report : SandboxReport}
    (h : buildNativePackage ed candidate provenance importerId report identity = .ok package) :
    verifyNativePackage ed package identity.verifyKey = .ok () := by
  simp only [buildNativePackage, bind_eq_ok, exists_unit, pure_eq_ok] at h
  obtain ⟨-, -, -, -, _, -, _, -, _, -, _, -, _, -, _, -, hverify, rfl⟩ := h
  exact hverify

/-- What is built is verified before it is returned. -/
theorem Issued.verified {ed : Ed25519} {identity : AssimilationIdentity} {package : NativePackage}
    (h : Issued ed identity package) : Verified ed identity.verifyKey package := by
  cases h with
  | full h => exact .inl (verify_of_build h)
  | thin h =>
    simp only [buildStreamedNativePackage, bind_eq_ok, exists_unit, pure_eq_ok] at h
    obtain ⟨-, -, -, -, _, -, _, -, _, -, _, -, _, -, _, -, _, -, _, -, _, -, _, -, _, -, hverify,
      rfl⟩ := h
    exact .inr ⟨_, hverify⟩

/-! ## Gathering -/

section Gathering

variable {α : Type} {chunks : List ChunkView} {chunk : ChunkView}

/-- One chunk gathered: a signature leaves the rest alone, any other chunk is signed. -/
def Takes (toSpec : α → ChunkSpec) (g : Gathered α) (chunk : ChunkView) (g' : Gathered α) : Prop :=
  (chunk.kind = .signatures ∧ g'.signable = g.signable ∧ g'.log = g.log) ∨
    (chunk.kind ≠ .signatures ∧ g'.signable.map toSpec = g.signable.map toSpec ++ [chunk.spec] ∧
      g'.log = relog g.log chunk.spec)

/-- What is gathered of all chunks, from what is gathered of each. -/
theorem signable_of_foldlM {toSpec : α → ChunkSpec}
    {f : Gathered α → ChunkView → Except AssimilationError (Gathered α)}
    (hf : ∀ {g chunk g'}, f g chunk = .ok g' → Takes toSpec g chunk g') :
    ∀ {chunks : List ChunkView} {g g' : Gathered α}, chunks.foldlM f g = .ok g' →
      g'.signable.map toSpec = g.signable.map toSpec ++
        (chunks.filter (·.kind ≠ .signatures)).map ChunkView.spec ∧
      g'.log = ((chunks.filter (·.kind ≠ .signatures)).map ChunkView.spec).foldl relog g.log
  | [], g, g', h => by
      obtain rfl := Except.ok.inj h
      simp
  | chunk :: chunks, g, g', h => by
      rw [List.foldlM_cons, bind_eq_ok] at h
      obtain ⟨middle, hchunk, hrest⟩ := h
      obtain ⟨hsignable, hlog⟩ := signable_of_foldlM hf hrest
      rcases hf hchunk with ⟨hkind, hs, hl⟩ | ⟨hkind, hs, hl⟩
      · rw [List.filter_cons_of_neg (by simp [hkind]), hsignable, hlog, hs, hl]
        exact ⟨rfl, rfl⟩
      · rw [List.filter_cons_of_pos (by simp [hkind]), hsignable, hlog, hs, hl, List.map_cons,
          List.append_assoc]
        exact ⟨rfl, rfl⟩

/-- A signature is gathered apart from what is signed. -/
theorem sign_takes {toSpec : α → ChunkSpec} {g g' : Gathered α} {bytes : Bytes}
    (hkind : chunk.kind = .signatures) (h : g.sign bytes = .ok g') : Takes toSpec g chunk g' := by
  simp only [Gathered.sign, bind_eq_ok, exists_unit, refuse_eq_ok, pure_eq_ok] at h
  obtain ⟨signature, -, -, rfl⟩ := h
  exact .inl ⟨hkind, rfl, rfl⟩

/-- An embedded chunk, as it was given. -/
theorem spec_embedded {bytes : Bytes} (h : chunk.storage = .embedded bytes) :
    chunk.spec = ⟨chunk.kind, .embedded bytes⟩ := by
  rw [ChunkView.spec, h]

theorem kind_spec (c : ChunkView) : c.spec.kind = c.kind := by
  rw [ChunkView.spec]
  split <;> rfl

/-- A chunk that is no log leaves the log. -/
theorem relog_of_ne {log : Option LogEntry} (h : chunk.kind ≠ .assimilationLog) :
    relog log chunk.spec = log := by
  unfold relog
  split
  · next hkind _ => exact absurd ((kind_spec chunk).symm.trans hkind) h
  · rfl

/-- A log replaces the one before it. -/
theorem relog_of_log {log : Option LogEntry} {bytes : Bytes} {entry : LogEntry}
    (hkind : chunk.kind = .assimilationLog) (hstorage : chunk.storage = .embedded bytes)
    (h : decodeAssimilationLog bytes = .ok entry) : relog log chunk.spec = some entry := by
  rw [spec_embedded hstorage, hkind]
  change (decodeAssimilationLog bytes).toOption.or log = some entry
  rw [h]
  rfl

/-- A chunk that is put behind what is signed so far. -/
theorem takes_append {toSpec : α → ChunkSpec} {g : Gathered α} {a : α} {log : Option LogEntry}
    (hkind : chunk.kind ≠ .signatures) (hspec : toSpec a = chunk.spec)
    (hlog : log = relog g.log chunk.spec) :
    Takes toSpec g chunk { g with signable := g.signable ++ [a], log } := by
  refine .inr ⟨hkind, ?_, hlog⟩
  rw [List.map_append, List.map_singleton, hspec]

theorem gather_takes {g g' : Gathered (SectionKind × Bytes)} (h : gather g chunk = .ok g') :
    Takes embed g chunk g' := by
  unfold gather at h
  split at h
  · exact nomatch h
  · next bytes hstorage =>
    split at h
    · next hkind => exact sign_takes hkind h
    · next hkind =>
      have hspec := (spec_embedded hstorage).symm
      split at h
      · next hlog =>
        simp only [bind_eq_ok, pure_eq_ok] at h
        obtain ⟨entry, hentry, rfl⟩ := h
        exact takes_append hkind hspec (relog_of_log hlog hstorage hentry).symm
      · next hlog =>
        obtain rfl := Except.ok.inj h
        exact takes_append hkind hspec (relog_of_ne hlog).symm

theorem gatherThin_takes {g g' : Gathered ThinPackageChunk} (h : gatherThin g chunk = .ok g') :
    Takes id g chunk g' := by
  unfold gatherThin at h
  split at h
  · next hstorage =>
    simp only [bind_eq_ok, exists_unit, refuse_eq_ok, pure_eq_ok, not_not] at h
    obtain ⟨hkind, rfl⟩ := h
    have hspec : chunk.spec = ⟨chunk.kind, .external chunk.logicalLen chunk.hash⟩ := by
      rw [ChunkView.spec, hstorage]
    have hsigned : chunk.kind ≠ .signatures := fun h => by cases hkind.symm.trans h
    have hlog : chunk.kind ≠ .assimilationLog := fun h => by cases hkind.symm.trans h
    exact takes_append hsigned hspec.symm (relog_of_ne hlog).symm
  · next bytes hstorage =>
    split at h
    · next hkind => exact sign_takes hkind h
    · next hkind =>
      have hspec := (spec_embedded hstorage).symm
      split at h
      · next hlog =>
        simp only [bind_eq_ok, exists_unit, refuse_eq_ok, pure_eq_ok] at h
        obtain ⟨entry, hentry, -, rfl⟩ := h
        exact takes_append hkind hspec (relog_of_log hlog hstorage hentry).symm
      · next hlog =>
        obtain rfl := Except.ok.inj h
        exact takes_append hkind hspec (relog_of_ne hlog).symm

end Gathering

/-! ## Accepted packages -/

section Accepted

variable {ed : Ed25519} {key : Block 32} {package : NativePackage} {view : CapsuleView}
  {message : Bytes} {signature : Block 64}

/-- **What acceptance says**: the signature holds for the chunks, and they say what the package
says. -/
structure Accepted (ed : Ed25519) (key : Block 32) (package : NativePackage) (view : CapsuleView)
    (message : Bytes) (signature : Block 64) : Prop where
  read : CapsuleView.read package.nativeCapsule = .ok view
  verified : ed.verify key message signature = true
  payload : Payload view.kind (signed view) message
  log : (signed view).foldl relog none = some (package.assetId, package.version, package.kind)
  capability : package.capability = match package.kind with
    | .capability => capabilityOf (signed view)
    | .intelligence => none

/-- The message over what is gathered is the payload of the chunks. -/
theorem payload_of_gather {gathered : Gathered (SectionKind × Bytes)} (hkind : view.kind = .full)
    (hgathered : view.chunks.foldlM gather .empty = .ok gathered)
    (hmessage : sectionSigningPayload gathered.signable = .ok message) :
    Payload view.kind (signed view) message ∧ gathered.log = (signed view).foldl relog none := by
  obtain ⟨hsignable, hlog⟩ := signable_of_foldlM gather_takes hgathered
  rw [hkind]
  exact ⟨⟨gathered.signable, hsignable, hmessage⟩, hlog⟩

/-- The same for a thin package. -/
theorem payload_of_gatherThin {gathered : Gathered ThinPackageChunk} (hkind : view.kind = .thin)
    (hgathered : view.chunks.foldlM gatherThin .empty = .ok gathered)
    (hmessage : thinSectionSigningPayload gathered.signable = .ok message) :
    Payload view.kind (signed view) message ∧ gathered.log = (signed view).foldl relog none := by
  obtain ⟨hsignable, hlog⟩ := signable_of_foldlM gatherThin_takes hgathered
  rw [List.map_id] at hsignable
  rw [hkind]
  refine ⟨?_, hlog⟩
  rw [Payload, show signed view = gathered.signable from hsignable.symm]
  exact hmessage

/-- A signature that a package contains is for the payload of its chunks. -/
theorem Signs.payload (h : Signs package message signature)
    (hread : CapsuleView.read package.nativeCapsule = .ok view) :
    Payload view.kind (signed view) message := by
  cases h with
  | full hread' hkind hgathered _ hmessage =>
    obtain rfl := Except.ok.inj (hread'.symm.trans hread)
    exact (payload_of_gather hkind hgathered hmessage).1
  | thin hread' hkind hgathered _ hmessage =>
    obtain rfl := Except.ok.inj (hread'.symm.trans hread)
    exact (payload_of_gatherThin hkind hgathered hmessage).1

/-- When a signature is accepted. -/
theorem checkSignature_eq_ok {found : Option (Block 32 × Block 64)}
    {payload : Except AssimilationError Bytes} : checkSignature ed found key payload = .ok () ↔
      ∃ signature message, found = some (key, signature) ∧ payload = .ok message ∧
        ed.isKey key ∧ ed.verify key message signature = true := by
  simp only [checkSignature, bind_eq_ok, exists_unit, okOr_eq_ok, refuse_eq_ok, not_not,
    Prod.exists]
  constructor
  · rintro ⟨_, signature, rfl, rfl, message, hmessage, hkey, hverify⟩
    exact ⟨signature, message, rfl, hmessage, hkey, hverify⟩
  · rintro ⟨signature, message, rfl, hmessage, hkey, hverify⟩
    exact ⟨key, signature, rfl, rfl, message, hmessage, hkey, hverify⟩

/-- The capability chunks are among those that are signed. -/
theorem filter_signed (view : CapsuleView) :
    (signed view).filter (·.kind = .capabilities) =
      (view.chunks.filter (·.kind = .capabilities)).map ChunkView.spec := by
  rw [signed, List.filter_map, List.filter_filter]
  refine congrArg _ (List.filter_congr fun c _ => ?_)
  simp only [Function.comp_apply, kind_spec]
  by_cases h : c.kind = .capabilities <;> simp [h]

/-- The descriptor that is loaded stands in the only capability chunk. -/
theorem capabilityOf_of_load {descriptor : CapabilityDescriptor}
    (hread : CapsuleView.read package.nativeCapsule = .ok view)
    (h : loadNativeCapability package.nativeCapsule = .ok descriptor) :
    capabilityOf (signed view) = some descriptor := by
  simp only [loadNativeCapability, hread, Except.mapError, bind, Except.bind] at h
  rw [capabilityOf, filter_signed]
  split at h
  · next chunk hchunk =>
    rw [hchunk, List.map_singleton]
    split at h
    · next bytes hstorage =>
      rw [spec_embedded hstorage]
      simp only [h, Except.toOption]
    · cases h
  · cases h

/-- The descriptor that a package carries is the one that its chunks say. -/
theorem capability_of_checkKind (hread : CapsuleView.read package.nativeCapsule = .ok view)
    (h : checkKind package view = .ok ()) : package.capability = match package.kind with
      | .capability => capabilityOf (signed view)
      | .intelligence => none := by
  cases hkind : package.kind with
  | capability =>
    simp only [checkKind, hkind, bind_eq_ok, refuse_eq_ok, not_not] at h
    obtain ⟨descriptor, hload, hcapability⟩ := h
    rw [hcapability]
    exact (capabilityOf_of_load hread hload).symm
  | intelligence =>
    simp only [checkKind, hkind, bind_eq_ok, exists_unit, refuse_eq_ok] at h
    exact Option.not_isSome_iff_eq_none.1 h.1

/-- An accepted full package contains the signature that was checked. -/
theorem exists_signs (h : verifyNativePackage ed package key = .ok ()) : ∃ message signature,
    Signs package message signature ∧ ed.verify key message signature = true := by
  simp only [verifyNativePackage, bind_eq_ok, exists_unit, refuse_eq_ok, mapError_eq_ok, not_not,
    checkSignature_eq_ok] at h
  obtain ⟨-, view, hread, hkind, gathered, hgathered,
    ⟨signature, message, hsignature, hmessage, -, hverify⟩, -⟩ := h
  exact ⟨message, signature, .full hread hkind hgathered hsignature hmessage, hverify⟩

/-- What acceptance of a full package says. -/
theorem accepted_of_verify (h : verifyNativePackage ed package key = .ok ()) :
    ∃ view message signature, Accepted ed key package view message signature := by
  simp only [verifyNativePackage, bind_eq_ok, exists_unit, refuse_eq_ok, mapError_eq_ok, okOr_eq_ok,
    not_not, checkSignature_eq_ok, Prod.exists, not_or] at h
  obtain ⟨-, view, hread, hkind, gathered, hgathered,
    ⟨signature, message, -, hmessage, -, hverify⟩, assetId, version, kind, hlog,
    ⟨rfl, rfl, rfl⟩, hcheck⟩ := h
  obtain ⟨hpayload, hfold⟩ := payload_of_gather hkind hgathered hmessage
  exact ⟨view, message, signature, hread, hverify, hpayload, hfold.symm.trans hlog,
    capability_of_checkKind hread hcheck⟩

/-- What acceptance of any package says, with its shards at hand. -/
theorem accepted_of_verifyWithShards {shardStore : FileTensorShardStore}
    (h : verifyNativePackageWithShards ed package key shardStore = .ok ()) :
    ∃ view message signature, Accepted ed key package view message signature := by
  simp only [verifyNativePackageWithShards, bind_eq_ok, exists_unit, refuse_eq_ok,
    mapError_eq_ok] at h
  obtain ⟨hfields, view, hread, h⟩ := h
  split at h
  · exact accepted_of_verify h
  · simp only [bind_eq_ok, exists_unit, refuse_eq_ok, mapError_eq_ok, okOr_eq_ok, not_not,
      checkSignature_eq_ok, Prod.exists, not_or] at h hfields
    obtain ⟨hkind, gathered, hgathered, ⟨signature, message, -, hmessage, -, hverify⟩, assetId,
      version, kind, hlog, ⟨rfl, rfl, rfl⟩, -⟩ := h
    obtain ⟨-, -, -, hpackage, hcapability⟩ := hfields
    obtain ⟨hpayload, hfold⟩ := payload_of_gatherThin hkind hgathered hmessage
    refine ⟨view, message, signature, hread, hverify, hpayload, ?_, ?_⟩
    · rw [← hfold, hlog, hpackage]
    · rw [hpackage]
      exact Option.not_isSome_iff_eq_none.1 hcapability

theorem Verified.accepted (h : Verified ed key package) :
    ∃ view message signature, Accepted ed key package view message signature := by
  rcases h with h | ⟨shardStore, h⟩
  · exact accepted_of_verify h
  · exact accepted_of_verifyWithShards h

end Accepted

/-! ## The payloads are injective -/

section Payload

/-- What a signature says of a chunk: its kind, whether it is external, its length and its hash. -/
def summary (spec : ChunkSpec) : SectionKind × Bool × ℕ × Digest :=
  (spec.kind, CapsuleBuilder.isExternal spec.source, match spec.source with
    | .embedded bytes => bytes.length
    | .external logicalLen _ => logicalLen.toNat, ThinPackageChunk.hash spec)

/-- Records of one width, one after the other, are told apart by what each one says. -/
theorem map_eq_of_emits {α β γ ε : Type} {put : α → Put ε Unit} {n : ℕ} {say : α → γ}
    (hlen : ∀ {a b}, Emits (put a) b → b.length = n)
    (hsay : ∀ {a a' b}, Emits (put a) b → Emits (put a') b → say a = say a') :
    ∀ {l l' : List α} {b : Bytes}, l.length = l'.length → Emits (l.forM put) b →
      Emits (l'.forM put) b → l.map say = l'.map say
  | [], [], _, _, _, _ => rfl
  | [], _ :: _, _, h, _, _ => nomatch h
  | _ :: _, [], _, h, _, _ => nomatch h
  | a :: l, a' :: l', b, h, hb, hb' => by
      obtain ⟨b₁, h₁, b₂, h₂, rfl⟩ := emits_bind.1 hb
      obtain ⟨b₁', h₁', b₂', h₂', heq⟩ := emits_bind.1 hb'
      obtain ⟨rfl, rfl⟩ := List.append_inj heq ((hlen h₁).trans (hlen h₁').symm)
      rw [List.map_cons, List.map_cons, hsay h₁ h₁', map_eq_of_emits (β := β) hlen hsay
        (Nat.succ.inj h) h₂ h₂']

/-- A kind is told by its code. -/
theorem sectionCode_injective : Function.Injective sectionCode := by
  have hof : ∀ kind, sectionOf (sectionCode kind) = .ok kind := by
    intro kind
    cases kind <;> rfl
  intro kind kind' h
  exact Except.ok.inj ((hof kind).symm.trans ((congrArg sectionOf h).trans (hof kind')))

theorem code_eq {kind kind' : SectionKind}
    (h : leBytes 2 (sectionCode kind).toNat = leBytes 2 (sectionCode kind').toNat) :
    kind = kind' :=
  sectionCode_injective (UInt16.toNat_inj.1
    (leBytes_inj (sectionCode kind).toNat_lt (sectionCode kind').toNat_lt h))

/-- The record of a section: its kind, its length and its hash. -/
theorem emits_signedSection {native : SectionKind × Bytes} {b : Bytes}
    (h : Emits (signedSection native) b) : native.2.length < 2 ^ 64 ∧
      b = leBytes 2 (sectionCode native.1).toNat ++ (leBytes 8 native.2.length ++
        (sha256 native.2).bytes) := by
  simp only [signedSection, pushU16, pushUsize, emits_bind, emits_lift_bind, emits_tell, lenU64_eq_ok,
    pushU64] at h
  obtain ⟨_, rfl, _, ⟨_, ⟨len, hlen, rfl⟩, _, rfl, rfl⟩, rfl⟩ := h
  rw [← hlen]
  exact ⟨len.toNat_lt, rfl⟩

/-- The record of a chunk: its kind, its storage, its length and its hash. -/
theorem emits_signedChunk {chunk : ChunkSpec} {b : Bytes} (h : Emits (signedChunk chunk) b) :
    (summary chunk).2.2.1 < 2 ^ 64 ∧
      b = leBytes 2 (sectionCode chunk.kind).toNat ++ (leBytes 1 (ThinPackageChunk.storageTag
        chunk).toNat ++ (leBytes 1 0 ++ (leBytes 8 (summary chunk).2.2.1 ++
          (ThinPackageChunk.hash chunk).bytes))) := by
  obtain ⟨kind, source⟩ := chunk
  simp only [signedChunk, pushU16, pushU8, emits_bind, emits_lift_bind, emits_tell, pushU64] at h
  obtain ⟨_, rfl, _, ⟨_, rfl, _, ⟨_, rfl, _, ⟨len, hlen, _, rfl, _, rfl, rfl⟩, rfl⟩, rfl⟩, rfl⟩ := h
  have hsummary : (summary ⟨kind, source⟩).2.2.1 = len.toNat := by
    cases source with
    | embedded bytes => exact (lenU64_eq_ok.1 hlen).symm
    | external logicalLen hash => exact congrArg UInt64.toNat (Except.ok.inj hlen)
  rw [hsummary]
  exact ⟨len.toNat_lt, rfl⟩

/-- A record of a section says what its summary says. -/
theorem summary_of_signedSection {native native' : SectionKind × Bytes} {b : Bytes}
    (h : Emits (signedSection native) b) (h' : Emits (signedSection native') b) :
    summary (embed native) = summary (embed native') := by
  obtain ⟨hlt, rfl⟩ := emits_signedSection h
  obtain ⟨hlt', heq⟩ := emits_signedSection h'
  obtain ⟨hkind, heq⟩ := List.append_inj heq (by simp only [length_leBytes])
  obtain ⟨hlen, hhash⟩ := List.append_inj heq (by simp only [length_leBytes])
  have hlen : native.2.length = native'.2.length := leBytes_inj hlt hlt' hlen
  have hhash : sha256 native.2 = sha256 native'.2 := block_ext hhash
  simp only [summary, embed, CapsuleBuilder.isExternal, ThinPackageChunk.hash, code_eq hkind, hlen,
    hhash]

/-- A record of a chunk says what its summary says. -/
theorem summary_of_signedChunk {chunk chunk' : ChunkSpec} {b : Bytes}
    (h : Emits (signedChunk chunk) b) (h' : Emits (signedChunk chunk') b) :
    summary chunk = summary chunk' := by
  obtain ⟨hlt, rfl⟩ := emits_signedChunk h
  obtain ⟨hlt', heq⟩ := emits_signedChunk h'
  obtain ⟨hkind, heq⟩ := List.append_inj heq (by simp only [length_leBytes])
  obtain ⟨htag, heq⟩ := List.append_inj heq (by simp only [length_leBytes])
  obtain ⟨-, heq⟩ := List.append_inj heq rfl
  obtain ⟨hlen, hhash⟩ := List.append_inj heq (by simp only [length_leBytes])
  have hlen := leBytes_inj hlt hlt' hlen
  have hexternal : CapsuleBuilder.isExternal chunk.source =
      CapsuleBuilder.isExternal chunk'.source := by
    have hdiffer : leBytes 1 (0 : UInt8).toNat ≠ leBytes 1 (1 : UInt8).toNat := by decide
    obtain ⟨_, _ | _⟩ := chunk <;> obtain ⟨_, _ | _⟩ := chunk'
    · rfl
    · exact absurd htag hdiffer
    · exact absurd htag hdiffer.symm
    · rfl
  exact Prod.ext (code_eq hkind) (Prod.ext hexternal (Prod.ext hlen (block_ext hhash)))

/-- The message of a signature: its domain, the number of records and the records. -/
theorem records_of_written {α : Type} {put : α → Encoder} {domain message : Bytes} {l : List α}
    (h : written (do tell domain; pushList put l) = .ok message) :
    ∃ count body, l.length = count ∧ count < 2 ^ 32 ∧ Emits (l.forM put) body ∧
      message = domain ++ (leBytes 4 count ++ body) := by
  rw [written_eq_ok, emits_bind] at h
  obtain ⟨_, hdomain, _, hlist, rfl⟩ := h
  obtain ⟨n, hn, hlist⟩ := emits_lift_bind.1 hlist
  obtain ⟨_, hcount, body, hbody, rfl⟩ := emits_bind.1 hlist
  rw [emits_tell] at hdomain
  rw [pushU32, emits_tell] at hcount
  exact ⟨n.toNat, body, (lenU32_eq_ok.1 hn).symm, n.toNat_lt, hbody, by rw [hdomain, hcount]⟩

/-- Two lists of records behind one domain are told apart by what their records say. -/
theorem map_eq_of_written {α γ : Type} {put : α → Encoder} {domain message : Bytes} {n : ℕ}
    {say : α → γ} {l l' : List α} (hlen : ∀ {a b}, Emits (put a) b → b.length = n)
    (hsay : ∀ {a a' b}, Emits (put a) b → Emits (put a') b → say a = say a')
    (h : written (do tell domain; pushList put l) = .ok message)
    (h' : written (do tell domain; pushList put l') = .ok message) : l.map say = l'.map say := by
  obtain ⟨count, body, hcount, hlt, hbody, rfl⟩ := records_of_written h
  obtain ⟨count', body', hcount', hlt', hbody', heq⟩ := records_of_written h'
  obtain ⟨heqCount, rfl⟩ := List.append_inj (List.append_cancel_left heq)
    (by simp only [length_leBytes])
  obtain rfl := leBytes_inj hlt hlt' heqCount
  exact map_eq_of_emits (β := α) hlen hsay (hcount.trans hcount'.symm) hbody hbody'

/-- The two domains differ, so no message is of both. -/
theorem not_both_domains {α β : Type} {put : α → Encoder} {put' : β → Encoder} {message : Bytes}
    {l : List α} {l' : List β}
    (h : written (do tell (utf8 "NTD97-NATIVE-ASSET-SIGN-v1"); pushList put l) = .ok message)
    (h' : written (do tell (utf8 "NTD97-NATIVE-ASSET-SIGN-v2"); pushList put' l') = .ok message) :
    False := by
  obtain ⟨_, _, _, _, _, rfl⟩ := records_of_written h
  obtain ⟨_, _, _, _, _, heq⟩ := records_of_written h'
  have hdomains := List.append_inj_left heq (by decide +kernel)
  exact absurd hdomains (by decide +kernel)

/-- **The payloads are injective**: one message is over capsules of one kind, and over chunks of
which it says the same. -/
theorem Payload.summary_eq {kind kind' : CapsuleKind} {specs specs' : List ChunkSpec}
    {message : Bytes} (h : Payload kind specs message) (h' : Payload kind' specs' message) :
    kind = kind' ∧ specs.map summary = specs'.map summary := by
  cases kind with
  | state => exact h.elim
  | full =>
    obtain ⟨sections, rfl, hmessage⟩ := h
    cases kind' with
    | state => exact h'.elim
    | thin => exact (not_both_domains hmessage h').elim
    | full =>
      obtain ⟨sections', rfl, hmessage'⟩ := h'
      refine ⟨rfl, ?_⟩
      rw [List.map_map, List.map_map]
      refine map_eq_of_written (n := 42) (fun hb => ?_) summary_of_signedSection hmessage hmessage'
      rw [(emits_signedSection hb).2]
      simp only [List.length_append, length_leBytes, Block.length_eq]
  | thin =>
    cases kind' with
    | state => exact h'.elim
    | full =>
      obtain ⟨sections', rfl, hmessage'⟩ := h'
      exact (not_both_domains hmessage' h).elim
    | thin =>
      refine ⟨rfl, map_eq_of_written (n := 44) (fun hb => ?_) summary_of_signedChunk h h'⟩
      rw [(emits_signedChunk hb).2]
      simp only [List.length_append, length_leBytes, Block.length_eq]

/-- A chunk of these embeds the contents. -/
def Embeds (specs : List ChunkSpec) (bytes : Bytes) : Prop :=
  ∃ kind, (⟨kind, .embedded bytes⟩ : ChunkSpec) ∈ specs

/-- Chunks of which a signature says the same are the same, or two of their contents collide. -/
theorem eq_or_collides_of_summary : ∀ {specs specs' : List ChunkSpec},
    specs.map summary = specs'.map summary → specs = specs' ∨
      ∃ bytes bytes', Embeds specs bytes ∧ Embeds specs' bytes' ∧ Collides bytes bytes'
  | [], [], _ => .inl rfl
  | [], _ :: _, h => nomatch h
  | _ :: _, [], h => nomatch h
  | spec :: specs, spec' :: specs', h => by
      obtain ⟨hhead, htail⟩ := List.cons.inj h
      rcases eq_or_collides_of_summary htail with rfl | ⟨bytes, bytes', ⟨k, hm⟩, ⟨k', hm'⟩, hc⟩
      · obtain ⟨kind, source⟩ := spec
        obtain ⟨kind', source'⟩ := spec'
        obtain ⟨hkind, hrest⟩ := Prod.mk.inj hhead
        obtain rfl : kind = kind' := hkind
        obtain ⟨hexternal, hrest⟩ := Prod.mk.inj hrest
        obtain ⟨hlen, hhash⟩ := Prod.mk.inj hrest
        cases source with
        | embedded bytes =>
          cases source' with
          | external => exact nomatch hexternal
          | embedded bytes' =>
            rcases eq_or_collides (x := bytes) (y := bytes') hhash with rfl | hcollides
            · exact .inl rfl
            · exact .inr ⟨bytes, bytes', ⟨kind, .head _⟩, ⟨kind, .head _⟩, hcollides⟩
        | external len hash =>
          cases source' with
          | embedded => exact nomatch hexternal
          | external len' hash' =>
            obtain rfl : len = len' := UInt64.toNat_inj.1 hlen
            obtain rfl : hash = hash' := hhash
            exact .inl rfl
      · exact .inr ⟨bytes, bytes', ⟨k, .tail _ hm⟩, ⟨k', .tail _ hm'⟩, hc⟩

end Payload

/-! ## Authenticity -/

/-- What a capsule lists of a chunk: its kind, length and hash, and whether it is embedded. -/
def listed (chunk : ChunkView) : SectionKind × UInt64 × Digest × Bool :=
  (chunk.kind, chunk.logicalLen, chunk.hash, chunk.storage ≠ .external)

/-- The chunks a capsule lists, up to where its signature stands. -/
def listing (view : CapsuleView) : List (SectionKind × UInt64 × Digest × Bool) :=
  (view.chunks.filter (·.kind ≠ .signatures)).map listed

/-- What a capsule lists is what its signature says. -/
theorem listing_eq {bytes : Bytes} {view : CapsuleView} (hread : CapsuleView.read bytes = .ok view) :
    listing view = ((signed view).map summary).map
      fun s => (s.1, UInt64.ofNat s.2.2.1, s.2.2.2, !s.2.1) := by
  rw [listing, signed, List.map_map, List.map_map]
  refine List.map_congr_left fun chunk hchunk => ?_
  have hmem := (List.mem_filter.1 hchunk).1
  obtain ⟨kind, logicalLen, hash, storage⟩ := chunk
  cases storage with
  | external => simp [listed, ChunkView.spec, summary, CapsuleBuilder.isExternal, ThinPackageChunk.hash]
  | embedded payload =>
    obtain ⟨rfl, hlen⟩ := embedded_of_read hread hmem rfl
    have hlen : logicalLen = UInt64.ofNat payload.length := by
      rw [← hlen, UInt64.ofNat_toNat]
    simp [listed, ChunkView.spec, summary, CapsuleBuilder.isExternal, ThinPackageChunk.hash, hlen]

/-- **Package authenticity**: if signatures hold under an identity's key only where a package it built
contains them, then an accepted package has the kind and the chunks of one it built, and says the
same of its asset, unless two embedded contents of the pair collide. -/
theorem package_authentic (ed : Ed25519) (seed : Block 32)
    (hideal : ∀ message signature, ed.verify (ed.verifyingKey seed) message signature = true →
      ∃ q, Issued ed (.fromSeed ed seed) q ∧ Signs q message signature)
    (p : NativePackage) (hp : Verified ed (ed.verifyingKey seed) p) :
    ∃ q, Issued ed (.fromSeed ed seed) q ∧ ∃ vp vq,
      CapsuleView.read p.nativeCapsule = .ok vp ∧ CapsuleView.read q.nativeCapsule = .ok vq ∧
      vp.kind = vq.kind ∧ listing vp = listing vq ∧
      ((p.assetId = q.assetId ∧ p.version = q.version ∧ p.kind = q.kind ∧
          p.capability = q.capability) ∨
        ∃ bytes bytes', Embeds (signed vp) bytes ∧ Embeds (signed vq) bytes' ∧
          Collides bytes bytes') := by
  obtain ⟨vp, message, signature, hacceptedp⟩ := hp.accepted
  obtain ⟨q, hissued, hsigns⟩ := hideal message signature hacceptedp.verified
  obtain ⟨vq, message', signature', hacceptedq⟩ := hissued.verified.accepted
  obtain ⟨hkind, hsummary⟩ :=
    hacceptedp.payload.summary_eq (hsigns.payload hacceptedq.read)
  refine ⟨q, hissued, vp, vq, hacceptedp.read, hacceptedq.read, hkind, ?_, ?_⟩
  · rw [listing_eq hacceptedp.read, listing_eq hacceptedq.read, hsummary]
  · refine (eq_or_collides_of_summary hsummary).imp_left fun hsame => ?_
    have hlog := hacceptedp.log
    rw [hsame, hacceptedq.log] at hlog
    obtain ⟨hid, hrest⟩ := Prod.mk.inj (Option.some.inj hlog)
    obtain ⟨hversion, hkind⟩ := Prod.mk.inj hrest
    refine ⟨hid.symm, hversion.symm, hkind.symm, ?_⟩
    rw [hacceptedp.capability, hacceptedq.capability, hsame, ← hkind]

/-! ## A package that is built -/

namespace Sample

def seed : Block 32 := ⟨List.replicate 32 7, by decide⟩

def signature : Block 64 := ⟨List.replicate 64 9, by decide⟩

def candidate : NativeCandidate where
  assetId := "a"
  version := 1
  regressions := [⟨"r", .adapterDigest (sha256 [1])⟩]
  body := .capability {
    id := ⟨"c"⟩
    version := 1
    domain := .web
    sideEffect := .readOnly
    verificationRequired := true
    rollbackSupported := false
    resumable := false
    requiredScopes := [] } ⟨"f", [1]⟩

def provenance : ProvenanceRecord where
  sourceUri := "u"
  sourceDigest := seed
  license := ⟨"l", ""⟩
  attribution := ""

def report : SandboxReport where
  isolated := true
  networkUsed := false
  externalWriteUsed := false
  passedRegressions := ["r"]

/-- The message of the sample's signature. -/
def message : Bytes :=
  (do
    let (own, _) ← candidateSections candidate
    let provenanceBytes ← encodeProvenance provenance
    let logBytes ← encodeAssimilationLog "a" 1 .capability "i" ["r"]
    sectionSigningPayload (own ++ [(SectionKind.provenance, provenanceBytes),
      (.assimilationLog, logBytes)])
  ).toOption.getD []

/-- A library that knows one signature, of one message. -/
def ed : Ed25519 where
  verifyingKey := id
  sign _ _ := signature
  isKey _ := true
  verify _ found given := decide (found = message ∧ given = signature)

def built : Except AssimilationError NativePackage :=
  buildNativePackage ed candidate provenance "i" report (.fromSeed ed seed)

/-- The descriptor of the sample. -/
def descriptor : CapabilityDescriptor where
  id := ⟨"c"⟩
  version := 1
  domain := .web
  sideEffect := .readOnly
  verificationRequired := true
  rollbackSupported := false
  resumable := false
  requiredScopes := []

def capabilityBytes : Bytes := (encodeCapabilityDescriptor descriptor).toOption.getD []

def adapterBytes : Bytes := (encodeAdapter "f" [1]).toOption.getD []

def provenanceBytes : Bytes := (encodeProvenance provenance).toOption.getD []

def logBytes : Bytes := (encodeAssimilationLog "a" 1 .capability "i" ["r"]).toOption.getD []

/-- The sections that are signed. -/
def sections : List (SectionKind × Bytes) :=
  [(.capabilities, capabilityBytes), (.adapters, adapterBytes), (.provenance, provenanceBytes),
    (.assimilationLog, logBytes)]

theorem length_zeros : (List.replicate 16 (0 : UInt8)).length = 16 := rfl

/-- The id of the capsule. -/
def capsuleId : Block 16 := (nativeCapsuleId "a" 1 seed).toOption.getD ⟨List.replicate 16 0, length_zeros⟩

def builder : CapsuleBuilder where
  kind := .full
  capsuleId := capsuleId
  baseRoot := none
  chunks := (sections ++ [(SectionKind.signatures, encodeSignature seed signature)]).map fun native =>
    ⟨native.1, .embedded native.2⟩

/-- The capsule, as it is written. -/
def file : Bytes := builder.write.toOption.getD []

/-- The package that is built. -/
def package : NativePackage where
  assetId := "a"
  version := 1
  kind := .capability
  nativeCapsule := file
  capsuleHash := sha256 file
  capability := some descriptor

/-- What the kernel computes of the sample. -/
theorem computed : ((encodeCapabilityDescriptor descriptor).toOption.isSome ∧
      (encodeAdapter "f" [1]).toOption.isSome ∧ (encodeProvenance provenance).toOption.isSome ∧
      (encodeAssimilationLog "a" 1 .capability "i" ["r"]).toOption.isSome ∧
      (nativeCapsuleId "a" 1 seed).toOption.isSome ∧ builder.write.toOption.isSome) ∧
    (decodeAssimilationLog logBytes).toOption = some ("a", 1, .capability) ∧
    (decodeSignature (encodeSignature seed signature)).toOption = some (seed, signature) ∧
    (decodeCapabilityDescriptor capabilityBytes).toOption = some descriptor ∧
    (sectionSigningPayload sections).toOption.isSome ∧
    candidate.validate.toOption = some () ∧ provenance.validate.toOption = some () ∧
    (validateReport candidate report).toOption = some () ∧ ¬ isBlank "i" = true ∧
    ¬ isBlank "a" = true := by
  decide +kernel

/-- What is written for the sample. -/
theorem encoded : encodeCapabilityDescriptor descriptor = .ok capabilityBytes ∧
    encodeAdapter "f" [1] = .ok adapterBytes ∧ encodeProvenance provenance = .ok provenanceBytes ∧
    encodeAssimilationLog "a" 1 .capability "i" ["r"] = .ok logBytes ∧
    nativeCapsuleId "a" 1 seed = .ok capsuleId ∧ builder.write = .ok file := by
  obtain ⟨⟨hdescriptor, hadapter, hprovenance, hlog, hid, hwrite⟩, -⟩ := computed
  exact ⟨eq_ok_getD hdescriptor _, eq_ok_getD hadapter _, eq_ok_getD hprovenance _,
    eq_ok_getD hlog _, eq_ok_getD hid _, eq_ok_getD hwrite _⟩

/-- What is read back of it. -/
theorem decoded : decodeAssimilationLog logBytes = .ok ("a", 1, .capability) ∧
    decodeSignature (encodeSignature seed signature) = .ok (seed, signature) ∧
    decodeCapabilityDescriptor capabilityBytes = .ok descriptor := by
  obtain ⟨-, hlog, hsignature, hdescriptor, -⟩ := computed
  exact ⟨toOption_eq_some hlog, toOption_eq_some hsignature, toOption_eq_some hdescriptor⟩

theorem sections_eq : candidateSections candidate = .ok (sections.take 2, some descriptor) := by
  change (do
    let capability ← encodeCapabilityDescriptor descriptor
    let adapter ← encodeAdapter "f" [1]
    return ([(SectionKind.capabilities, capability), (.adapters, adapter)], some descriptor)) = _
  rw [encoded.1, encoded.2.1]
  rfl

theorem message_eq : sectionSigningPayload sections = .ok message := by
  have hpayload := eq_ok_getD computed.2.2.2.2.1 []
  rw [message, sections_eq, encoded.2.2.1, encoded.2.2.2.1]
  exact hpayload

/-- The walk over the chunks, as they are written. -/
theorem gathered_eq : (builder.chunks.map view).foldlM gather .empty =
    .ok ⟨sections, some (seed, signature), some ("a", 1, .capability)⟩ := by
  simp only [builder, sections, List.cons_append, List.nil_append, List.map_cons, List.map_nil, view,
    List.foldlM_cons, List.foldlM_nil, gather, Gathered.sign, Gathered.empty, decoded.1,
    decoded.2.1]
  rfl

theorem load_eq : loadNativeCapability file = .ok descriptor := by
  obtain ⟨_, _, _, _, hsealed⟩ := exists_sealed_of_write encoded.2.2.2.2.2
  rw [loadNativeCapability, hsealed.read]
  exact decoded.2.2

/-- The package passes its own check: what is hashed twice is hashed alike. -/
theorem verify_package : verifyNativePackage ed package seed = .ok () := by
  obtain ⟨_, _, _, _, hsealed⟩ := exists_sealed_of_write encoded.2.2.2.2.2
  have hcapsule : package.nativeCapsule = file := by rw [package]
  have hhash : package.capsuleHash = sha256 file := by rw [package]
  have hverify : ed.verify seed message signature = true := by
    simp only [ed, and_self, decide_true]
  have hsigned : checkSignature ed (some (seed, signature)) seed (sectionSigningPayload sections) =
      .ok () := checkSignature_eq_ok.2 ⟨signature, message, rfl, message_eq, rfl, hverify⟩
  have hkind (root : Digest) : checkKind package (viewOf builder .current root) = .ok () := by
    simp only [checkKind, package, load_eq, bind_eq_ok]
    exact ⟨descriptor, rfl, rfl⟩
  simp only [verifyNativePackage, hcapsule, hhash, bind_eq_ok, exists_unit, refuse_eq_ok,
    mapError_eq_ok, okOr_eq_ok, not_not, Prod.exists, not_or]
  have hblank : ¬ isBlank "a" = true := computed.2.2.2.2.2.2.2.2.2
  exact ⟨⟨hblank, by decide, trivial⟩, _, hsealed.read, rfl, _, gathered_eq, hsigned,
    "a", 1, .capability, rfl, ⟨rfl, rfl, rfl⟩, hkind _⟩

theorem built_eq : built = .ok package := by
  obtain ⟨-, -, -, -, -, hcandidate, hsource, hreport, himporter, -⟩ := computed
  obtain ⟨-, -, hprovenance, hlog, hid, hwrite⟩ := encoded
  simp only [built, buildNativePackage, bind_eq_ok, exists_unit, refuse_eq_ok, mapError_eq_ok,
    pure_eq_ok, Prod.exists]
  exact ⟨toOption_eq_some hcandidate, toOption_eq_some hsource, toOption_eq_some hreport, himporter,
    _, hprovenance, _, hlog, _, _, sections_eq, _, message_eq, _, hid, _, hwrite, verify_package, rfl⟩

/-- The sample is built, and authenticity holds of it. -/
theorem package_authentic_built : ∃ p, built = .ok p ∧
    ∃ q, Issued ed (.fromSeed ed seed) q ∧ ∃ vp vq,
      CapsuleView.read p.nativeCapsule = .ok vp ∧ CapsuleView.read q.nativeCapsule = .ok vq ∧
      vp.kind = vq.kind ∧ listing vp = listing vq := by
  obtain ⟨p, hp⟩ : ∃ p, built = .ok p := ⟨package, built_eq⟩
  have hverify := verify_of_build hp
  obtain ⟨_, _, hsigns, hknown⟩ := exists_signs hverify
  obtain ⟨rfl, rfl⟩ := of_decide_eq_true hknown
  obtain ⟨q, hq, vp, vq, hvp, hvq, hkind, hlisting, -⟩ :=
    package_authentic ed seed (fun found given hfound => by
      obtain ⟨rfl, rfl⟩ := of_decide_eq_true hfound
      exact ⟨p, .full hp, hsigns⟩) p (.inl hverify)
  exact ⟨p, hp, q, hq, vp, vq, hvp, hvq, hkind, hlisting⟩

end Sample

end Package

end NTD97
