import Mathlib
import NTD97.Activation.Agree
import NTD97.Activation.Resolver
import NTD97.Executor.Lazy
import NTD97.Gguf.Executes
import NTD97.Gguf.Streamed

/-!
# Gguf/OnDevice — a streamed model runs where its shards are

    model ──stream──▸ store ▪ capsule ──ship──▸ device ──activate──▸ graph ▪ resolver ──run──▸ logits

A streamed model is shipped as a thin capsule, bare or sealed in a package.  On a device that holds
the shards, the capsule activates; the activated graph is given tokens alone, and reads each tensor
from its shard.  What it answers is the forward pass of the model.
-/

namespace NTD97

open Guard Wire Slices GraphExecutor Activation NativeProgram

/-! ## Shipping -/

def streamedLlamaThinCapsule (capsuleId : Block 16) (model : StreamedLoweredLlamaModel) :
    Except GgufError Bytes := do
  refuse (model.tensorShards = []) (.nativeLowering
    (.text "streamed model has no external tensor shards"))
  let graphBytes ← (encodeGraph model.graph).mapError fun e => GgufError.nativeLowering (.graph e)
  let descriptorBytes ← (encodeTensorDescriptors .current
    (model.tensorShards.map TensorShardRef.descriptor)).mapError fun e =>
      GgufError.nativeLowering (.descriptors e)
  let tokenizerBytes ← (encodeNativeTokenizer model.tokenizer).mapError fun e =>
    GgufError.nativeLowering (.tokenizer e)
  let distributionOutput ← lenU32 (ε := GgufError) model.distributionOutput
  let vocabularySize ← lenU32 (ε := GgufError) model.vocabularySize
  let manifestBytes ← (encodeNativeGenerativeManifest {
    tokenInput := model.tokenInput, distributionOutput, vocabularySize }).mapError fun e =>
      GgufError.nativeLowering (.generativeManifest e)
  let builder : CapsuleBuilder := {
    kind := .thin
    capsuleId
    baseRoot := none
    chunks := [⟨.graph, .embedded graphBytes⟩, ⟨.tensors, .embedded descriptorBytes⟩] ++
      (model.tensorShards.map fun shard => ⟨.tensors, .external shard.logicalLen shard.hash⟩) ++
      [⟨.tokenizer, .embedded tokenizerBytes⟩, ⟨.generativeManifest, .embedded manifestBytes⟩] }
  builder.write.mapError fun e => GgufError.nativeLowering (.thinCapsule e)

/-- **A capsule that ships a streamed model**, bare or in a package. -/
inductive Ships (model : StreamedLoweredLlamaModel) : Bytes → Prop where
  | capsule {capsuleId : Block 16} {nativeCapsule : Bytes}
      (h : streamedLlamaThinCapsule capsuleId model = .ok nativeCapsule) : Ships model nativeCapsule
  | package {ed : Ed25519} {spec : StreamedPackageSpec} {provenance : ProvenanceRecord}
      {report : SandboxReport} {shardStore : FileTensorShardStore}
      {identity : AssimilationIdentity} {package : NativePackage}
      (h : buildStreamedNativePackage ed spec model provenance report shardStore identity =
        .ok package) : Ships model package.nativeCapsule

/-- The manifest of a streamed model. -/
def StreamedLoweredLlamaModel.manifest (self : StreamedLoweredLlamaModel) :
    NativeGenerativeManifest where
  tokenInput := self.tokenInput
  distributionOutput := UInt32.ofNat self.distributionOutput
  vocabularySize := UInt32.ofNat self.vocabularySize

/-- The chunk of a shard that is elsewhere. -/
def shardChunk (bytes : Bytes) : ChunkView :=
  Capsule.view ⟨.tensors, .external (UInt64.ofNat bytes.length) (sha256 bytes)⟩

/-- **A capsule with these sections**, among chunks that its loader passes over. -/
structure Contains (v : CapsuleView) (s : Sections) : Prop where
  kind : v.kind = .thin
  graph : v.chunks.filter (·.kind = .graph) = [Capsule.view ⟨.graph, .embedded s.graph⟩]
  tokenizer : v.chunks.filter (·.kind = .tokenizer) =
    [Capsule.view ⟨.tokenizer, .embedded s.tokenizer⟩]
  manifest : v.chunks.filter (·.kind = .generativeManifest) =
    [Capsule.view ⟨.generativeManifest, .embedded s.manifest⟩]
  tensors : v.chunks.filter (·.kind = .tensors) =
    Capsule.view ⟨.tensors, .embedded s.table⟩ :: s.shards.map shardChunk

section Shipping

variable {model : StreamedLoweredLlamaModel} {nativeCapsule : Bytes} {tensors : List NativeTensor}
  {encoded : List Bytes} {builder : CapsuleBuilder}

theorem view_kind (spec : ChunkSpec) : (Capsule.view spec).kind = spec.kind := by
  obtain ⟨kind, source⟩ := spec
  cases source <;> rfl

/-- The chunks of a kind are those that were written with it. -/
theorem filter_view (kind : SectionKind) (chunks : List ChunkSpec) :
    (chunks.map Capsule.view).filter (·.kind = kind) =
      (chunks.filter (·.kind = kind)).map Capsule.view := by
  rw [List.filter_map]
  refine congrArg (List.map Capsule.view) (List.filter_congr fun spec _ => ?_)
  rw [Function.comp_apply, view_kind]

/-- **What is written around the sections is read as such a capsule.** -/
theorem contains_of_write (s : Sections) (others : List ChunkSpec)
    (hwrite : builder.write = .ok nativeCapsule)
    (hkind : builder.kind = .thin)
    (hchunks : builder.chunks =
      [⟨.graph, .embedded s.graph⟩, ⟨.tensors, .embedded s.table⟩] ++
      (s.shards.map fun bytes => ⟨.tensors, .external (UInt64.ofNat bytes.length) (sha256 bytes)⟩) ++
      ([⟨.tokenizer, .embedded s.tokenizer⟩, ⟨.generativeManifest, .embedded s.manifest⟩] ++ others))
    (hothers : ∀ chunk ∈ others, chunk.kind = .provenance ∨ chunk.kind = .assimilationLog ∨
      chunk.kind = .signatures) :
    ∃ v, CapsuleView.read nativeCapsule = .ok v ∧ Contains v s := by
  obtain ⟨header, manifest, index, body, hsealed⟩ := Capsule.exists_sealed_of_write hwrite
  have hothers (kind : SectionKind) (h₁ : kind ≠ .provenance) (h₂ : kind ≠ .assimilationLog)
      (h₃ : kind ≠ .signatures) : others.filter (·.kind = kind) = [] := by
    rw [List.filter_eq_nil_iff]
    rintro chunk hchunk hkind
    have hkind' := of_decide_eq_true hkind
    rcases hothers chunk hchunk with h | h | h <;> simp_all
  have hshards (kind : SectionKind) (h : kind ≠ .tensors) :
      (s.shards.map fun bytes => (⟨.tensors, .external (UInt64.ofNat bytes.length)
        (sha256 bytes)⟩ : ChunkSpec)).filter (·.kind = kind) = [] := by
    simp [List.filter_eq_nil_iff, h.symm]
  have hall : (s.shards.map fun bytes => (⟨.tensors, .external (UInt64.ofNat bytes.length)
      (sha256 bytes)⟩ : ChunkSpec)).filter (·.kind = .tensors) = s.shards.map fun bytes =>
        ⟨.tensors, .external (UInt64.ofNat bytes.length) (sha256 bytes)⟩ := by
    simp [List.filter_eq_self]
  refine ⟨_, hsealed.read, hkind, (filter_view ..).trans ?_, (filter_view ..).trans ?_,
    (filter_view ..).trans ?_, (filter_view ..).trans ?_⟩ <;> rw [hchunks]
  · simp [List.filter_append, hothers, hshards]
  · simp [List.filter_append, hothers, hshards]
  · simp [List.filter_append, hothers, hshards]
  · simp [List.filter_append, hothers, hall, shardChunk]

/-- What a list of shards is made of, on one side. -/
theorem map_zipWith_shardOf {α : Type} {f : TensorShardRef → α}
    (hencoded : List.Forall₂ (fun tensor bytes => encodeNativeTensor .current tensor = .ok bytes)
      tensors encoded) :
    (∀ g : NativeTensor → α, (∀ t b, f (ShardContents.shardOf t b) = g t) →
        (List.zipWith ShardContents.shardOf tensors encoded).map f = tensors.map g) ∧
      ∀ g : Bytes → α, (∀ t b, f (ShardContents.shardOf t b) = g b) →
        (List.zipWith ShardContents.shardOf tensors encoded).map f = encoded.map g := by
  induction hencoded with
  | nil => exact ⟨fun _ _ => rfl, fun _ _ => rfl⟩
  | cons _ _ ih =>
    refine ⟨fun g h => ?_, fun g h => ?_⟩
    · rw [List.zipWith_cons_cons, List.map_cons, List.map_cons, h, ih.1 g h]
    · rw [List.zipWith_cons_cons, List.map_cons, List.map_cons, h, ih.2 g h]

/-- **A capsule that ships a model contains it**: its graph, table, tokenizer and manifest as they are
encoded, and the digests of its tensors. -/
theorem Ships.contains (h : Ships model nativeCapsule)
    (hencoded : List.Forall₂ (fun tensor bytes => encodeNativeTensor .current tensor = .ok bytes)
      tensors encoded)
    (hshards : model.tensorShards = List.zipWith ShardContents.shardOf tensors encoded) :
    ∃ s v, Encodes model.graph model.tokenizer model.manifest
        (tensors.map NativeTensor.descriptor) tensors s ∧ s.shards = encoded ∧
      CapsuleView.read nativeCapsule = .ok v ∧ Contains v s ∧
      model.manifest.distributionOutput.toNat = model.distributionOutput ∧
      model.manifest.vocabularySize.toNat = model.vocabularySize := by
  have hdescriptors : model.tensorShards.map TensorShardRef.descriptor =
      tensors.map NativeTensor.descriptor := by
    rw [hshards]
    exact (map_zipWith_shardOf hencoded).1 _ fun _ _ => rfl
  have hexternal : (model.tensorShards.map fun shard =>
      (⟨.tensors, .external shard.logicalLen shard.hash⟩ : ChunkSpec)) = encoded.map fun bytes =>
        ⟨.tensors, .external (UInt64.ofNat bytes.length) (sha256 bytes)⟩ := by
    rw [hshards]
    exact (map_zipWith_shardOf hencoded).2 _ fun _ _ => rfl
  have hmanifest {output size : UInt32} (houtput : output.toNat = model.distributionOutput)
      (hsize : size.toNat = model.vocabularySize) :
      (⟨model.tokenInput, output, size⟩ : NativeGenerativeManifest) = model.manifest := by
    rw [StreamedLoweredLlamaModel.manifest, ← houtput, ← hsize, UInt32.ofNat_toNat,
      UInt32.ofNat_toNat]
  cases h with
  | capsule h =>
    simp only [streamedLlamaThinCapsule, bind_eq_ok, exists_unit, mapError_eq_ok, lenU32_eq_ok,
      hdescriptors, hexternal] at h
    obtain ⟨-, graph, hgraph, table, htable, tokenizer, htokenizer, output, houtput, size, hsize,
      manifest, hencode, hwrite⟩ := h
    rw [hmanifest houtput hsize] at hencode
    obtain ⟨v, hread, hcontains⟩ := contains_of_write ⟨graph, tokenizer, manifest, table, encoded⟩
      [] hwrite rfl (by rw [List.append_nil]) fun _ h => absurd h List.not_mem_nil
    exact ⟨_, v, ⟨hgraph, htokenizer, hencode, htable, hencoded⟩, rfl, hread, hcontains,
      hmanifest houtput hsize ▸ ⟨houtput, hsize⟩⟩
  | @package ed _ _ _ _ identity _ h =>
    simp only [buildStreamedNativePackage, bind_eq_ok, exists_unit, mapError_eq_ok, pure_eq_ok,
      lenU32_eq_ok, hdescriptors, hexternal] at h
    obtain ⟨-, -, -, -, table, htable, tokenizer, htokenizer, output, houtput, size, hsize,
      manifest, hencode, graph, hgraph, provenance, -, log, -, signable, -, _, -, _, hwrite, -,
      rfl⟩ := h
    rw [hmanifest houtput hsize] at hencode
    obtain ⟨v, hread, hcontains⟩ := contains_of_write ⟨graph, tokenizer, manifest, table, encoded⟩
      [⟨.provenance, .embedded provenance⟩, ⟨.assimilationLog, .embedded log⟩,
        ⟨.signatures, .embedded (Package.encodeSignature identity.verifyKey
          (identity.sign ed signable))⟩] hwrite rfl
      (by simp only [List.append_assoc, List.cons_append, List.nil_append]) (by simp)
    exact ⟨_, v, ⟨hgraph, htokenizer, hencode, htable, hencoded⟩, rfl, hread, hcontains,
      hmanifest houtput hsize ▸ ⟨houtput, hsize⟩⟩

end Shipping

/-! ## Activation -/

section Activating

variable {graph : Graph} {tokenizer : NativeTokenizerDescriptor} {manifest : NativeGenerativeManifest}
  {descriptors : List TensorDescriptor} {tensors ts : List NativeTensor} {s : Sections}
  {device : FileTensorShardStore} {v : CapsuleView} {nativeCapsule : Bytes} {l : List ChunkView}
  {a : ThinGenerativeActivation} {byId : BTreeMap UInt32 TensorDescriptor}
  {seen r : IdSet × BTreeMap UInt32 TensorShardRef}

/-- **What a capsule with these sections is activated to.** -/
theorem Contains.activate_eq_ok (hv : Contains v s)
    (h : Encodes graph tokenizer manifest descriptors tensors s)
    (hread : CapsuleView.read nativeCapsule = .ok v) :
    activateThinGenerativeCapsule nativeCapsule device = .ok a ↔
      validateManifest graph tokenizer manifest = .ok () ∧ ∃ byId r,
        descriptorMap descriptors = .ok byId ∧
        (s.shards.map shardChunk).foldlM (activateShard device graph byId) (∅, ∅) = .ok r ∧
        (byId.keys.forM fun id => refuse (id ∉ r.1) (.missingTensorShard id) :
          Except ThinActivationError Unit) = .ok () ∧ manifest.tokenInput.val ∉ r.2 ∧
        a = ⟨graph, tokenizer, manifest, r.2⟩ := by
  have htable : splitChunk (none, []) (Capsule.view ⟨.tensors, .embedded s.table⟩) =
      .ok (some descriptors, []) := by
    have hmagic := magic_table h.table
    have hdecode := decode_table h.table
    simp [-bind_pure_comp, splitChunk, Capsule.view, hmagic, hdecode, refuse]
  have hsplit : (v.chunks.filter (·.kind = .tensors)).foldlM splitChunk (none, []) =
      .ok (some descriptors, s.shards.map shardChunk) := by
    rw [hv.tensors, List.foldlM_cons, htable]
    refine foldlM_splitChunk ?_
    rw [List.forall_mem_map]
    exact fun _ _ => rfl
  simp only [activateThinGenerativeCapsule, hread, decodeSingleEmbedded_eq_ok hv.graph rfl,
    decodeSingleEmbedded_eq_ok hv.tokenizer rfl, decodeSingleEmbedded_eq_ok hv.manifest rfl,
    decodeGraph_of_encode h.graph, (decodeNativeTokenizer_of_encode h.tokenizer).1,
    decodeNativeGenerativeManifest_of_encode h.manifest, hsplit, hv.kind, bind_eq_ok, mapError_eq_ok,
    Except.ok.injEq, exists_eq_left', exists_unit, refuse_eq_ok, okOr_eq_ok, Option.some.injEq,
    not_not, true_and, pure_eq_ok]
  refine and_congr_right fun _ => exists_congr fun byId => ?_
  constructor
  · rintro ⟨hbyId, r, hr, hkeys, hfree, rfl⟩
    exact ⟨r, hbyId, hr, hkeys, hfree, rfl⟩
  · rintro ⟨r, hbyId, hr, hkeys, hfree, rfl⟩
    exact ⟨hbyId, r, hr, hkeys, hfree, rfl⟩

/-- Shards that are taken can be read. -/
theorem exists_carried : ∀ {l : List ChunkView} {seen : IdSet × BTreeMap UInt32 TensorShardRef},
    l.foldlM (activateShard device graph byId) seen = .ok r →
      ∃ ts, List.Forall₂ (Carried device) l ts
  | [], _, _ => ⟨[], .nil⟩
  | c :: l, seen, h => by
      rw [List.foldlM_cons, bind_eq_ok] at h
      obtain ⟨mid, hmid, h⟩ := h
      obtain ⟨ts, hts⟩ := exists_carried h
      simp only [activateShard, bind_eq_ok, mapError_eq_ok] at hmid
      obtain ⟨bytes, hbytes, t, ht, -⟩ := hmid
      exact ⟨t :: ts, .cons ⟨bytes, hbytes, ht⟩ hts⟩

/-- **Each value is bound to its shard**, and values that were bound before still are. -/
theorem getElem?_of_activateShards (hcarried : List.Forall₂ (Carried device) l ts)
    (h : l.foldlM (activateShard device graph byId) seen = .ok r) :
    (∀ k ∈ seen.2, r.2[k]? = seen.2[k]?) ∧
      List.Forall₂ (fun c t => ∀ value, t.graphValue = some value →
        r.2[value.val]? = some (shardRef c t)) l ts := by
  induction hcarried generalizing seen with
  | nil =>
    rw [List.foldlM_nil, pure_eq_ok] at h
    exact ⟨fun _ _ => h ▸ rfl, .nil⟩
  | cons hc hl ih =>
    rw [List.foldlM_cons, bind_eq_ok] at h
    obtain ⟨mid, hmid, h⟩ := h
    obtain ⟨-, -, value, hvalue, -, hfresh, rfl⟩ := (activateShard_eq_ok hc).1 hmid
    obtain ⟨hkeeps, hrest⟩ := ih h
    refine ⟨fun k hk => ?_, .cons (fun x hx => ?_) hrest⟩
    · have hne : value.val ≠ k := fun heq => hfresh (heq ▸ hk)
      rw [hkeeps k (Std.ExtTreeMap.mem_insert.2 (.inr hk)), Std.ExtTreeMap.getElem?_insert,
        if_neg (mt Std.compare_eq_iff_eq.1 hne)]
    · obtain rfl := Option.some.inj (hvalue.symm.trans hx)
      rw [hkeeps _ Std.ExtTreeMap.mem_insert_self, Std.ExtTreeMap.getElem?_insert_self]

end Activating

/-! ## The shards of a model -/

section Shards

variable {tensors ts : List NativeTensor} {encoded : List Bytes} {device : FileTensorShardStore}
  {graph : Graph} {tokenInput : ValueId} {w : LlamaWeights PlacedTensor}

/-- The device has these bytes, each under its digest. -/
def HasShards (device : FileTensorShardStore) (encoded : List Bytes) : Prop :=
  ∀ bytes ∈ encoded, device (sha256 bytes) = some bytes

/-- The device has something else under the digest of one of these. -/
def HasForged (device : FileTensorShardStore) (encoded : List Bytes) : Prop :=
  ∃ bytes ∈ encoded, ∃ held, device (sha256 bytes) = some held ∧ Collides bytes held

/-- Who has the shards has nothing else in their place. -/
theorem HasShards.not_hasForged (h : HasShards device encoded) : ¬ HasForged device encoded := by
  rintro ⟨bytes, hbytes, held, hheld, hne, -⟩
  exact hne (Option.some.inj ((h bytes hbytes).symm.trans hheld))

/-- **A device that has the shards carries each tensor.** -/
theorem HasShards.carried (h : HasShards device encoded)
    (hencoded : List.Forall₂ (fun tensor bytes => encodeNativeTensor .current tensor = .ok bytes)
      tensors encoded) (hlt : ∀ bytes ∈ encoded, bytes.length < 2 ^ 64)
    (hread : tensors.map asRead = tensors) :
    List.Forall₂ (Carried device) (encoded.map shardChunk) tensors := by
  rw [List.forall₂_map_left_iff, ← hread, List.forall₂_map_right_iff]
  have hall := (List.forall₂_and_left _ _).2
    ⟨fun bytes hbytes => And.intro (h bytes hbytes) (hlt bytes hbytes), hencoded.flip⟩
  refine hall.imp fun bytes t ⟨⟨hheld, hlen⟩, hencode⟩ => ⟨bytes, ?_, decode_shard hencode⟩
  exact FileTensorShardStore.readHashVerified_eq_ok.2 ⟨hheld, UInt64.toNat_ofNat_of_lt' hlen, rfl⟩

/-- **A device that carries anything for the shards has them**, or one that is forged. -/
theorem hasShards_of_carried (h : List.Forall₂ (Carried device) (encoded.map shardChunk) ts) :
    HasShards device encoded ∨ HasForged device encoded := by
  refine or_iff_not_imp_right.2 fun hnot bytes hbytes => ?_
  obtain ⟨i, hi, heq⟩ := List.getElem_of_mem (List.mem_map_of_mem (f := shardChunk) hbytes)
  obtain ⟨held, hheld, -⟩ := h.get hi (h.length_eq ▸ hi)
  obtain ⟨hfound, -, hhash⟩ := FileTensorShardStore.readHashVerified_eq_ok.1 hheld
  have hchunk : ((encoded.map shardChunk).get ⟨i, hi⟩).hash = sha256 bytes :=
    congrArg ChunkView.hash heq
  rw [hchunk] at hfound hhash
  obtain rfl := (eq_or_collides hhash.symm).resolve_right fun hcollides =>
    hnot ⟨bytes, hbytes, held, hfound, hcollides⟩
  exact hfound

/-- A declaration is found by its id. -/
theorem find?_of_nodup {decls : List ValueDecl} {decl : ValueDecl} (hnodup : (declared decls).Nodup)
    (hdecl : decl ∈ decls) : decls.find? (·.id = decl.id) = some decl := by
  induction decls with
  | nil => cases hdecl
  | cons first decls ih =>
    rw [declared, List.map_cons, List.nodup_cons] at hnodup
    rcases List.mem_cons.1 hdecl with rfl | hdecl
    · exact List.find?_cons_of_pos (decide_eq_true rfl)
    · have hne : first.id ≠ decl.id := fun heq =>
        hnodup.1 (heq ▸ List.mem_map_of_mem hdecl)
      rw [List.find?_cons_of_neg (by simpa using hne), ih hnodup.2 hdecl]

/-- **The tensors of a model match its graph.** -/
theorem WellPlaced.matched (h : WellPlaced graph w)
    (hinputs : graph.inputs = ⟨tokenInput, .tensor .i32 1⟩ :: w.toList.map PlacedTensor.decl) :
    Matched graph ((w.toList.map PlacedTensor.native).map NativeTensor.descriptor)
      (w.toList.map PlacedTensor.native) := by
  obtain ⟨hnodup, -, -⟩ := inScope_of_validate h.valid
  have hids : ((w.toList.map PlacedTensor.native).map fun t => t.descriptor.id).Nodup := by
    rw [List.map_map]
    exact h.ids_nodup
  refine ⟨?_, hids, fun t ht => List.mem_map_of_mem ht, fun d hd => ?_, ?_, ?_⟩
  · rw [List.map_map]
    exact hids
  · obtain ⟨t, ht, rfl⟩ := List.mem_map.1 hd
    exact ⟨t, ht, rfl⟩
  · have hbindings : bindings (w.toList.map PlacedTensor.native) =
        w.toList.map PlacedTensor.value := by
      rw [bindings, List.filterMap_map]
      exact List.filterMap_eq_map (f := PlacedTensor.value) ▸ rfl
    rw [hbindings]
    rw [hinputs, declared, List.map_cons, List.map_map, List.nodup_cons] at hnodup
    exact List.Nodup.of_map ValueId.val (by rw [List.map_map]; exact hnodup.2)
  · rw [List.forall_mem_map]
    intro p hp value hvalue
    obtain rfl := Option.some.inj hvalue
    have hfind : graph.inputs.find? (·.id = p.value) = some p.decl :=
      find?_of_nodup hnodup (hinputs ▸ List.mem_cons_of_mem _ (List.mem_map_of_mem hp))
    have hrank := (h.sound p hp).rank_lt
    refine bind_eq_ok.2 ⟨p.decl, okOr_eq_ok.2 hfind, refuse_eq_ok.2 (not_not.2 ?_)⟩
    rw [PlacedTensor.decl, GraphBuilder.typeOfRank]
    split
    · next hzero =>
      refine ⟨rfl, List.length_eq_zero_iff.1 ?_⟩
      exact (UInt8.toNat_ofNat_of_lt' hrank).symm.trans (congrArg UInt8.toNat hzero)
    · exact ⟨rfl, UInt8.toNat_ofNat_of_lt' hrank⟩

end Shards

/-! ## Devices -/

/-- What a lowering says of its tokens and its answer. -/
theorem answers_of_lowered {ops : F32Ops} {f16ToF32 : UInt16 → F32} {source : GgufByteSource}
    {model : GgufModel} {parts : LoweredLlamaParts}
    (h : (lowerLlamaModelInternal ops f16ToF32 none source model).run = some (.ok parts)) :
    parts.distributionOutput = 0 ∧ parts.graph.outputs.length = 1 ∧
      parts.vocabularySize = parts.tokenizer.tokens.length := by
  iterate 9 obtain ⟨_, -, h⟩ := run_bind_eq_ok.1 h
  obtain ⟨graph, hfinish, h⟩ := run_bind_eq_ok.1 h
  obtain rfl := Except.ok.inj (Option.some.inj h)
  obtain ⟨_, -, hgraph⟩ := bind_eq_ok.1 (run_liftM_eq_ok.1 hfinish)
  obtain rfl := pure_eq_ok.1 hgraph
  exact ⟨rfl, rfl, rfl⟩

/-- **A model that is shipped**: it is lowered, its tensors are encoded, and a capsule carries it with
the digests of these. -/
structure Shipped (ops : F32Ops) (f16ToF32 : UInt16 → F32) (source : GgufByteSource)
    (model : GgufModel) (lowered : LoweredLlamaModel) (encoded : List Bytes)
    (nativeCapsule : Bytes) : Prop where
  lowers : (lowerLlamaModelFromSource ops f16ToF32 source model).run = some (.ok lowered)
  encodes : List.Forall₂ (fun tensor bytes => encodeNativeTensor .current tensor = .ok bytes)
    lowered.tensors encoded
  length_lt : ∀ bytes ∈ encoded, bytes.length < 2 ^ 64
  ships : Ships (lowered.streamed (List.zipWith ShardContents.shardOf lowered.tensors
    encoded)).toStreamedLoweredLlamaModel nativeCapsule

namespace Shipped

variable {ops : F32Ops} {f16ToF32 : UInt16 → F32} {source : GgufByteSource} {model : GgufModel}
  {lowered : LoweredLlamaModel} {encoded : List Bytes} {nativeCapsule : Bytes}
  {device : FileTensorShardStore} {a : ThinGenerativeActivation}

/-- The tensors match the graph, all of them are bound, and none to the tokens. -/
theorem matched (h : Shipped ops f16ToF32 source model lowered encoded nativeCapsule) :
    Matched lowered.graph (lowered.tensors.map NativeTensor.descriptor) lowered.tensors ∧
      (∀ t ∈ lowered.tensors, t.graphValue ≠ none) ∧
      lowered.tokenInput ∉ bindings lowered.tensors ∧
      lowered.tensors.map asRead = lowered.tensors := by
  obtain ⟨parts, hparts, rfl⟩ := exists_parts h.lowers
  obtain ⟨w, -, hinputs, -, htensors, -, hplaced⟩ := lowerLlamaModelInternal_runsForward hparts
  obtain ⟨hnodup, -, -⟩ := inScope_of_validate hplaced.valid
  rw [hinputs, declared, List.map_cons, List.map_map, List.nodup_cons] at hnodup
  simp only [htensors rfl]
  refine ⟨hplaced.matched hinputs, ?_, fun htoken => hnodup.1 ?_, map_asRead ?_⟩
  · rw [List.forall_mem_map]
    exact fun p _ => Option.some_ne_none p.value
  · obtain ⟨t, ht, hvalue⟩ := List.mem_filterMap.1 htoken
    obtain ⟨p, hp, rfl⟩ := List.mem_map.1 ht
    exact List.mem_map.2 ⟨p, hp, congrArg ValueId.val (Option.some.inj hvalue)⟩
  · rw [List.forall_mem_map]
    exact fun p hp hvalue => (hplaced.sound p hp).bindable
      (congrArg ValueId.val (Option.some.inj hvalue))

/-- **When a shipped model is activated on a device**, and to what. -/
theorem activate_eq_ok (h : Shipped ops f16ToF32 source model lowered encoded nativeCapsule) :
    activateThinGenerativeCapsule nativeCapsule device = .ok a ↔ ∃ byId r,
      descriptorMap (lowered.tensors.map NativeTensor.descriptor) = .ok byId ∧
      (encoded.map shardChunk).foldlM (activateShard device lowered.graph byId) (∅, ∅) = .ok r ∧
      (byId.keys.forM fun id => refuse (id ∉ r.1) (.missingTensorShard id) :
        Except ThinActivationError Unit) = .ok () ∧ lowered.tokenInput.val ∉ r.2 ∧
      a = ⟨lowered.graph, lowered.tokenizer, (lowered.streamed (List.zipWith ShardContents.shardOf
        lowered.tensors encoded)).toStreamedLoweredLlamaModel.manifest, r.2⟩ := by
  obtain ⟨s, v, hencodes, hshards, hread, hv, houtput, hsize⟩ := h.ships.contains h.encodes rfl
  rw [hv.activate_eq_ok hencodes hread, and_iff_right, hshards]
  · rfl
  · obtain ⟨parts, hparts, rfl⟩ := exists_parts h.lowers
    obtain ⟨_, _, hinputs, _⟩ := lowerLlamaModelInternal_runsForward hparts
    obtain ⟨hzero, hone, hvocabulary⟩ := answers_of_lowered hparts
    refine validateManifest_eq_ok.2
      ⟨⟨⟨parts.tokenInput, .tensor .i32 1⟩, ?_, rfl⟩, ?_, hsize.trans hvocabulary⟩
    · exact hinputs ▸ List.find?_cons_of_pos (decide_eq_true rfl)
    · rw [houtput]
      exact hzero ▸ hone ▸ Nat.one_pos

/-- What activates on a device is there, or forged. -/
theorem hasShards_of_activate
    (h : Shipped ops f16ToF32 source model lowered encoded nativeCapsule)
    (ha : activateThinGenerativeCapsule nativeCapsule device = .ok a) :
    HasShards device encoded ∨ HasForged device encoded := by
  obtain ⟨byId, r, -, hr, -⟩ := h.activate_eq_ok.1 ha
  obtain ⟨ts, hcarried⟩ := exists_carried hr
  exact hasShards_of_carried hcarried

theorem exists_activate (h : Shipped ops f16ToF32 source model lowered encoded nativeCapsule)
    (hdevice : HasShards device encoded) :
    ∃ a, activateThinGenerativeCapsule nativeCapsule device = .ok a := by
  obtain ⟨hmatched, hbound, hfree, hread⟩ := h.matched
  obtain ⟨byId, r, hbyId, hr, hkeys, htoken⟩ := (matched_iff_activated
    (hdevice.carried h.encodes h.length_lt hread)).2 ⟨hmatched, hbound, hfree⟩
  exact ⟨_, h.activate_eq_ok.2 ⟨byId, r, hbyId, hr, hkeys, htoken, rfl⟩⟩

/-- **On a device that has the shards, each tensor of the model is resolved to what the loader makes
of it.** -/
theorem resolve_eq_some (h : Shipped ops f16ToF32 source model lowered encoded nativeCapsule)
    (hdevice : HasShards device encoded)
    (ha : activateThinGenerativeCapsule nativeCapsule device = .ok a) :
    a.graph = lowered.graph ∧ a.tokenizer = lowered.tokenizer ∧
      a.manifest.tokenInput = lowered.tokenInput ∧
      ∀ t ∈ lowered.tensors, ∀ value, t.graphValue = some value → ∀ kernels tensor,
        (FileBackedTensorResolver.fromActivation device a).resolve kernels value =
          .ok (some tensor) ↔ t.load kernels = .ok tensor := by
  obtain ⟨-, -, -, hread⟩ := h.matched
  obtain ⟨byId, r, -, hr, -, -, rfl⟩ := h.activate_eq_ok.1 ha
  refine ⟨rfl, rfl, rfl, fun t ht value hvalue kernels tensor => ?_⟩
  have hcarried := hdevice.carried h.encodes h.length_lt hread
  obtain ⟨-, hbound⟩ := getElem?_of_activateShards hcarried hr
  obtain ⟨i, hi, rfl⟩ := List.getElem_of_mem ht
  have hlength := hcarried.length_eq
  have hfound := hbound.get (hlength ▸ hi) hi value hvalue
  obtain ⟨bytes, hbytes, hdecode⟩ := hcarried.get (hlength ▸ hi) hi
  rw [FileBackedTensorResolver.resolve_eq_some]
  constructor
  · rintro ⟨reference, hreference, hload⟩
    obtain rfl := Option.some.inj (hfound.symm.trans hreference)
    obtain ⟨bytes', native, hbytes', hdecode', -, -, hload⟩ :=
      FileBackedTensorResolver.resolveShard_eq_ok.1 hload
    obtain rfl := Except.ok.inj (hbytes.symm.trans hbytes')
    obtain rfl := Except.ok.inj (hdecode.symm.trans hdecode')
    exact hload
  · intro hload
    exact ⟨_, hfound, FileBackedTensorResolver.resolveShard_eq_ok.2
      ⟨bytes, _, hbytes, hdecode, rfl, hvalue, hload⟩⟩

/-- **What is streamed into a store is shipped**, with the digests of its tensors; and where no two of
these are equal, the store has the shards. -/
theorem of_streamed {streamed : StreamedLlamaModel}
    (hlower : (lowerLlamaModelToShards ops f16ToF32 source model ShardContents.sink).run =
      some (.ok streamed)) (hships : Ships streamed.toStreamedLoweredLlamaModel nativeCapsule) :
    ∃ lowered encoded store, Shipped ops f16ToF32 source model lowered encoded nativeCapsule ∧
      ShardContents.storeTensors lowered.tensors = .ok (streamed.tensorShards, store) ∧
      ((encoded.map sha256).Nodup → HasShards store encoded) := by
  obtain ⟨parts', hparts', h⟩ := run_bind_eq_ok.1 hlower
  obtain ⟨_, -, h⟩ := run_bind_eq_ok.1 h
  obtain rfl := Except.ok.inj (Option.some.inj h)
  obtain ⟨parts, store, hparts, hnil, hstored, heq⟩ := lowerLlamaModelInternal_streams.1 hparts'
  obtain ⟨encoded, hencoded, hlt, hshards⟩ := ShardContents.exists_encoded hstored
  refine ⟨_, encoded, store, ⟨run_bind_eq_ok.2 ⟨parts, hparts, run_bind_eq_ok.2 ⟨(), ?_, rfl⟩⟩,
    hencoded, hlt, ?_⟩, hstored, fun hnodup => ?_⟩
  · rw [refuse, if_neg (not_not.2 hnil)]
    rfl
  · rw [heq, hshards] at hships
    exact hships
  · intro bytes hbytes
    obtain ⟨i, hi, rfl⟩ := List.getElem_of_mem hbytes
    have hencode := hencoded.get (hencoded.length_eq ▸ hi) hi
    refine ShardContents.held_of_nodup hstored ?_ _ (List.get_mem _ _) _ hencode
    rw [hshards, (map_zipWith_shardOf hencoded).2 sha256 fun _ _ => rfl]
    exact hnodup

end Shipped

section Running

variable {graph : Graph} {tokenInput : ValueId} {w : LlamaWeights PlacedTensor} {kernels : F32Ops}
  {resolver : TensorResolver} {tokens t : Tensor}

/-- What is loaded of a tensor fits its value. -/
theorem PlacedTensor.Sound.fits {p : PlacedTensor} (h : p.Sound)
    (ht : p.native.load kernels = .ok t) : GraphExecutor.Fits p.decl t := by
  refine Computes.fits_typeOfRank.2 ?_
  rw [Tensor.rank, TensorLoader.load_shape ht, List.length_map]
  exact (UInt8.toNat_ofNat_of_lt' h.rank_lt).symm

theorem load_loaded {p : PlacedTensor} (h : ∃ t, p.native.load kernels = .ok t) :
    p.native.load kernels = .ok (loaded kernels p) := by
  obtain ⟨t, ht⟩ := h
  rw [loaded, ht]
  rfl

/-- **A graph that runs the forward pass runs it on demand**, where tokens are given and every tensor
is resolved to what the loader makes of it. -/
theorem WellPlaced.executes_iff (h : WellPlaced graph w) (hruns : RunsForward graph tokenInput w)
    (hinputs : graph.inputs = ⟨tokenInput, .tensor .i32 1⟩ :: w.toList.map PlacedTensor.decl)
    (hload : ∀ p ∈ w.toList, ∃ t, p.native.load kernels = .ok t)
    (hresolve : ∀ p ∈ w.toList, ∀ t, resolver p.value = .ok (some t) ↔
      p.native.load kernels = .ok t) (provider : ExecutionProvider) (outputs : List Tensor) :
    executeWithResolver provider graph (Std.ExtTreeMap.insert ∅ tokenInput.val tokens) resolver =
        .ok outputs ↔
      tokens.rank = 1 ∧ ∃ logits,
        forward provider (w.map (loaded kernels)) tokens = .ok logits ∧ outputs = [logits] := by
  obtain ⟨given, hgiven⟩ : ∃ given : Values,
      given = Std.ExtTreeMap.insert ∅ tokenInput.val tokens := ⟨_, rfl⟩
  rw [← hgiven]
  obtain ⟨hnodup, -, -⟩ := inScope_of_validate h.valid
  rw [hinputs, declared, List.map_cons, List.map_map, List.nodup_cons] at hnodup
  have htoken : given[tokenInput.val]? = some tokens :=
    hgiven ▸ Std.ExtTreeMap.getElem?_insert_self
  have hother : ∀ p ∈ w.toList, p.value.val ∉ given := by
    intro p hp hmem
    rw [hgiven] at hmem
    rcases Std.ExtTreeMap.mem_insert.1 hmem with heq | hmem
    · exact hnodup.1 (List.mem_map.2 ⟨p, hp, (Std.compare_eq_iff_eq.1 heq).symm⟩)
    · exact Std.ExtTreeMap.not_mem_empty hmem
  have hloaded : ∀ p ∈ w.toList, resolver p.value = .ok (some (loaded kernels p)) :=
    fun p hp => (hresolve p hp _).2 (load_loaded (hload p hp))
  have hfits : ∀ p ∈ w.toList, GraphExecutor.Fits p.decl (loaded kernels p) :=
    fun p hp => (h.sound p hp).fits (load_loaded (hload p hp))
  have hanswers : Answers graph given resolver := by
    rw [Answers, hinputs, List.forall_mem_cons, List.forall_mem_map]
    refine ⟨fun hnot => absurd ?_ hnot, fun p hp _ => ⟨_, hloaded p hp, hfits p hp⟩⟩
    exact Std.ExtTreeMap.mem_iff_isSome_getElem?.2 (htoken ▸ rfl)
  have htokens : assigned (extendInputs graph given resolver) tokenInput.val = tokens :=
    assigned_of_getElem? ((getElem?_extendInputs hanswers).2 (.inl htoken))
  have hread : ∀ p ∈ w.toList,
      PlacedTensor.read (assigned (extendInputs graph given resolver)) p = loaded kernels p :=
    fun p hp => assigned_of_getElem? ((getElem?_extendInputs hanswers).2
      (.inr ⟨hother p hp, p.decl, hinputs ▸ List.mem_cons_of_mem _ (List.mem_map_of_mem hp), rfl,
        hloaded p hp⟩))
  rw [executeWithResolver_eq_extended h.valid hanswers h.computed,
    hruns provider _ _ outputs fun decl hdecl => mem_extendInputs hanswers hdecl, htokens,
    LlamaWeights.map_congr hread, hinputs, List.forall_mem_cons, List.forall_mem_map, htokens]
  refine and_congr_left fun _ => ⟨fun hall => hall.1, fun hrank => ⟨hrank, fun p hp => ?_⟩⟩
  have hfit := hfits p hp
  rwa [← hread p hp] at hfit

end Running

namespace ShippedSample

open ForwardSample

/-- The tensors of the small model, as they are encoded. -/
def encodes (lowered : LoweredLlamaModel) : Except NativeTensorError (List Bytes) :=
  lowered.tensors.mapM (encodeNativeTensor .current)

/-- A bare capsule of it. -/
def capsule (lowered : LoweredLlamaModel) (encoded : List Bytes) : Except GgufError Bytes :=
  streamedLlamaThinCapsule ⟨List.replicate 16 7, List.length_replicate⟩
    (lowered.streamed (List.zipWith ShardContents.shardOf lowered.tensors
      encoded)).toStreamedLoweredLlamaModel

/-- A device with these shards, and no others. -/
def holding (encoded : List Bytes) : FileTensorShardStore := fun digest =>
  encoded.find? fun bytes => sha256 bytes = digest

/-- It has all of them, unless two collide. -/
theorem hasShards_holding (encoded : List Bytes) :
    HasShards (holding encoded) encoded ∨ ∃ x ∈ encoded, ∃ y ∈ encoded, Collides x y := by
  refine or_iff_not_imp_right.2 fun hnot bytes hbytes => ?_
  have hsome : (holding encoded (sha256 bytes)).isSome :=
    List.find?_isSome.2 ⟨bytes, hbytes, decide_eq_true rfl⟩
  obtain ⟨held, hheld⟩ := Option.isSome_iff_exists.1 hsome
  have hdigest := List.find?_some (p := fun b => decide (sha256 b = sha256 bytes)) hheld
  rcases eq_or_collides (of_decide_eq_true hdigest) with rfl | hcollides
  · exact hheld
  · exact absurd ⟨held, List.mem_of_find?_eq_some hheld, bytes, hbytes, hcollides⟩ hnot

theorem exists_shipped : ∃ model lowered encoded nativeCapsule, IsSample lowered ∧
    Shipped F32Ops.words.ieee (·.toUInt32) (SliceGgufSource.source file) model lowered encoded
      nativeCapsule := by
  have hrun : (parseGguf file).toOption.any (fun model => (lowering model).any fun r =>
      r.toOption.any fun lowered => (encodes lowered).toOption.any fun encoded =>
        decide (IsSample lowered) && (encoded.all fun bytes => decide (bytes.length < 2 ^ 64)) &&
          (capsule lowered encoded).toOption.isSome) = true := by
    decide +kernel
  obtain ⟨model, -, hrun⟩ := (Option.any_eq_true _ _).1 hrun
  obtain ⟨r, hr, hrun⟩ := (Option.any_eq_true _ _).1 hrun
  obtain ⟨lowered, hlowered, hrun⟩ := (Option.any_eq_true _ _).1 hrun
  obtain ⟨encoded, hencoded, hrun⟩ := (Option.any_eq_true _ _).1 hrun
  simp only [Bool.and_eq_true, List.all_eq_true, decide_eq_true_eq] at hrun
  obtain ⟨⟨hsample, hlt⟩, hcapsule⟩ := hrun
  obtain ⟨nativeCapsule, hcapsule⟩ := exists_eq_ok hcapsule
  obtain rfl := toOption_eq_some hlowered
  exact ⟨model, lowered, encoded, nativeCapsule, hsample,
    hr, mapM_eq_ok.1 (toOption_eq_some hencoded), hlt, .capsule hcapsule⟩

end ShippedSample

/-- **When a shipped model activates**: on every device that has its shards, and on no other, unless
one is forged there. -/
theorem shipped_activates (ops : F32Ops) (f16ToF32 : UInt16 → F32) (source : GgufByteSource)
    (model : GgufModel) (lowered : LoweredLlamaModel) (encoded : List Bytes) (nativeCapsule : Bytes)
    (h : Shipped ops f16ToF32 source model lowered encoded nativeCapsule) :
    (∀ device, HasShards device encoded →
      ∃ a, activateThinGenerativeCapsule nativeCapsule device = .ok a) ∧
    ∀ device a, activateThinGenerativeCapsule nativeCapsule device = .ok a →
      HasShards device encoded ∨ HasForged device encoded := by
  exact ⟨fun device hdevice => h.exists_activate hdevice, fun device a ha =>
    h.hasShards_of_activate ha⟩

open ForwardSample ShippedSample in
/-- A small model, in a bare capsule, and the device with its shards. -/
theorem shipped_activates_sample : ∃ model lowered encoded nativeCapsule,
    Shipped F32Ops.words.ieee (·.toUInt32) (SliceGgufSource.source file) model lowered encoded
      nativeCapsule ∧
    ((∃ a, activateThinGenerativeCapsule nativeCapsule (holding encoded) = .ok a) ∨
      ∃ x ∈ encoded, ∃ y ∈ encoded, Collides x y) := by
  obtain ⟨model, lowered, encoded, nativeCapsule, -, hshipped⟩ := exists_shipped
  exact ⟨model, lowered, encoded, nativeCapsule, hshipped, (hasShards_holding encoded).imp_left
    ((shipped_activates _ _ _ model lowered encoded nativeCapsule hshipped).1 _)⟩

/-- **Where its shards are, a shipped model runs its forward pass**, from the tensors of the source. -/
theorem Shipped.executes {ops : F32Ops} {f16ToF32 : UInt16 → F32} {source : GgufByteSource}
    {model : GgufModel} {lowered : LoweredLlamaModel} {encoded : List Bytes} {nativeCapsule : Bytes}
    {kernels : F32Ops} (h : Shipped ops f16ToF32 source model lowered encoded nativeCapsule) :
    ∃ w, WeightsFromSource ops f16ToF32 (SourceTensorTable.new source model) lowered.config
        (UInt64.ofNat lowered.vocabularySize) w ∧
      ∀ device a, activateThinGenerativeCapsule nativeCapsule device = .ok a →
        HasShards device encoded → a.tokenizer = lowered.tokenizer ∧
          ∀ provider tokens outputs, executeWithResolver provider a.graph
              (Std.ExtTreeMap.insert ∅ a.manifest.tokenInput.val tokens)
              ((FileBackedTensorResolver.fromActivation device a).resolve kernels) = .ok outputs ↔
            tokens.rank = 1 ∧ ∃ logits,
              forward provider (w.map (loaded kernels)) tokens = .ok logits ∧
                outputs = [logits] := by
  obtain ⟨parts, hparts, rfl⟩ := exists_parts h.lowers
  obtain ⟨w, hw, hinputs, -, htensors, hruns, hplaced⟩ := lowerLlamaModelInternal_runsForward hparts
  refine ⟨w, hw, fun device a ha hdevice => ?_⟩
  obtain ⟨hgraph, htokenizer, htoken, hresolve⟩ := h.resolve_eq_some hdevice ha
  -- what is shipped was encoded, so the loader takes it
  have hload : ∀ p ∈ w.toList, ∃ t, p.native.load kernels = .ok t := by
    intro p hp
    have hmem := List.mem_map_of_mem (f := PlacedTensor.native) hp
    rw [← htensors rfl] at hmem
    obtain ⟨i, hi, hat⟩ := List.getElem_of_mem hmem
    have hencode := h.encodes.get hi (h.encodes.length_eq ▸ hi)
    rw [List.get_eq_getElem, hat] at hencode
    exact NativeTensor.exists_load hencode rfl (hw.isFloat p hp) kernels
  rw [htensors rfl, List.forall_mem_map] at hresolve
  rw [hgraph, htoken]
  exact ⟨htokenizer, fun provider tokens outputs => hplaced.executes_iff hruns hinputs hload
    (fun p hp t => hresolve p hp p.value rfl kernels t) provider outputs⟩

/-- **A shipped model runs its forward pass wherever it activates.**  On any device where no
shard is forged, the activated graph, given tokens alone and reading its tensors on demand, answers
the logits that the forward pass computes from the tensors of the source. -/
theorem shipped_runsForward (ops : F32Ops) (f16ToF32 : UInt16 → F32) (source : GgufByteSource)
    (model : GgufModel) (lowered : LoweredLlamaModel) (encoded : List Bytes) (nativeCapsule : Bytes)
    (kernels : F32Ops) (h : Shipped ops f16ToF32 source model lowered encoded nativeCapsule) :
    ∃ w, WeightsFromSource ops f16ToF32 (SourceTensorTable.new source model) lowered.config
        (UInt64.ofNat lowered.vocabularySize) w ∧
      ∀ device a, activateThinGenerativeCapsule nativeCapsule device = .ok a →
        HasForged device encoded ∨ a.tokenizer = lowered.tokenizer ∧
          ∀ provider tokens outputs, executeWithResolver provider a.graph
              (Std.ExtTreeMap.insert ∅ a.manifest.tokenInput.val tokens)
              ((FileBackedTensorResolver.fromActivation device a).resolve kernels) = .ok outputs ↔
            tokens.rank = 1 ∧ ∃ logits,
              forward provider (w.map (loaded kernels)) tokens = .ok logits ∧
                outputs = [logits] := by
  obtain ⟨w, hw, hexecutes⟩ := h.executes
  refine ⟨w, hw, fun device a ha => or_iff_not_imp_left.2 fun hforged => ?_⟩
  exact hexecutes device a ha ((h.hasShards_of_activate ha).resolve_right hforged)

open ForwardSample ShippedSample in
/-- The small model again, on the device with its shards. -/
theorem shipped_runsForward_sample : ∃ lowered encoded nativeCapsule, IsSample lowered ∧
    ((∃ (w : LlamaWeights PlacedTensor) (a : ThinGenerativeActivation),
      activateThinGenerativeCapsule nativeCapsule (holding encoded) = .ok a ∧
      a.tokenizer = lowered.tokenizer ∧
      ∀ provider tokens outputs, executeWithResolver provider a.graph
          (Std.ExtTreeMap.insert ∅ a.manifest.tokenInput.val tokens)
          ((FileBackedTensorResolver.fromActivation (holding encoded) a).resolve
            F32Ops.words.ieee) = .ok outputs ↔
        tokens.rank = 1 ∧ ∃ logits, forward provider (w.map (loaded F32Ops.words.ieee)) tokens =
          .ok logits ∧ outputs = [logits]) ∨
      ∃ x ∈ encoded, ∃ y ∈ encoded, Collides x y) := by
  obtain ⟨model, lowered, encoded, nativeCapsule, hsample, hshipped⟩ := exists_shipped
  refine ⟨lowered, encoded, nativeCapsule, hsample, (hasShards_holding encoded).imp_left
    fun hholds => ?_⟩
  obtain ⟨w, -, hruns⟩ := shipped_runsForward _ _ _ model lowered encoded nativeCapsule
    F32Ops.words.ieee hshipped
  obtain ⟨a, ha⟩ := hshipped.exists_activate hholds
  exact ⟨w, a, ha, (hruns _ a ha).resolve_left hholds.not_hasForged⟩

end NTD97
