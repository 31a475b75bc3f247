import Mathlib
import NTD97.Activation

/-!
# Activation/Agree — when the thin and the full loader accept the same

    sections ──embedded──▸ full capsule ──load──▸ program
           └──shards outside──▸ thin capsule ──activate──▸ activation

Both loaders match the shards with the table and the graph.  The thin one also demands that every
shard is bound and that the manifest is consistent with the graph and the tokenizer; so they agree
exactly when that follows.
-/

namespace NTD97

open Guard Wire SortedMap NativeProgram

namespace Activation

/-! ## The sections of a capsule -/

/-- The encoded sections of a program. -/
structure Sections where
  graph : Bytes
  tokenizer : Bytes
  manifest : Bytes
  table : Bytes
  shards : List Bytes

namespace Sections

/-- What both capsules embed. -/
def embedded (s : Sections) : List ChunkSpec := [
  ⟨.graph, .embedded s.graph⟩, ⟨.tokenizer, .embedded s.tokenizer⟩,
  ⟨.generativeManifest, .embedded s.manifest⟩, ⟨.tensors, .embedded s.table⟩]

/-- The chunks of a full capsule. -/
def full (s : Sections) : List ChunkSpec :=
  s.embedded ++ s.shards.map fun bytes => ⟨.tensors, .embedded bytes⟩

/-- The chunks of a thin capsule, whose shards are in the store. -/
def thin (s : Sections) : List ChunkSpec :=
  s.embedded ++ s.shards.map fun bytes =>
    ⟨.tensors, .external (UInt64.ofNat bytes.length) (sha256 bytes)⟩

end Sections

/-- The sections encode these parts. -/
structure Encodes (graph : Graph) (tokenizer : NativeTokenizerDescriptor)
    (manifest : NativeGenerativeManifest) (descriptors : List TensorDescriptor)
    (tensors : List NativeTensor) (s : Sections) : Prop where
  graph : encodeGraph graph = .ok s.graph
  tokenizer : encodeNativeTokenizer tokenizer = .ok s.tokenizer
  manifest : encodeNativeGenerativeManifest manifest = .ok s.manifest
  table : encodeTensorDescriptors .current descriptors = .ok s.table
  shards : List.Forall₂ (fun t bytes => encodeNativeTensor .current t = .ok bytes) tensors s.shards

/-- What a tensor is read back as: a binding to the largest id is lost. -/
def asRead (t : NativeTensor) : NativeTensor :=
  { t with graphValue := NativeTensor.readBinding t.graphValue }

/-- The manifest speaks of an `i32` input of rank one that no tensor is bound to, of an output there
is, and of the tokenizer's vocabulary. -/
def Consistent (graph : Graph) (tokenizer : NativeTokenizerDescriptor)
    (manifest : NativeGenerativeManifest) (tensors : List NativeTensor) : Prop :=
  (∃ decl, graph.inputs.find? (·.id = manifest.tokenInput) = some decl ∧ decl.ty = .tensor .i32 1) ∧
    manifest.distributionOutput.toNat < graph.outputs.length ∧
    manifest.vocabularySize.toNat = tokenizer.tokens.length ∧
    manifest.tokenInput ∉ bindings tensors

section Loaders

variable {graph : Graph} {tokenizer : NativeTokenizerDescriptor} {manifest : NativeGenerativeManifest}
  {descriptors : List TensorDescriptor} {tensors : List NativeTensor} {s : Sections}
  {store : ContentStore} {t : NativeTensor} {bytes b : Bytes} {builder : CapsuleBuilder}
  {v : CapsuleView}

/-! ## What the sections are read as -/

/-- A shard is read back, up to a binding that is lost. -/
theorem decode_shard (h : encodeNativeTensor .current t = .ok bytes) :
    decodeNativeTensor .current bytes = .ok (asRead t) :=
  (NativeTensor.decodeNativeTensor_of_encode h).2 ⟨rfl, rfl⟩

theorem magic_shard (h : encodeNativeTensor .current t = .ok bytes) :
    nativeTensorMagic <+: bytes := by
  obtain ⟨-, -, -, _, _, -, -, hb⟩ := NativeTensor.encodeNativeTensor_eq_ok.1 h
  obtain ⟨b₁, h₁, b₂, -, rfl⟩ := emits_bind.1 hb
  rw [← emits_tell.1 h₁]
  exact List.prefix_append ..

theorem magic_table (h : encodeTensorDescriptors .current descriptors = .ok bytes) :
    tensorDescriptorMagic <+: bytes := by
  rw [encodeTensorDescriptors, written_eq_ok] at h
  obtain ⟨rest, -, rfl⟩ := Descriptors.emits_encodeTable.1 h
  exact List.prefix_append ..

theorem decode_table (h : encodeTensorDescriptors .current descriptors = .ok bytes) :
    decodeTensorDescriptors .current bytes = .ok descriptors := by
  have hread := (Descriptors.inverse_table IrVersion.current).readAll_eq_ok (e := .nonCanonicalEncoding)
    |>.2 ⟨(by decide : IrVersion.current.canRead IrVersion.current), h⟩
  rw [decodeTensorDescriptors, hread]
  rfl

/-- A shard does not begin as a table does. -/
theorem not_table_of_shard (h : nativeTensorMagic <+: bytes) : ¬ tensorDescriptorMagic <+: bytes := by
  intro h'
  have heq := List.prefix_of_prefix_length_le h h' (Nat.le_refl 6)
  exact absurd heq (by decide)

/-- The chunks of each kind among the sections. -/
theorem filter_sections (s : Sections) {rest : List ChunkSpec} (hrest : ∀ c ∈ rest, c.kind = .tensors) :
    let chunks := (s.embedded ++ rest).map Capsule.view
    chunks.filter (·.kind = .graph) = [Capsule.view ⟨.graph, .embedded s.graph⟩] ∧
      chunks.filter (·.kind = .tokenizer) = [Capsule.view ⟨.tokenizer, .embedded s.tokenizer⟩] ∧
      chunks.filter (·.kind = .generativeManifest) =
        [Capsule.view ⟨.generativeManifest, .embedded s.manifest⟩] ∧
      chunks.filter (·.kind = .tensors) =
        Capsule.view ⟨.tensors, .embedded s.table⟩ :: rest.map Capsule.view := by
  have hkind : ∀ c ∈ rest.map Capsule.view, c.kind = .tensors := by
    intro c hc
    obtain ⟨⟨kind, source⟩, hspec, rfl⟩ := List.mem_map.1 hc
    cases source <;> exact hrest _ hspec
  have hnone : ∀ kind, kind ≠ .tensors → (rest.map Capsule.view).filter (·.kind = kind) = [] := by
    intro kind hne
    rw [List.filter_eq_nil_iff]
    intro c hc
    simpa [hkind c hc] using hne.symm
  have hall : (rest.map Capsule.view).filter (·.kind = .tensors) = rest.map Capsule.view :=
    List.filter_eq_self.2 fun c hc => decide_eq_true (hkind c hc)
  simp only [List.map_append, List.filter_append, hall, hnone .graph (by decide),
    hnone .tokenizer (by decide), hnone .generativeManifest (by decide)]
  exact ⟨rfl, rfl, rfl, rfl⟩

/-! ## The full loader -/

/-- One table and its shards, told apart. -/
theorem tables_shards (descriptors : List TensorDescriptor) (l : List NativeTensor) :
    tables ((.inl descriptors :: l.map .inr : List Part)) = [descriptors] ∧
      NativeProgram.shards (.inl descriptors :: l.map .inr : List Part) = l := by
  constructor
  · simp [tables, List.filterMap_map]
  · simp [NativeProgram.shards, List.filterMap_cons, List.filterMap_map, Function.comp_def]

/-- The parts of the tensor chunks of a full capsule. -/
theorem read_full (h : Encodes graph tokenizer manifest descriptors tensors s) :
    List.Forall₂ (fun c part => tensorPart store c = .ok part)
      (Capsule.view ⟨.tensors, .embedded s.table⟩ ::
        (s.shards.map fun bytes => (⟨.tensors, .embedded bytes⟩ : ChunkSpec)).map Capsule.view)
      (.inl descriptors :: (tensors.map asRead).map .inr) := by
  refine .cons (tensorPart_eq_table.2 ⟨s.table, rfl, magic_table h.table, decode_table h.table⟩) ?_
  rw [List.map_map, List.map_map, List.forall₂_map_left_iff, List.forall₂_map_right_iff]
  refine h.shards.flip.imp fun bytes t ht => ?_
  have hmagic := magic_shard ht
  exact tensorPart_eq_shard.2 ⟨bytes, rfl, not_table_of_shard hmagic, hmagic, decode_shard ht⟩

/-- **The full loader accepts the sections** exactly if the tensors, as they are read, are those of the
table. -/
theorem load_full_iff (h : Encodes graph tokenizer manifest descriptors tensors s)
    (hchunks : v.chunks.Perm (s.full.map Capsule.view)) :
    (∃ p, loadNativeGenerativeProgram v store = .ok p) ↔
      Matched graph descriptors (tensors.map asRead) := by
  obtain ⟨hgraph, htokenizer, hmanifest, htensors⟩ := filter_sections s
    (show ∀ c ∈ s.shards.map fun bytes => (⟨.tensors, .embedded bytes⟩ : ChunkSpec), c.kind = .tensors
      by simp)
  have hsingle : ∀ {kind c}, (s.full.map Capsule.view).filter (·.kind = kind) = [c] →
      v.chunks.filter (·.kind = kind) = [c] := fun heq =>
    List.perm_singleton.1 (heq ▸ hchunks.filter _)
  have hgeneral : ∀ program, loadNativeGenerativeProgram v store = .ok program ↔ _ := fun program =>
    loadNativeGenerativeProgram_eq_ok (hsingle htokenizer) rfl (decodeNativeTokenizer_of_encode h.tokenizer).1
      (hsingle hmanifest) rfl (decodeNativeGenerativeManifest_of_encode h.manifest)
  simp only [hgeneral]
  constructor
  · rintro ⟨program, hload, -, -⟩
    obtain ⟨chunk, content, parts, descriptors', hloads⟩ := loadNativeProgram_eq_ok.1 hload
    obtain ⟨parts', hloads⟩ := hloads.perm hchunks
    have hsame := hloads.single.symm.trans hgraph
    obtain rfl := (List.cons.inj hsame).1
    obtain rfl : s.graph = content := Except.ok.inj hloads.resolved
    have hgraph' : program.program.graph = graph :=
      Except.ok.inj (hloads.graph.symm.trans (decodeGraph_of_encode h.graph))
    have hparts : parts' = .inl descriptors :: (tensors.map asRead).map .inr := by
      have hread := hloads.read
      rw [Sections.full, htensors, ← mapM_eq_ok, mapM_eq_ok.2 (read_full h)] at hread
      exact (Except.ok.inj hread).symm
    have hmatched := hloads.matched
    obtain ⟨htables, hshards⟩ := tables_shards descriptors (tensors.map asRead)
    have htable := hloads.table
    rw [hparts, htables] at htable
    obtain rfl := (List.cons.inj htable).1
    rwa [hparts, hshards, hgraph'] at hmatched
  · intro hmatched
    obtain ⟨htables, hshards⟩ := tables_shards descriptors (tensors.map asRead)
    have hloads : Loads store (s.full.map Capsule.view)
        ⟨graph, (tensors.map asRead).mergeSort idLe⟩ _ s.graph
        (.inl descriptors :: (tensors.map asRead).map .inr) descriptors := {
      single := hgraph
      resolved := rfl
      graph := decodeGraph_of_encode h.graph
      read := by
        rw [Sections.full, htensors]
        exact read_full h
      table := htables
      matched := by rwa [hshards]
      sorted := by rw [hshards] }
    obtain ⟨parts, hloads⟩ := hloads.perm hchunks.symm
    exact ⟨⟨_, tokenizer, some manifest⟩, loadNativeProgram_eq_ok.2 ⟨_, _, _, _, hloads⟩, rfl, rfl⟩

/-! ## The thin loader -/

/-- When a manifest is consistent with a graph and a tokenizer. -/
theorem validateManifest_eq_ok : validateManifest graph tokenizer manifest = .ok () ↔
    (∃ decl, graph.inputs.find? (·.id = manifest.tokenInput) = some decl ∧
        decl.ty = .tensor .i32 1) ∧
      manifest.distributionOutput.toNat < graph.outputs.length ∧
      manifest.vocabularySize.toNat = tokenizer.tokens.length := by
  simp only [validateManifest, bind_eq_ok, exists_unit, okOr_eq_ok, refuse_eq_ok, not_not, not_le]
  constructor
  · rintro ⟨decl, hfind, hty, hrest⟩
    exact ⟨⟨decl, hfind, hty⟩, hrest⟩
  · rintro ⟨⟨decl, hfind, hty⟩, hrest⟩
    exact ⟨decl, hfind, hty, hrest⟩

/-- A section that stands once is decoded. -/
theorem decodeSingleEmbedded_eq_ok {α : Type} {kind : SectionKind} {missing multiple : ThinActivationError}
    {decode : Bytes → Except ThinActivationError α} {c : ChunkView}
    (hsingle : v.chunks.filter (·.kind = kind) = [c]) (hstorage : c.storage = .embedded bytes) :
    decodeSingleEmbedded v kind missing multiple decode = decode bytes := by
  rw [decodeSingleEmbedded, hsingle]
  simp only [hstorage]

/-- Chunks outside the capsule are put aside. -/
theorem foldlM_splitChunk : ∀ {l acc : List ChunkView} {table : Option (List TensorDescriptor)},
    (∀ c ∈ l, c.storage = .external) → l.foldlM splitChunk (table, acc) = .ok (table, acc ++ l)
  | [], acc, table, _ => by
      rw [List.append_nil]
      rfl
  | c :: l, acc, table, hl => by
      obtain ⟨hc, hl⟩ := List.forall_mem_cons.1 hl
      have hstep : splitChunk (table, acc) c = .ok (table, acc ++ [c]) := by
        rw [splitChunk, hc]
        rfl
      rw [List.foldlM_cons, hstep]
      exact (foldlM_splitChunk hl).trans (by rw [List.append_assoc, List.singleton_append])

/-- The table is found wherever it stands among the tensor chunks. -/
theorem exists_split {chunks externals : List ChunkView} {table : ChunkView}
    (hstorage : table.storage = .embedded bytes) (hmagic : tensorDescriptorMagic <+: bytes)
    (hdecode : decodeTensorDescriptors .current bytes = .ok descriptors)
    (hexternals : ∀ c ∈ externals, c.storage = .external)
    (hchunks : chunks.Perm (table :: externals)) :
    ∃ l, l.Perm externals ∧ chunks.foldlM splitChunk (none, []) = .ok (some descriptors, l) := by
  obtain ⟨before, after, rfl⟩ := List.append_of_mem (hchunks.mem_iff.2 (.head _))
  have hperm : (before ++ after).Perm externals :=
    (List.perm_middle.symm.trans hchunks).cons_inv
  have hexternal : ∀ c ∈ before ++ after, c.storage = .external := fun c hc =>
    hexternals c (hperm.mem_iff.1 hc)
  obtain ⟨hbefore, hafter⟩ := List.forall_mem_append.1 hexternal
  have htable : splitChunk (none, [] ++ before) table = .ok (some descriptors, before) := by
    rw [splitChunk, hstorage]
    simp [-bind_pure_comp, hmagic, hdecode, refuse]
  refine ⟨before ++ after, hperm, ?_⟩
  rw [List.foldlM_append, foldlM_splitChunk hbefore]
  exact bind_eq_ok.2 ⟨_, rfl, by
    rw [List.foldlM_cons, htable]
    exact foldlM_splitChunk hafter⟩

/-- The shard of a chunk, from the store. -/
def Carried (store : FileTensorShardStore) (c : ChunkView) (t : NativeTensor) : Prop :=
  ∃ bytes, store.readHashVerified c.hash c.logicalLen = .ok bytes ∧
    decodeNativeTensor .current bytes = .ok t

/-- Both loaders check a binding alike. -/
theorem validateGraphBinding_iff {value : ValueId} {descriptor : TensorDescriptor} :
    validateGraphBinding graph value descriptor = .ok () ↔
      NativeProgram.validateGraphBinding graph value descriptor = .ok () := by
  simp only [validateGraphBinding, NativeProgram.validateGraphBinding, bind_eq_ok, okOr_eq_ok,
    refuse_eq_ok]

variable {byId : BTreeMap UInt32 TensorDescriptor} {seen r : IdSet × BTreeMap UInt32 TensorShardRef}
  {c : ChunkView}

/-- The reference that is kept of a shard. -/
def shardRef (c : ChunkView) (t : NativeTensor) : TensorShardRef where
  descriptor := t.descriptor
  graphValue := t.graphValue
  logicalLen := c.logicalLen
  hash := c.hash

/-- When a shard is taken. -/
theorem activateShard_eq_ok (h : Carried store c t) :
    activateShard store graph byId seen c = .ok r ↔
      byId[t.descriptor.id]? = some t.descriptor ∧ t.descriptor.id ∉ seen.1 ∧
      ∃ value, t.graphValue = some value ∧
        NativeProgram.validateGraphBinding graph value t.descriptor = .ok () ∧ value.val ∉ seen.2 ∧
        r = (seen.1.insert t.descriptor.id, seen.2.insert value.val (shardRef c t)) := by
  obtain ⟨bytes, hbytes, hdecode⟩ := h
  simp only [activateShard, hbytes, hdecode, bind_eq_ok, exists_unit, mapError_eq_ok,
    Except.ok.injEq, exists_eq_left', refuse_eq_ok, okOr_eq_ok, pure_eq_ok, not_not,
    validateGraphBinding_iff]
  constructor
  · rintro ⟨hid, d, hd, rfl, value, hvalue, hbinding, hfresh, rfl⟩
    exact ⟨hd, hid, value, hvalue, hbinding, hfresh, by rw [shardRef, hvalue]⟩
  · rintro ⟨hd, hid, value, hvalue, hbinding, hfresh, rfl⟩
    exact ⟨hid, _, hd, rfl, value, hvalue, hbinding, hfresh, by rw [shardRef, hvalue]⟩

theorem bindings_cons {value : ValueId} {ts : List NativeTensor} (h : t.graphValue = some value) :
    bindings (t :: ts) = value :: bindings ts := by
  simp [bindings, h]

/-- What the loop over the shards has seen. -/
theorem mem_of_activateShards {l : List ChunkView} {ts : List NativeTensor}
    {seen : IdSet × BTreeMap UInt32 TensorShardRef} (hcarried : List.Forall₂ (Carried store) l ts)
    (h : l.foldlM (activateShard store graph byId) seen = .ok r) :
    (∀ id, id ∈ r.1 ↔ id ∈ seen.1 ∨ id ∈ ts.map fun t => t.descriptor.id) ∧
      ∀ value : ValueId, value.val ∈ r.2 ↔ value.val ∈ seen.2 ∨ value ∈ bindings ts := by
  induction hcarried generalizing seen with
  | nil =>
    rw [List.foldlM_nil, pure_eq_ok] at h
    subst h
    simp [bindings]
  | cons hc hl ih =>
    rw [List.foldlM_cons, bind_eq_ok] at h
    obtain ⟨mid, hmid, h⟩ := h
    obtain ⟨-, -, value, hvalue, -, -, rfl⟩ := (activateShard_eq_ok hc).1 hmid
    obtain ⟨hids, hvalues⟩ := ih h
    refine ⟨fun id => ?_, fun x => ?_⟩
    · rw [hids, Std.ExtTreeSet.mem_insert, Std.compare_eq_iff_eq, List.map_cons, List.mem_cons,
        eq_comm (a := id), or_assoc, or_left_comm]
    · rw [hvalues, Std.ExtTreeMap.mem_insert, Std.compare_eq_iff_eq, bindings_cons hvalue,
        List.mem_cons, val_injective.eq_iff, eq_comm (a := x), or_assoc, or_left_comm]

/-- **The loop over the shards** accepts known, bound shards whose ids and bindings are new. -/
theorem exists_activateShards : ∀ {l : List ChunkView} {ts : List NativeTensor}
    {seen : IdSet × BTreeMap UInt32 TensorShardRef}, List.Forall₂ (Carried store) l ts →
    ((∃ r, l.foldlM (activateShard store graph byId) seen = .ok r) ↔
      (∀ t ∈ ts, byId[t.descriptor.id]? = some t.descriptor ∧ Bound graph t ∧ t.graphValue ≠ none) ∧
      ((ts.map fun t => t.descriptor.id).Nodup ∧
        ∀ id ∈ ts.map fun t => t.descriptor.id, id ∉ seen.1) ∧
      (bindings ts).Nodup ∧ ∀ value ∈ bindings ts, value.val ∉ seen.2)
  | [], [], seen, .nil => by simp [bindings]
  | c :: l, t :: ts, seen, .cons hc hl => by
      have hinsert : ∀ {id k}, id ∈ seen.1.insert k ↔ k = id ∨ id ∈ seen.1 := by
        intro id k
        rw [Std.ExtTreeSet.mem_insert, Std.compare_eq_iff_eq]
      have hfile : ∀ {x value : ValueId} {shard},
          x.val ∈ seen.2.insert value.val shard ↔ value = x ∨ x.val ∈ seen.2 := by
        intro x value shard
        rw [Std.ExtTreeMap.mem_insert, Std.compare_eq_iff_eq, val_injective.eq_iff]
      have hstep : (∃ r, (c :: l).foldlM (activateShard store graph byId) seen = .ok r) ↔
          ∃ mid, activateShard store graph byId seen c = .ok mid ∧
            ∃ r, l.foldlM (activateShard store graph byId) mid = .ok r := by
        simp only [List.foldlM_cons, bind_eq_ok]
        exact ⟨fun ⟨r, mid, h, h'⟩ => ⟨mid, h, r, h'⟩, fun ⟨mid, h, r, h'⟩ => ⟨r, mid, h, h'⟩⟩
      simp only [hstep, activateShard_eq_ok hc, exists_activateShards hl, List.forall_mem_cons,
        List.map_cons, List.nodup_cons]
      constructor
      · rintro ⟨_, ⟨hd, hid, value, hvalue, hbinding, hfresh, rfl⟩, hts, ⟨hnodup, hids⟩, hnodup',
          hvalues⟩
        rw [bindings_cons hvalue, List.nodup_cons, List.forall_mem_cons]
        refine ⟨⟨⟨hd, fun x hx => ?_, by rw [hvalue]; exact Option.some_ne_none _⟩, hts⟩,
          ⟨⟨fun hmem => hids _ hmem (hinsert.2 (.inl rfl)), hnodup⟩, hid, fun id hmem h =>
            hids id hmem (hinsert.2 (.inr h))⟩,
          ⟨fun hmem => hvalues _ hmem (hfile.2 (.inl rfl)), hnodup'⟩, hfresh, fun x hmem h =>
            hvalues x hmem (hfile.2 (.inr h))⟩
        obtain rfl := Option.some.inj (hvalue.symm.trans hx)
        exact hbinding
      · rintro ⟨⟨⟨hd, hbound, hsome⟩, hts⟩, ⟨⟨hnew, hnodup⟩, hid, hids⟩, hbindings⟩
        obtain ⟨value, hvalue⟩ := Option.ne_none_iff_exists'.1 hsome
        rw [bindings_cons hvalue, List.nodup_cons, List.forall_mem_cons] at hbindings
        obtain ⟨⟨hnew', hnodup'⟩, hfresh, hvalues⟩ := hbindings
        refine ⟨_, ⟨hd, hid, value, hvalue, hbound value hvalue, hfresh, rfl⟩, hts, ⟨hnodup, ?_⟩,
          hnodup', ?_⟩
        · rintro id hmem hseen
          rcases hinsert.1 hseen with rfl | hseen
          · exact hnew hmem
          · exact hids id hmem hseen
        · rintro x hmem hseen
          rcases hfile.1 hseen with rfl | hseen
          · exact hnew' hmem
          · exact hvalues x hmem hseen

/-- The table by ids, if no id repeats. -/
theorem descriptorMap_eq_ok : descriptorMap descriptors = .ok byId ↔
    (descriptors.map TensorDescriptor.id).Nodup ∧
      byId = fileAll TensorDescriptor.id ∅ descriptors := by
  have hbody : ∀ m d r, insertDescriptor m d = .ok r ↔ d.id ∉ m ∧ r = m.insert d.id d := by
    intro m d r
    simp only [insertDescriptor, bind_eq_ok, exists_unit, refuse_eq_ok, pure_eq_ok]
    exact and_congr_right fun _ => eq_comm
  have hempty : ∀ d ∈ descriptors, d.id ∉ (∅ : BTreeMap UInt32 TensorDescriptor) :=
    fun _ _ => Std.ExtTreeMap.not_mem_empty
  rw [descriptorMap, foldlM_file hbody]
  exact ⟨fun h => ⟨h.1, h.2.2⟩, fun h => ⟨h.1, hempty, h.2⟩⟩

/-- **The checks of the thin loader** accept exactly the matched shards that are all bound. -/
theorem matched_iff_activated {l : List ChunkView} {ts : List NativeTensor} {value : ValueId}
    (hl : List.Forall₂ (Carried store) l ts) : (∃ byId r, descriptorMap descriptors = .ok byId ∧
      l.foldlM (activateShard store graph byId) (∅, ∅) = .ok r ∧
      (byId.keys.forM fun id => refuse (id ∉ r.1) (.missingTensorShard id) :
        Except ThinActivationError Unit) = .ok () ∧ value.val ∉ r.2) ↔
    Matched graph descriptors ts ∧ (∀ t ∈ ts, t.graphValue ≠ none) ∧ value ∉ bindings ts := by
  simp only [descriptorMap_eq_ok, forM_eq_ok, refuse_eq_ok, not_not, ← matched_iff_table]
  have hids : ∀ id : UInt32, id ∉ (∅ : IdSet) := fun _ => Std.ExtTreeSet.not_mem_empty
  have hvalues : ∀ k : UInt32, k ∉ (∅ : BTreeMap UInt32 TensorShardRef) :=
    fun _ => Std.ExtTreeMap.not_mem_empty
  constructor
  · rintro ⟨_, r, ⟨htable, rfl⟩, hr, hkeys, hvalue⟩
    obtain ⟨hshards, ⟨hnodup, -⟩, hdistinct, -⟩ := (exists_activateShards hl).1 ⟨r, hr⟩
    obtain ⟨hseen, hbound⟩ := mem_of_activateShards hl hr
    simp only [hids, hvalues, false_or] at hseen hbound
    exact ⟨⟨htable, fun t ht => ⟨(hshards t ht).1, (hshards t ht).2.1⟩, hnodup, hdistinct,
      fun id hid => (hseen id).1 (hkeys id hid)⟩, fun t ht => (hshards t ht).2.2,
      fun h => hvalue ((hbound value).2 h)⟩
  · rintro ⟨⟨htable, hshards, hnodup, hdistinct, hkeys⟩, hsome, hvalue⟩
    have haccepts : ∃ r, l.foldlM (activateShard store graph
        (fileAll TensorDescriptor.id ∅ descriptors)) (∅, ∅) = .ok r :=
      (exists_activateShards hl).2 ⟨fun t ht => ⟨(hshards t ht).1, (hshards t ht).2, hsome t ht⟩,
        ⟨hnodup, fun id _ => hids id⟩, hdistinct, fun v _ => hvalues v.val⟩
    obtain ⟨r, hr⟩ := haccepts
    obtain ⟨hseen, hbound⟩ := mem_of_activateShards hl hr
    simp only [hids, hvalues, false_or] at hseen hbound
    exact ⟨_, r, ⟨htable, rfl⟩, hr, fun id hid => (hseen id).2 (hkeys id hid),
      fun h => hvalue ((hbound value).1 h)⟩

/-- The shards of a thin capsule, as they are read from the store. -/
theorem carried_thin (h : Encodes graph tokenizer manifest descriptors tensors s)
    (hlen : ∀ bytes ∈ s.shards, bytes.length < 2 ^ 64)
    (hstore : ∀ bytes ∈ s.shards, store (sha256 bytes) = some bytes) :
    List.Forall₂ (Carried store) ((s.shards.map fun bytes => (⟨.tensors, .external
      (UInt64.ofNat bytes.length) (sha256 bytes)⟩ : ChunkSpec)).map Capsule.view)
      (tensors.map asRead) := by
  rw [List.map_map, List.forall₂_map_left_iff, List.forall₂_map_right_iff]
  have hall := (List.forall₂_and_left _ _).2 ⟨fun bytes hbytes => And.intro (hlen bytes hbytes)
    (hstore bytes hbytes), h.shards.flip⟩
  exact hall.imp fun bytes t ⟨⟨hlen, hstore⟩, ht⟩ => ⟨bytes,
    FileTensorShardStore.readHashVerified_eq_ok.2 ⟨hstore, UInt64.toNat_ofNat_of_lt' hlen, rfl⟩,
    decode_shard ht⟩

/-- **The thin loader accepts the sections** exactly if the tensors, as they are read, are those of the
table and all bound, and the manifest is consistent with the rest. -/
theorem activate_thin_iff (h : Encodes graph tokenizer manifest descriptors tensors s)
    (hlen : ∀ bytes ∈ s.shards, bytes.length < 2 ^ 64)
    (hstore : ∀ bytes ∈ s.shards, store (sha256 bytes) = some bytes)
    (hread : CapsuleView.read b = .ok v) (hkind : v.kind = .thin)
    (hchunks : v.chunks.Perm (s.thin.map Capsule.view)) :
    (∃ a, activateThinGenerativeCapsule b store = .ok a) ↔
      Matched graph descriptors (tensors.map asRead) ∧
      (∀ t ∈ tensors.map asRead, t.graphValue ≠ none) ∧
      Consistent graph tokenizer manifest (tensors.map asRead) := by
  obtain ⟨hgraph, htokenizer, hmanifest, htensors⟩ := filter_sections s
    (show ∀ c ∈ s.shards.map fun bytes => (⟨.tensors, .external (UInt64.ofNat bytes.length)
      (sha256 bytes)⟩ : ChunkSpec), c.kind = .tensors by simp)
  have hsingle : ∀ {kind c}, (s.thin.map Capsule.view).filter (·.kind = kind) = [c] →
      v.chunks.filter (·.kind = kind) = [c] := fun heq =>
    List.perm_singleton.1 (heq ▸ hchunks.filter _)
  have htable := hchunks.filter fun c => decide (c.kind = .tensors)
  rw [Sections.thin, htensors] at htable
  obtain ⟨l, hl, hsplit⟩ := exists_split rfl (magic_table h.table) (decode_table h.table) (by
    intro c hc
    simp only [List.map_map, List.mem_map, Function.comp_apply] at hc
    obtain ⟨bytes, -, rfl⟩ := hc
    rfl) htable
  obtain ⟨ts, hcarried, hts⟩ := List.perm_comp_forall₂ hl (carried_thin h hlen hstore)
  have hactivated : _ ↔ Matched graph descriptors ts ∧ (∀ t ∈ ts, t.graphValue ≠ none) ∧
      manifest.tokenInput ∉ bindings ts := matched_iff_activated hcarried
  have hmatched : Matched graph descriptors ts ↔ Matched graph descriptors (tensors.map asRead) :=
    ⟨fun h => h.perm hts, fun h => h.perm hts.symm⟩
  have hbindings : manifest.tokenInput ∈ bindings ts ↔
      manifest.tokenInput ∈ bindings (tensors.map asRead) := (hts.filterMap _).mem_iff
  simp only [hmatched, hbindings, hts.mem_iff] at hactivated
  simp only [activateThinGenerativeCapsule, hread, decodeSingleEmbedded_eq_ok (hsingle hgraph) rfl,
    decodeSingleEmbedded_eq_ok (hsingle htokenizer) rfl,
    decodeSingleEmbedded_eq_ok (hsingle hmanifest) rfl, decodeGraph_of_encode h.graph,
    (decodeNativeTokenizer_of_encode h.tokenizer).1, decodeNativeGenerativeManifest_of_encode h.manifest,
    hsplit, hkind, bind_eq_ok, mapError_eq_ok, Except.ok.injEq, exists_eq_left', exists_unit,
    refuse_eq_ok, okOr_eq_ok, Option.some.injEq, not_not, true_and, pure_eq_ok,
    validateManifest_eq_ok]
  constructor
  · rintro ⟨_, ⟨hinput, houtput, hvocabulary⟩, byId, hbyId, r, hr, hkeys, hvalue, rfl⟩
    obtain ⟨hmatched, hsome, hfree⟩ := hactivated.1 ⟨byId, r, hbyId, hr, hkeys, hvalue⟩
    exact ⟨hmatched, hsome, hinput, houtput, hvocabulary, hfree⟩
  · rintro ⟨hmatched, hsome, hinput, houtput, hvocabulary, hfree⟩
    obtain ⟨byId, r, hbyId, hr, hkeys, hvalue⟩ := hactivated.2 ⟨hmatched, hsome, hfree⟩
    exact ⟨_, ⟨hinput, houtput, hvocabulary⟩, byId, hbyId, r, hr, hkeys, hvalue, rfl⟩

/-! ## Both loaders -/

/-- A file of this kind with these sections, in any order. -/
def Written (kind : CapsuleKind) (chunks : List ChunkSpec) (b : Bytes) : Prop :=
  ∃ builder : CapsuleBuilder, builder.kind = kind ∧ builder.chunks.Perm chunks ∧ builder.write = .ok b

/-- What is written is read back, chunk by chunk. -/
theorem Written.read {kind : CapsuleKind} {chunks : List ChunkSpec} (h : Written kind chunks b) :
    ∃ v, CapsuleView.read b = .ok v ∧ v.kind = kind ∧ v.chunks.Perm (chunks.map Capsule.view) := by
  obtain ⟨builder, hkind, hchunks, hwrite⟩ := h
  obtain ⟨header, manifest, index, body, hsealed⟩ := Capsule.exists_sealed_of_write hwrite
  exact ⟨_, hsealed.read, hkind, hchunks.map _⟩

/-- A tensor that is bound is read as it is, or bound to the largest id and read as unbound. -/
theorem asRead_ne_none_iff (h : t.graphValue ≠ none) :
    (asRead t).graphValue ≠ none ↔ t.graphValue ≠ some ⟨noGraphBinding⟩ := by
  obtain ⟨⟨value⟩, hvalue⟩ := Option.ne_none_iff_exists'.1 h
  by_cases hmax : value = noGraphBinding
  · simp [asRead, NativeTensor.readBinding, hvalue, hmax]
  · simp [asRead, NativeTensor.readBinding, hvalue, hmax]

/-- Without a binding to the largest id, the shards are read back as they were. -/
theorem map_asRead (h : ∀ t ∈ tensors, t.graphValue ≠ some ⟨noGraphBinding⟩) :
    tensors.map asRead = tensors :=
  (List.map_congr_left fun t ht => NativeTensor.readBinding_tensor_eq_iff.2 (h t ht)).trans
    (List.map_id' _)

variable {a : Bytes} {store' : ContentStore}

/-- When the full loader accepts a written capsule. -/
theorem full_iff (h : Encodes graph tokenizer manifest descriptors tensors s)
    (hfull : Written .full s.full b) :
    (∃ v p, CapsuleView.read b = .ok v ∧ loadNativeGenerativeProgram v store' = .ok p) ↔
      Matched graph descriptors (tensors.map asRead) := by
  obtain ⟨v, hread, -, hchunks⟩ := hfull.read
  have hiff : (∃ p, loadNativeGenerativeProgram v store' = .ok p) ↔ _ := load_full_iff h hchunks
  rw [← hiff]
  constructor
  · rintro ⟨v', p, hread', hload⟩
    obtain rfl := Except.ok.inj (hread.symm.trans hread')
    exact ⟨p, hload⟩
  · rintro ⟨p, hload⟩
    exact ⟨v, p, hread, hload⟩

/-- The shards of a full capsule have lengths that fit. -/
theorem length_shard (hfull : Written .full s.full b) :
    ∀ bytes ∈ s.shards, bytes.length < 2 ^ 64 := by
  intro bytes hbytes
  obtain ⟨v, hread, -, hchunks⟩ := hfull.read
  have hmem : Capsule.view ⟨.tensors, .embedded bytes⟩ ∈ v.chunks := by
    refine hchunks.mem_iff.2 (List.mem_map_of_mem (List.mem_append_right _ ?_))
    exact List.mem_map.2 ⟨bytes, hbytes, rfl⟩
  obtain ⟨-, hlen⟩ := Capsule.embedded_of_read hread hmem rfl
  exact hlen ▸ UInt64.toNat_lt _

/-- When the thin loader accepts a written capsule. -/
theorem thin_iff (h : Encodes graph tokenizer manifest descriptors tensors s)
    (hbound : ∀ t ∈ tensors, t.graphValue ≠ none) (hthin : Written .thin s.thin a)
    (hlen : ∀ bytes ∈ s.shards, bytes.length < 2 ^ 64)
    (hstore : ∀ bytes ∈ s.shards, store (sha256 bytes) = some bytes) :
    (∃ r, activateThinGenerativeCapsule a store = .ok r) ↔
      Matched graph descriptors (tensors.map asRead) ∧
      (∀ t ∈ tensors, t.graphValue ≠ some ⟨noGraphBinding⟩) ∧
      Consistent graph tokenizer manifest tensors := by
  obtain ⟨v, hread, hkind, hchunks⟩ := hthin.read
  rw [activate_thin_iff h hlen hstore hread hkind hchunks, List.forall_mem_map]
  have hall : (∀ t ∈ tensors, (asRead t).graphValue ≠ none) ↔
      ∀ t ∈ tensors, t.graphValue ≠ some ⟨noGraphBinding⟩ :=
    forall₂_congr fun t ht => asRead_ne_none_iff (hbound t ht)
  rw [hall]
  refine and_congr_right fun _ => and_congr_right fun hnoMax => ?_
  rw [map_asRead hnoMax]

/-- **When both loaders accept the same.**  On the same sections, with the shards in the store, the thin
loader accepts what the full one does exactly if tensors that match the table and the graph come with
a manifest that is consistent with the graph and the tokenizer, and none is bound to the largest id. -/
theorem loaders_agree_iff (h : Encodes graph tokenizer manifest descriptors tensors s)
    (hbound : ∀ t ∈ tensors, t.graphValue ≠ none) (hthin : Written .thin s.thin a)
    (hfull : Written .full s.full b)
    (hstore : ∀ bytes ∈ s.shards, store (sha256 bytes) = some bytes) (store' : ContentStore) :
    ((∃ r, activateThinGenerativeCapsule a store = .ok r) ↔
      ∃ v p, CapsuleView.read b = .ok v ∧ loadNativeGenerativeProgram v store' = .ok p) ↔
    (Matched graph descriptors (tensors.map asRead) →
      (∀ t ∈ tensors, t.graphValue ≠ some ⟨noGraphBinding⟩) ∧
      Consistent graph tokenizer manifest tensors) := by
  rw [full_iff h hfull, thin_iff h hbound hthin (length_shard hfull) hstore]
  exact ⟨fun hagree hmatched => (hagree.2 hmatched).2, fun himp =>
    ⟨fun hthin => hthin.1, fun hmatched => ⟨hmatched, himp hmatched⟩⟩⟩

end Loaders

namespace AgreeSample

/-- A graph that answers its input of token ids, beside an input for a tensor. -/
def graph : Graph where
  version := .current
  inputs := [⟨⟨2⟩, .tensor .i32 1⟩, ⟨⟨3⟩, .tensor .u8 1⟩]
  outputs := [⟨2⟩]
  nodes := []

def tokenizer : NativeTokenizerDescriptor where
  tokens := [[97]]
  bosToken := none
  eosToken := none
  unknownToken := none
  model := .vocabulary

/-- A manifest for that graph and so many tokens. -/
def manifest (vocabularySize : UInt32) : NativeGenerativeManifest where
  tokenInput := ⟨2⟩
  distributionOutput := 0
  vocabularySize := vocabularySize

/-- The tensors of the program: one, bound to the second input. -/
def boundTensors : List NativeTensor := [ProgramSample.tensor]

def sections (vocabularySize : UInt32) : Sections where
  graph := (encodeGraph graph).toOption.getD []
  tokenizer := (encodeNativeTokenizer tokenizer).toOption.getD []
  manifest := (encodeNativeGenerativeManifest (manifest vocabularySize)).toOption.getD []
  table := ProgramSample.tableFile
  shards := [ProgramSample.shardFile]

def builder (kind : CapsuleKind) (chunks : List ChunkSpec) : CapsuleBuilder where
  kind := kind
  capsuleId := ⟨List.replicate 16 7, ProgramSample.length_sevens⟩
  baseRoot := none
  chunks := chunks

theorem encodes (vocabularySize : UInt32)
    (h : (encodeNativeGenerativeManifest (manifest vocabularySize)).toOption.isSome) :
    Encodes graph tokenizer (manifest vocabularySize) (boundTensors.map NativeTensor.descriptor)
      boundTensors (sections vocabularySize) where
  graph := eq_ok_getD (by decide +kernel) []
  tokenizer := eq_ok_getD (by decide +kernel) []
  manifest := eq_ok_getD h []
  table := eq_ok_getD (by decide +kernel) []
  shards := .cons (TensorSample.encode_tensor ..) .nil

theorem graphValue_ne_none : ∀ t ∈ boundTensors, t.graphValue ≠ none := by decide

theorem graphValue_ne_max : ∀ t ∈ boundTensors, t.graphValue ≠ some ⟨noGraphBinding⟩ := by decide

theorem matched :
    Matched graph (boundTensors.map NativeTensor.descriptor) (boundTensors.map asRead) := by
  rw [map_asRead graphValue_ne_max]
  exact { ProgramSample.matched with
    bound := fun t ht value hvalue => by
      obtain rfl := List.mem_singleton.1 ht
      obtain rfl := Option.some.inj hvalue
      rfl }

/-- Capsules of both kinds whose manifest counts one token. -/
theorem writes_one : (builder .thin (sections 1).thin).write.toOption.isSome ∧
    (builder .full (sections 1).full).write.toOption.isSome := by
  constructor <;> decide +kernel

/-- The same, with a manifest that counts two. -/
theorem writes_two : (builder .thin (sections 2).thin).write.toOption.isSome ∧
    (builder .full (sections 2).full).write.toOption.isSome := by
  constructor <;> decide +kernel

theorem exists_written {vocabularySize : UInt32}
    (h : (builder .thin (sections vocabularySize).thin).write.toOption.isSome ∧
      (builder .full (sections vocabularySize).full).write.toOption.isSome) :
    ∃ a b, Written .thin (sections vocabularySize).thin a ∧
      Written .full (sections vocabularySize).full b := by
  obtain ⟨a, ha⟩ := exists_eq_ok h.1
  obtain ⟨b, hb⟩ := exists_eq_ok h.2
  exact ⟨a, b, ⟨_, rfl, .refl _, ha⟩, _, rfl, .refl _, hb⟩

/-- The shard is in the store. -/
theorem stored (vocabularySize : UInt32) : ∀ bytes ∈ (sections vocabularySize).shards,
    ProgramSample.store (sha256 bytes) = some bytes := by
  intro bytes hbytes
  obtain rfl := List.mem_singleton.1 hbytes
  exact if_pos rfl

end AgreeSample

open AgreeSample in
/-- One tensor, embedded in the full capsule and in the store beside the thin one: both accept. -/
theorem loaders_agree_sample : ∃ a b, Written .thin (sections 1).thin a ∧
    Written .full (sections 1).full b ∧
    (∃ r, activateThinGenerativeCapsule a ProgramSample.store = .ok r) ∧
    ∃ v p, CapsuleView.read b = .ok v ∧
      loadNativeGenerativeProgram v ProgramSample.store = .ok p := by
  obtain ⟨a, b, ha, hb⟩ := exists_written writes_one
  have hencodes := encodes 1 (by decide +kernel)
  have hconsistent : Consistent graph tokenizer (AgreeSample.manifest 1) boundTensors :=
    ⟨⟨_, rfl, rfl⟩, Nat.one_pos, rfl, by decide⟩
  have hload : ∃ v p, CapsuleView.read b = .ok v ∧
      loadNativeGenerativeProgram v ProgramSample.store = .ok p := (full_iff hencodes hb).2 matched
  have hagree := (loaders_agree_iff hencodes graphValue_ne_none ha hb (stored 1)
    ProgramSample.store).2 fun _ => ⟨graphValue_ne_max, hconsistent⟩
  exact ⟨a, b, ha, hb, hagree.2 hload, hload⟩

open AgreeSample in
/-- A manifest that counts two tokens where the tokenizer has one is only refused by the thin loader. -/
theorem not_loaders_agree : ¬ ∀ (graph : Graph) (tokenizer : NativeTokenizerDescriptor)
    (manifest : NativeGenerativeManifest) (tensors : List NativeTensor) (s : Sections) (a b : Bytes)
    (store store' : ContentStore),
    Encodes graph tokenizer manifest (tensors.map NativeTensor.descriptor) tensors s →
    (∀ t ∈ tensors, t.graphValue ≠ none) → Written .thin s.thin a → Written .full s.full b →
    (∀ bytes ∈ s.shards, store (sha256 bytes) = some bytes) →
    ((∃ r, activateThinGenerativeCapsule a store = .ok r) ↔
      ∃ v p, CapsuleView.read b = .ok v ∧ loadNativeGenerativeProgram v store' = .ok p) := by
  intro h
  obtain ⟨a, b, ha, hb⟩ := exists_written writes_two
  have hencodes := encodes 2 (by decide +kernel)
  have hagree := h _ _ _ _ _ a b ProgramSample.store ProgramSample.store hencodes
    graphValue_ne_none ha hb (stored 2)
  obtain ⟨-, -, -, -, hvocabulary, -⟩ :=
    (thin_iff hencodes graphValue_ne_none ha (length_shard hb) (stored 2)).1
      (hagree.2 ((full_iff hencodes hb).2 matched))
  exact absurd hvocabulary (by decide)

end Activation

end NTD97
