import Mathlib
import NTD97.Capsule.Canonical
import NTD97.Lib.SortedMap
import NTD97.NativeTensor

/-!
# NativeProgram — loading a graph and its tensors from a capsule

    graph chunk ▪ tensor chunks ──resolve──▸ graph ▪ one table ▪ shards ──match──▸ program

A chunk that is not embedded is looked up in a content store by its hash.  `Loads` says what loading
answers in terms of the resolved contents alone; it does not see their order, nor where they were.
-/

namespace NTD97

open Guard Wire SortedMap

/-- The contents at hand outside a capsule, by their hash. -/
abbrev ContentStore := Digest → Option Bytes

/-- A graph and its tensors. -/
structure NativeProgram where
  graph : Graph
  tensors : List NativeTensor
  deriving DecidableEq

namespace NativeProgram

/-- The bytes of a chunk; those kept elsewhere are checked by length and hash. -/
def resolveChunk (store : ContentStore) (chunk : ChunkView) : Except NativeTensorError Bytes :=
  match chunk.storage with
  | .embedded bytes => return bytes
  | .external => do
    let bytes ← okOr (store chunk.hash) (.missingExternalContent chunk.hash)
    let actual ← lenU64 bytes.length
    refuse (actual ≠ chunk.logicalLen) (.externalLengthMismatch chunk.logicalLen actual)
    refuse (sha256 bytes ≠ chunk.hash) (.externalIntegrityMismatch chunk.hash)
    return bytes

/-- The only graph chunk. -/
def graphChunk : List ChunkView → Except NativeTensorError ChunkView
  | [] => throw .missingGraph
  | [chunk] => return chunk
  | _ :: _ :: _ => throw .multipleGraphs

/-- One tensor chunk, after the table and the shards before it. -/
def loadTensorChunk (store : ContentStore)
    (loaded : Option (List TensorDescriptor) × List NativeTensor) (chunk : ChunkView) :
    Except NativeTensorError (Option (List TensorDescriptor) × List NativeTensor) := do
  let bytes ← resolveChunk store chunk
  if tensorDescriptorMagic <+: bytes then do
    refuse loaded.1.isSome .multipleDescriptorTables
    let descriptors ← (decodeTensorDescriptors .current bytes).mapError .descriptor
    return (some descriptors, loaded.2)
  else if nativeTensorMagic <+: bytes then do
    let shard ← decodeNativeTensor .current bytes
    return (loaded.1, loaded.2 ++ [shard])
  else throw .unknownTensorChunk

/-- A descriptor whose id is new. -/
def insertDescriptor (byId : BTreeMap UInt32 TensorDescriptor) (descriptor : TensorDescriptor) :
    Except NativeTensorError (BTreeMap UInt32 TensorDescriptor) := do
  refuse (descriptor.id ∈ byId) (.duplicateTensorId descriptor.id)
  return byId.insert descriptor.id descriptor

/-- The declared type of a graph input can hold a tensor of this descriptor. -/
def Holds (descriptor : TensorDescriptor) : ValueType → Prop
  | .scalar dtype => dtype = descriptor.dtype ∧ descriptor.shape = []
  | .tensor dtype rank => dtype = descriptor.dtype ∧ rank.toNat = descriptor.shape.length
  | .bytes => False
  | .handle => False

instance (descriptor : TensorDescriptor) : (ty : ValueType) → Decidable (Holds descriptor ty)
  | .scalar _ => inferInstanceAs (Decidable (_ ∧ _))
  | .tensor .. => inferInstanceAs (Decidable (_ ∧ _))
  | .bytes => inferInstanceAs (Decidable False)
  | .handle => inferInstanceAs (Decidable False)

/-- The value that a tensor is bound to is a tensor of its type in the graph. -/
def validateGraphBinding (graph : Graph) (value : ValueId) (descriptor : TensorDescriptor) :
    Except NativeTensorError Unit := do
  let decl ← okOr (graph.inputs.find? (·.id = value)) (.graphBindingMissing value)
  refuse (¬ Holds descriptor decl.ty) (.graphBindingTypeMismatch value)

/-- One shard, after the ids and the bindings before it. -/
def checkShard (graph : Graph) (byId : BTreeMap UInt32 TensorDescriptor) (seen : IdSet × IdSet)
    (shard : NativeTensor) : Except NativeTensorError (IdSet × IdSet) := do
  refuse (shard.descriptor.id ∈ seen.1) (.duplicateTensorId shard.descriptor.id)
  let descriptor ← okOr byId[shard.descriptor.id]? (.unknownTensorShard shard.descriptor.id)
  refuse (descriptor ≠ shard.descriptor) (.tensorDescriptorMismatch shard.descriptor.id)
  match shard.graphValue with
  | none => return (seen.1.insert shard.descriptor.id, seen.2)
  | some value => do
    refuse (value.val ∈ seen.2) (.duplicateGraphBinding value)
    validateGraphBinding graph value descriptor
    return (seen.1.insert shard.descriptor.id, seen.2.insert value.val)

/-- The order of the sort, by id. -/
def idLe (a b : NativeTensor) : Bool := a.descriptor.id ≤ b.descriptor.id

end NativeProgram

open NativeProgram

/-- `load_native_program`: one graph, one table, and a shard for each of its entries. -/
def loadNativeProgram (capsule : CapsuleView) (store : ContentStore) :
    Except NativeTensorError NativeProgram := do
  let chunk ← graphChunk (capsule.chunks.filter (·.kind = .graph))
  let content ← resolveChunk store chunk
  let graph ← (decodeGraph content).mapError .graph
  let (table, shards) ← (capsule.chunks.filter (·.kind = .tensors)).foldlM (loadTensorChunk store)
    (none, [])
  let descriptors ← okOr table .missingDescriptorTable
  let byId ← descriptors.foldlM insertDescriptor ∅
  let (seenTensorIds, _) ← shards.foldlM (checkShard graph byId) (∅, ∅)
  byId.keys.forM fun id => refuse (id ∉ seenTensorIds) (.missingTensorShard id)
  return { graph, tensors := shards.mergeSort idLe }

namespace NativeProgram

/-! ## What the chunks contribute

A tensor chunk holds the table or a shard; the first bytes say which. -/

/-- What a tensor chunk holds: a table or a shard. -/
def tensorPart (store : ContentStore) (chunk : ChunkView) :
    Except NativeTensorError (List TensorDescriptor ⊕ NativeTensor) := do
  let bytes ← resolveChunk store chunk
  if tensorDescriptorMagic <+: bytes then do
    let descriptors ← (decodeTensorDescriptors .current bytes).mapError .descriptor
    return .inl descriptors
  else if nativeTensorMagic <+: bytes then do
    let shard ← decodeNativeTensor .current bytes
    return .inr shard
  else throw .unknownTensorChunk

/-- A table or a shard. -/
abbrev Part := List TensorDescriptor ⊕ NativeTensor

/-- The tables among the parts. -/
def tables (parts : List Part) : List (List TensorDescriptor) := parts.filterMap Sum.getLeft?

/-- The shards among the parts. -/
def shards (parts : List Part) : List NativeTensor := parts.filterMap Sum.getRight?

/-- An option is the list of its value. -/
theorem toList_option_inj {α : Type} {o o' : Option α} (h : o.toList = o'.toList) : o = o' := by
  cases o <;> cases o' <;> simp_all

/-- What stands at the front of an option's list is an option's list. -/
theorem exists_option_of_append {α : Type} {o : Option α} {l l' : List α}
    (h : o.toList = l ++ l') : ∃ o' : Option α, o'.toList = l := by
  cases l with
  | nil => exact ⟨none, rfl⟩
  | cons a l =>
    cases o with
    | none => exact nomatch h
    | some x =>
      obtain ⟨rfl, htail⟩ := List.cons.inj h
      obtain ⟨rfl, -⟩ := List.append_eq_nil_iff.1 htail.symm
      exact ⟨some x, rfl⟩

theorem tables_cons (part : Part) (parts : List Part) :
    tables (part :: parts) = tables [part] ++ tables parts :=
  List.filterMap_append (l := [part])

theorem shards_cons (part : Part) (parts : List Part) :
    shards (part :: parts) = shards [part] ++ shards parts :=
  List.filterMap_append (l := [part])

section Load

variable {store store' : ContentStore} {chunk : ChunkView} {chunks chunks' : List ChunkView}
  {graph : Graph} {descriptors : List TensorDescriptor} {parts parts' : List Part}
  {loaded r : Option (List TensorDescriptor) × List NativeTensor}

/-- A chunk that holds a table. -/
theorem tensorPart_eq_table : tensorPart store chunk = .ok (.inl descriptors) ↔ ∃ bytes,
    resolveChunk store chunk = .ok bytes ∧ tensorDescriptorMagic <+: bytes ∧
      decodeTensorDescriptors .current bytes = .ok descriptors := by
  simp only [tensorPart, bind_eq_ok]
  refine exists_congr fun bytes => and_congr_right fun _ => ?_
  by_cases hmagic : tensorDescriptorMagic <+: bytes
  · simp [-bind_pure_comp, hmagic]
  · by_cases hshard : nativeTensorMagic <+: bytes
    · simp [-bind_pure_comp, hmagic, hshard]
    · simp [hmagic, hshard]

/-- A chunk that holds a shard. -/
theorem tensorPart_eq_shard {shard : NativeTensor} : tensorPart store chunk = .ok (.inr shard) ↔
    ∃ bytes, resolveChunk store chunk = .ok bytes ∧ ¬ tensorDescriptorMagic <+: bytes ∧
      nativeTensorMagic <+: bytes ∧ decodeNativeTensor .current bytes = .ok shard := by
  simp only [tensorPart, bind_eq_ok]
  refine exists_congr fun bytes => and_congr_right fun _ => ?_
  by_cases hmagic : tensorDescriptorMagic <+: bytes
  · simp [-bind_pure_comp, hmagic]
  · by_cases hshard : nativeTensorMagic <+: bytes
    · simp [-bind_pure_comp, hmagic, hshard]
    · simp [hmagic, hshard]

/-- One chunk adds one part. -/
theorem loadTensorChunk_eq_ok : loadTensorChunk store loaded chunk = .ok r ↔
    ∃ part, tensorPart store chunk = .ok part ∧
      r.1.toList = loaded.1.toList ++ tables [part] ∧ r.2 = loaded.2 ++ shards [part] := by
  obtain ⟨table, before⟩ := loaded
  obtain ⟨table', after⟩ := r
  simp only [loadTensorChunk, tensorPart, bind_eq_ok]
  cases hbytes : resolveChunk store chunk with
  | error e => simp
  | ok bytes =>
    simp only [Except.ok.injEq, exists_eq_left']
    split
    · simp only [bind_eq_ok, exists_unit, refuse_eq_ok, mapError_eq_ok, pure_eq_ok, Prod.mk.injEq]
      constructor
      · rintro ⟨hnone, descriptors, hdecode, rfl, rfl⟩
        obtain rfl : table = none := by simpa using hnone
        exact ⟨_, ⟨descriptors, hdecode, rfl⟩, rfl, (List.append_nil _).symm⟩
      · rintro ⟨_, ⟨descriptors, hdecode, rfl⟩, htable, rfl⟩
        cases table with
        | some t =>
          cases table' <;> simp [tables] at htable
        | none =>
          cases table' with
          | none => simp [tables] at htable
          | some t =>
            obtain rfl : t = descriptors := by simpa [tables] using htable
            exact ⟨by simp, t, hdecode, rfl, (List.append_nil _).symm⟩
    · split
      · simp only [bind_eq_ok, pure_eq_ok, Prod.mk.injEq]
        constructor
        · rintro ⟨shard, hdecode, rfl, rfl⟩
          exact ⟨_, ⟨shard, hdecode, rfl⟩, (List.append_nil _).symm, rfl⟩
        · rintro ⟨_, ⟨shard, hdecode, rfl⟩, htable, rfl⟩
          refine ⟨shard, hdecode, ?_, rfl⟩
          have htable' : table'.toList = table.toList := htable.trans (List.append_nil _)
          exact (toList_option_inj htable').symm
      · simp

/-- The loop over the tensor chunks collects their parts. -/
theorem foldlM_loadTensorChunk_eq_ok :
    ∀ {chunks : List ChunkView} {loaded r : Option (List TensorDescriptor) × List NativeTensor},
    chunks.foldlM (loadTensorChunk store) loaded = .ok r ↔
      ∃ parts, List.Forall₂ (fun c part => tensorPart store c = .ok part) chunks parts ∧
        r.1.toList = loaded.1.toList ++ tables parts ∧ r.2 = loaded.2 ++ shards parts
  | [], loaded, r => by
      rw [List.foldlM_nil, pure_eq_ok]
      constructor
      · rintro rfl
        exact ⟨[], .nil, (List.append_nil _).symm, (List.append_nil _).symm⟩
      · rintro ⟨parts, hparts, htable, hshards⟩
        cases hparts
        refine Prod.ext ?_ (hshards.trans (List.append_nil _)).symm
        exact (toList_option_inj (htable.trans (List.append_nil _))).symm
  | chunk :: chunks, loaded, r => by
      simp only [List.foldlM_cons, bind_eq_ok, loadTensorChunk_eq_ok, foldlM_loadTensorChunk_eq_ok,
        List.forall₂_cons_left_iff]
      constructor
      · rintro ⟨mid, ⟨part, hpart, htable, hshards⟩, parts, hparts, htables, hrest⟩
        refine ⟨part :: parts, ⟨part, parts, hpart, hparts, rfl⟩, ?_, ?_⟩
        · rw [htables, htable, tables_cons part parts, List.append_assoc]
        · rw [hrest, hshards, shards_cons part parts, List.append_assoc]
      · rintro ⟨_, ⟨part, parts, hpart, hparts, rfl⟩, htables, hshards⟩
        rw [tables_cons part parts, ← List.append_assoc] at htables
        rw [shards_cons part parts, ← List.append_assoc] at hshards
        obtain ⟨table, htable⟩ := exists_option_of_append htables
        refine ⟨(table, loaded.2 ++ shards [part]), ⟨part, hpart, htable, rfl⟩, parts, hparts, ?_,
          hshards⟩
        rw [htables, htable]

/-! ## Matching the shards with the table

Each shard has its own entry and, if it is bound, its own value. -/

/-- A bound shard: its value is a graph input that can hold it. -/
def Bound (graph : Graph) (shard : NativeTensor) : Prop :=
  ∀ value, shard.graphValue = some value →
    validateGraphBinding graph value shard.descriptor = .ok ()

/-- The bindings of the shards. -/
def bindings (shards : List NativeTensor) : List ValueId := shards.filterMap NativeTensor.graphValue

/-- **The shards are the tensors of the table**, one for each, and no graph input is bound twice. -/
structure Matched (graph : Graph) (descriptors : List TensorDescriptor)
    (shards : List NativeTensor) : Prop where
  table : (descriptors.map TensorDescriptor.id).Nodup
  ids : (shards.map fun t => t.descriptor.id).Nodup
  known : ∀ t ∈ shards, t.descriptor ∈ descriptors
  covered : ∀ d ∈ descriptors, ∃ t ∈ shards, t.descriptor.id = d.id
  distinct : (bindings shards).Nodup
  bound : ∀ t ∈ shards, Bound graph t

/-- One shard, after those seen. -/
theorem checkShard_eq_ok {byId : BTreeMap UInt32 TensorDescriptor} {seen seen' : IdSet × IdSet}
    {t : NativeTensor} : checkShard graph byId seen t = .ok seen' ↔
      (byId[t.descriptor.id]? = some t.descriptor ∧ Bound graph t) ∧
      Fresh seen.1 [t.descriptor.id] ∧ Fresh seen.2 ((bindings [t]).map ValueId.val) ∧
      seen' = (insertAll seen.1 [t.descriptor.id],
        insertAll seen.2 ((bindings [t]).map ValueId.val)) := by
  simp only [checkShard, bind_eq_ok, exists_unit, refuse_eq_ok, okOr_eq_ok, not_not,
    fresh_singleton, Bound]
  cases hvalue : t.graphValue with
  | none =>
    have hbindings : bindings [t] = [] := by simp [bindings, hvalue]
    rw [hbindings]
    simp only [pure_eq_ok]
    constructor
    · rintro ⟨hid, d, hd, rfl, rfl⟩
      exact ⟨⟨hd, fun _ h => by cases h⟩, hid, ⟨List.nodup_nil, fun _ h => by cases h⟩, rfl⟩
    · rintro ⟨⟨hd, -⟩, hid, -, rfl⟩
      exact ⟨hid, _, hd, rfl, rfl⟩
  | some value =>
    have hbindings : bindings [t] = [value] := by simp [bindings, hvalue]
    rw [hbindings]
    simp only [bind_eq_ok, exists_unit, refuse_eq_ok, pure_eq_ok, List.map_cons, List.map_nil,
      fresh_singleton]
    constructor
    · rintro ⟨hid, d, hd, rfl, hfresh, hbound, rfl⟩
      refine ⟨⟨hd, fun v h => ?_⟩, hid, hfresh, rfl⟩
      obtain rfl := Option.some.inj h
      exact hbound
    · rintro ⟨⟨hd, hbound⟩, hid, hfresh, rfl⟩
      exact ⟨hid, _, hd, rfl, hfresh, hbound value rfl, rfl⟩

/-- All shards. -/
theorem foldlM_checkShard_eq_ok {byId : BTreeMap UInt32 TensorDescriptor} :
    ∀ {l : List NativeTensor} {seen seen' : IdSet × IdSet},
    l.foldlM (checkShard graph byId) seen = .ok seen' ↔
      (∀ t ∈ l, byId[t.descriptor.id]? = some t.descriptor ∧ Bound graph t) ∧
      Fresh seen.1 (l.map fun t => t.descriptor.id) ∧
      Fresh seen.2 ((bindings l).map ValueId.val) ∧
      seen' = (insertAll seen.1 (l.map fun t => t.descriptor.id),
        insertAll seen.2 ((bindings l).map ValueId.val))
  | [], seen, seen' => by
      rw [List.foldlM_nil, pure_eq_ok]
      simp [Fresh, bindings, insertAll, eq_comm]
  | t :: l, seen, seen' => by
      have hids : (t :: l).map (fun t => t.descriptor.id) =
          [t.descriptor.id] ++ l.map (fun t => t.descriptor.id) := rfl
      have hbindings : (bindings (t :: l)).map ValueId.val =
          (bindings [t]).map ValueId.val ++ (bindings l).map ValueId.val := by
        rw [← List.map_append]
        exact congrArg _ (List.filterMap_append (l := [t]))
      have hinsert : ∀ (s : IdSet) (keys keys' : List UInt32),
          insertAll s (keys ++ keys') = insertAll (insertAll s keys) keys' :=
        fun _ _ _ => List.foldl_append
      rw [hids, hbindings, fresh_append, fresh_append, List.forall_mem_cons, hinsert, hinsert]
      simp only [List.foldlM_cons, bind_eq_ok, checkShard_eq_ok, foldlM_checkShard_eq_ok]
      constructor
      · rintro ⟨_, ⟨ht, hid, hbinding, rfl⟩, hl, hfresh, hfresh', rfl⟩
        exact ⟨⟨ht, hl⟩, ⟨hid, hfresh⟩, ⟨hbinding, hfresh'⟩, rfl⟩
      · rintro ⟨⟨ht, hl⟩, ⟨hid, hfresh⟩, ⟨hbinding, hfresh'⟩, rfl⟩
        exact ⟨_, ⟨ht, hid, hbinding, rfl⟩, hl, hfresh, hfresh', rfl⟩

/-- A table without a repeated id. -/
theorem foldlM_insertDescriptor_eq_ok {byId : BTreeMap UInt32 TensorDescriptor} :
    descriptors.foldlM insertDescriptor ∅ = .ok byId ↔
      (descriptors.map TensorDescriptor.id).Nodup ∧ byId = fileAll TensorDescriptor.id ∅ descriptors
    := by
  have hbody : ∀ m d r, insertDescriptor m d = .ok r ↔ d.id ∉ m ∧ r = m.insert d.id d := by
    intro m d r
    simp only [insertDescriptor, bind_eq_ok, exists_unit, refuse_eq_ok, pure_eq_ok]
    exact and_congr_right fun _ => eq_comm
  have hempty : ∀ d ∈ descriptors, d.id ∉ (∅ : BTreeMap UInt32 TensorDescriptor) :=
    fun _ _ => Std.ExtTreeMap.not_mem_empty
  rw [foldlM_file hbody]
  exact ⟨fun h => ⟨h.1, h.2.2⟩, fun h => ⟨h.1, hempty, h.2⟩⟩

/-- The table filed by the ids is looked up by them. -/
theorem getElem?_table (htable : (descriptors.map TensorDescriptor.id).Nodup) {id : UInt32}
    {descriptor : TensorDescriptor} :
    (fileAll TensorDescriptor.id ∅ descriptors)[id]? = some descriptor ↔
      descriptor ∈ descriptors ∧ descriptor.id = id := by
  rw [getElem?_fileAll htable]
  simp

/-- **The shards against the table filed by its ids**, as every loader checks them. -/
theorem matched_iff_table {l : List NativeTensor} : ((descriptors.map TensorDescriptor.id).Nodup ∧
    (∀ t ∈ l, (fileAll TensorDescriptor.id ∅ descriptors)[t.descriptor.id]? = some t.descriptor ∧
      Bound graph t) ∧
    (l.map fun t => t.descriptor.id).Nodup ∧ (bindings l).Nodup ∧
    ∀ id ∈ (fileAll TensorDescriptor.id ∅ descriptors).keys,
      id ∈ l.map fun t => t.descriptor.id) ↔ Matched graph descriptors l := by
  constructor
  · rintro ⟨htable, hshards, hids, hdistinct, hkeys⟩
    refine ⟨htable, hids, fun t ht => ((getElem?_table htable).1 (hshards t ht).1).1,
      fun d hd => ?_, hdistinct, fun t ht => (hshards t ht).2⟩
    have hkey : d.id ∈ (fileAll TensorDescriptor.id ∅ descriptors).keys := by
      rw [Std.ExtTreeMap.mem_keys, Std.ExtTreeMap.mem_iff_isSome_getElem?,
        (getElem?_table htable).2 ⟨hd, rfl⟩]
      rfl
    obtain ⟨t, ht, hid⟩ := List.mem_map.1 (hkeys _ hkey)
    exact ⟨t, ht, hid⟩
  · rintro ⟨htable, hids, hknown, hcovered, hdistinct, hbound⟩
    refine ⟨htable, fun t ht => ⟨(getElem?_table htable).2 ⟨hknown t ht, rfl⟩, hbound t ht⟩, hids,
      hdistinct, fun k hk => ?_⟩
    rw [Std.ExtTreeMap.mem_keys, Std.ExtTreeMap.mem_iff_isSome_getElem?,
      Option.isSome_iff_exists] at hk
    obtain ⟨d, hfound⟩ := hk
    obtain ⟨hd, rfl⟩ := (getElem?_table htable).1 hfound
    obtain ⟨t, ht, hid⟩ := hcovered d hd
    exact List.mem_map.2 ⟨t, ht, hid⟩

/-- Values are told apart by their numbers. -/
theorem val_injective : Function.Injective ValueId.val := fun a b h => by
  cases a
  cases b
  cases h
  rfl

/-- **The checks of the loader** accept exactly the matched shards. -/
theorem matched_iff {l : List NativeTensor} : (∃ byId seen,
    descriptors.foldlM insertDescriptor ∅ = .ok byId ∧
    l.foldlM (checkShard graph byId) (∅, ∅) = .ok seen ∧
    (byId.keys.forM fun id => refuse (id ∉ seen.1) (.missingTensorShard id) :
      Except NativeTensorError Unit) = .ok ()) ↔ Matched graph descriptors l := by
  have hseen {id : UInt32} : id ∈ insertAll ∅ (l.map fun t => t.descriptor.id) ↔
      id ∈ l.map fun t => t.descriptor.id := by
    rw [mem_insertAll, or_iff_right Std.ExtTreeSet.not_mem_empty]
  simp only [foldlM_insertDescriptor_eq_ok, foldlM_checkShard_eq_ok, forM_eq_ok, refuse_eq_ok,
    not_not, fresh_empty_iff, List.nodup_map_iff val_injective, ← matched_iff_table]
  constructor
  · rintro ⟨_, _, ⟨htable, rfl⟩, ⟨hshards, hids, hbindings, rfl⟩, hkeys⟩
    exact ⟨htable, hshards, hids, hbindings, fun id hid => hseen.1 (hkeys id hid)⟩
  · rintro ⟨htable, hshards, hids, hbindings, hkeys⟩
    exact ⟨_, _, ⟨htable, rfl⟩, ⟨hshards, hids, hbindings, rfl⟩, fun id hid => hseen.2 (hkeys id hid)⟩

/-- **What loading answers**, in terms of the contents of the chunks. -/
structure Loads (store : ContentStore) (chunks : List ChunkView) (p : NativeProgram)
    (chunk : ChunkView) (content : Bytes) (parts : List Part)
    (descriptors : List TensorDescriptor) : Prop where
  single : chunks.filter (·.kind = .graph) = [chunk]
  resolved : resolveChunk store chunk = .ok content
  graph : decodeGraph content = .ok p.graph
  read : List.Forall₂ (fun c part => tensorPart store c = .ok part)
    (chunks.filter (·.kind = .tensors)) parts
  table : tables parts = [descriptors]
  matched : Matched p.graph descriptors (shards parts)
  sorted : p.tensors = (shards parts).mergeSort idLe

/-- The graph stands in the only chunk of its kind. -/
theorem graphChunk_eq_ok : graphChunk chunks = .ok chunk ↔ chunks = [chunk] := by
  cases chunks with
  | nil => exact ⟨fun h => (nomatch h), fun h => (nomatch h)⟩
  | cons c l =>
    cases l with
    | nil => exact ⟨fun h => by rw [Except.ok.inj h], fun h => by rw [(List.cons.inj h).1]; rfl⟩
    | cons c' l => exact ⟨fun h => (nomatch h), fun h => (nomatch h)⟩

/-- **What loading checks**, as a statement about the parts. -/
theorem loadNativeProgram_eq_ok {capsule : CapsuleView} {p : NativeProgram} :
    loadNativeProgram capsule store = .ok p ↔ ∃ chunk content parts descriptors,
      Loads store capsule.chunks p chunk content parts descriptors := by
  simp only [loadNativeProgram, bind_eq_ok, exists_unit, graphChunk_eq_ok, mapError_eq_ok,
    okOr_eq_ok, pure_eq_ok, foldlM_loadTensorChunk_eq_ok]
  constructor
  · rintro ⟨chunk, hsingle, content, hresolved, graph, hgraph, ⟨table, l⟩,
      ⟨parts, hparts, htable, rfl⟩, descriptors, rfl, byId, hbyId, seen, hseen, hkeys, rfl⟩
    exact ⟨chunk, content, parts, descriptors, hsingle, hresolved, hgraph, hparts, htable.symm,
      matched_iff.1 ⟨byId, seen, hbyId, hseen, hkeys⟩, rfl⟩
  · rintro ⟨chunk, content, parts, descriptors, hsingle, hresolved, hgraph, hparts, htable, hmatched,
      hsorted⟩
    obtain ⟨byId, seen, hbyId, hseen, hkeys⟩ := matched_iff.2 hmatched
    refine ⟨chunk, hsingle, content, hresolved, p.graph, hgraph, (some descriptors, shards parts),
      ⟨parts, hparts, htable.symm, rfl⟩, descriptors, rfl, byId, hbyId, seen, hseen, hkeys, ?_⟩
    rw [← hsorted]

/-! ## Order and place do not matter

The parts are looked at as a set: the shards are sorted at the end, and contents count, not their
place. -/

/-- The order of the shards does not matter. -/
theorem Matched.perm {l l' : List NativeTensor} (hl : l.Perm l')
    (h : Matched graph descriptors l) : Matched graph descriptors l' where
  table := h.table
  ids := (hl.map _).nodup_iff.1 h.ids
  known t ht := h.known t (hl.mem_iff.2 ht)
  covered d hd := by
    obtain ⟨t, ht, hid⟩ := h.covered d hd
    exact ⟨t, hl.mem_iff.1 ht, hid⟩
  distinct := (hl.filterMap _).nodup_iff.1 h.distinct
  bound t ht := h.bound t (hl.mem_iff.2 ht)

theorem pairwise_mergeSort (l : List NativeTensor) :
    (l.mergeSort idLe).Pairwise fun a b => a.descriptor.id ≤ b.descriptor.id := by
  have h : (l.mergeSort idLe).Pairwise fun a b => idLe a b = true := by
    refine List.pairwise_mergeSort (fun a b c hab hbc => ?_) (fun a b => ?_) l
    · simp only [idLe, decide_eq_true_eq] at hab hbc ⊢
      exact UInt32.le_trans hab hbc
    · simp only [idLe, Bool.or_eq_true, decide_eq_true_eq]
      exact UInt32.le_total _ _
  exact h.imp fun hab => of_decide_eq_true hab

/-- The sort answers the same for every order of shards with different ids. -/
theorem mergeSort_eq_of_perm {l l' : List NativeTensor}
    (hids : (l.map fun t => t.descriptor.id).Nodup) (hl : l.Perm l') :
    l.mergeSort idLe = l'.mergeSort idLe := by
  have hperm : (l.mergeSort idLe).Perm (l'.mergeSort idLe) :=
    (List.mergeSort_perm l idLe).trans (hl.trans (List.mergeSort_perm l' idLe).symm)
  refine hperm.eq_of_pairwise (fun a b ha hb hab hba => ?_) (pairwise_mergeSort l)
    (pairwise_mergeSort l')
  have ha' : a ∈ l := List.mem_mergeSort.1 ha
  have hb' : b ∈ l := hl.mem_iff.2 (List.mem_mergeSort.1 hb)
  exact List.inj_on_of_nodup_map hids ha' hb' (UInt32.le_antisymm hab hba)

/-- The order of the chunks does not matter. -/
theorem Loads.perm {p : NativeProgram} {content : Bytes} (hchunks : chunks.Perm chunks')
    (h : Loads store chunks p chunk content parts descriptors) :
    ∃ parts', Loads store chunks' p chunk content parts' descriptors := by
  obtain ⟨parts', hread, hparts⟩ := List.perm_comp_forall₂ (hchunks.filter _).symm h.read
  have hshards : (shards parts).Perm (shards parts') := hparts.symm.filterMap _
  refine ⟨parts', ?_, h.resolved, h.graph, hread, ?_, h.matched.perm hshards, ?_⟩
  · exact List.perm_singleton.1 (h.single ▸ (hchunks.filter _).symm)
  · exact List.perm_singleton.1 (h.table ▸ hparts.filterMap Sum.getLeft?)
  · rw [h.sorted, mergeSort_eq_of_perm h.matched.ids hshards]

/-- Two chunks that a loader cannot tell apart. -/
def Same (store : ContentStore) (c c' : ChunkView) : Prop :=
  c.kind = c'.kind ∧ resolveChunk store c = resolveChunk store c'

/-- The chunks of one kind have the same contents. -/
theorem Same.filter {kind : SectionKind} (h : List.Forall₂ (Same store) chunks chunks') :
    List.Forall₂ (Same store) (chunks.filter (·.kind = kind)) (chunks'.filter (·.kind = kind)) := by
  induction h with
  | nil => exact .nil
  | cons hsame _ ih =>
    simp only [List.filter_cons, hsame.1]
    split
    · exact .cons hsame ih
    · exact ih

/-- Chunks of the same contents contribute the same. -/
theorem tensorPart_eq {c c' : ChunkView} (h : Same store c c') :
    tensorPart store c = tensorPart store c' := by
  rw [tensorPart, tensorPart, h.2]

/-- Only the contents matter. -/
theorem Loads.same {p : NativeProgram} {content : Bytes}
    (hchunks : List.Forall₂ (Same store) chunks chunks')
    (h : Loads store chunks p chunk content parts descriptors) :
    ∃ chunk', Loads store chunks' p chunk' content parts descriptors := by
  have hsingle : List.Forall₂ (Same store) (chunks.filter (·.kind = .graph))
      (chunks'.filter (·.kind = .graph)) := Same.filter hchunks
  rw [h.single] at hsingle
  obtain ⟨chunk', _, hsame, hnil, hfilter⟩ := List.forall₂_cons_left_iff.1 hsingle
  obtain rfl := List.forall₂_nil_left_iff.1 hnil
  refine ⟨chunk', hfilter, hsame.2 ▸ h.resolved, h.graph, ?_, h.table, h.matched, h.sorted⟩
  have hcomp : ∀ {l l' : List ChunkView} {parts : List Part}, List.Forall₂ (Same store) l l' →
      List.Forall₂ (fun c part => tensorPart store c = .ok part) l parts →
      List.Forall₂ (fun c part => tensorPart store c = .ok part) l' parts := by
    intro l l' parts hl
    induction hl generalizing parts with
    | nil => exact id
    | cons hsame _ ih =>
      intro hparts
      cases hparts with
      | cons hpart hparts => exact .cons (tensorPart_eq hsame ▸ hpart) (ih hparts)
  exact hcomp (Same.filter hchunks) h.read

/-- The chunks in another order, some of them in other places. -/
def Rearranged (R : ChunkView → ChunkView → Prop) (chunks chunks' : List ChunkView) : Prop :=
  ∃ l, chunks.Perm l ∧ List.Forall₂ R l chunks'

theorem loadNativeProgram_of_same {capsule capsule' : CapsuleView} {p : NativeProgram}
    (h : Rearranged (Same store) capsule.chunks capsule'.chunks)
    (hload : loadNativeProgram capsule store = .ok p) : loadNativeProgram capsule' store = .ok p := by
  obtain ⟨l, hperm, hsame⟩ := h
  obtain ⟨chunk, content, parts, descriptors, hloads⟩ := loadNativeProgram_eq_ok.1 hload
  obtain ⟨parts', hloads⟩ := hloads.perm hperm
  obtain ⟨chunk', hloads⟩ := hloads.same hsame
  exact loadNativeProgram_eq_ok.2 ⟨chunk', content, parts', descriptors, hloads⟩

theorem Same.symm {c c' : ChunkView} (h : Same store c c') : Same store c' c := ⟨h.1.symm, h.2.symm⟩

theorem rearranged_symm (h : Rearranged (Same store) chunks chunks') :
    Rearranged (Same store) chunks' chunks := by
  obtain ⟨l, hperm, hsame⟩ := h
  have hsame' : List.Forall₂ (Same store) chunks' l := hsame.flip.imp fun _ _ h => Same.symm h
  have h : Relation.Comp (List.Forall₂ (Same store)) List.Perm chunks' chunks :=
    ⟨l, hsame', hperm.symm⟩
  rw [List.forall₂_comp_perm_eq_perm_comp_forall₂] at h
  exact h

/-- `c'` is `c`, or refers to the payload of `c` by its hash and length, and the store has it. -/
def Moved (store : ContentStore) (c c' : ChunkView) : Prop :=
  c' = c ∨ ∃ bytes, c.storage = .embedded bytes ∧ c' = { c with storage := .external } ∧
    store c.hash = some bytes

/-- The hash and the length of an embedded chunk are those of its payload. -/
def Sound (c : ChunkView) : Prop :=
  ∀ bytes, c.storage = .embedded bytes → c.hash = sha256 bytes ∧ c.logicalLen.toNat = bytes.length

theorem Moved.same {c c' : ChunkView} (hsound : Sound c) (h : Moved store c c') :
    Same store c c' := by
  rcases h with rfl | ⟨bytes, hstorage, rfl, hstore⟩
  · exact ⟨rfl, rfl⟩
  · obtain ⟨hhash, hlen⟩ := hsound bytes hstorage
    refine ⟨rfl, ?_⟩
    have hexternal : resolveChunk store { c with storage := .external } = .ok bytes := by
      simp only [resolveChunk, bind_eq_ok, exists_unit, okOr_eq_ok, refuse_eq_ok, pure_eq_ok,
        not_not, lenU64_eq_ok]
      exact ⟨bytes, hstore, c.logicalLen, hlen, rfl, hhash.symm, rfl⟩
    rw [hexternal, resolveChunk, hstorage]
    rfl

theorem same_of_moved (hsound : ∀ c ∈ chunks, Sound c)
    (h : List.Forall₂ (Moved store) chunks chunks') : List.Forall₂ (Same store) chunks chunks' := by
  induction h with
  | nil => exact .nil
  | cons hmoved _ ih =>
    obtain ⟨hsound, hrest⟩ := List.forall_mem_cons.1 hsound
    exact .cons (hmoved.same hsound) (ih hrest)

/-! ## What a loaded program is

Its graph is valid, and every bound value is a value of the graph. -/

/-- **A program assembled from the chunks**: its tensors in the order of their ids, one for each entry
of the table, and each bound one at its own graph input. -/
structure Assembled (store : ContentStore) (chunks : List ChunkView) (p : NativeProgram) : Prop where
  ascending : p.tensors.Pairwise fun a b => a.descriptor.id < b.descriptor.id
  table : ∃ chunk ∈ chunks, chunk.kind = .tensors ∧ ∃ bytes descriptors,
    resolveChunk store chunk = .ok bytes ∧
    decodeTensorDescriptors .current bytes = .ok descriptors ∧
    (p.tensors.map NativeTensor.descriptor).Perm descriptors
  distinct : (bindings p.tensors).Nodup
  bound : ∀ t ∈ p.tensors, ∀ value, t.graphValue = some value →
    ∃ decl ∈ p.graph.inputs, decl.id = value ∧ Holds t.descriptor decl.ty

theorem validateGraphBinding_holds {value : ValueId} {descriptor : TensorDescriptor}
    (h : validateGraphBinding graph value descriptor = .ok ()) :
    ∃ decl ∈ graph.inputs, decl.id = value ∧ Holds descriptor decl.ty := by
  simp only [validateGraphBinding, bind_eq_ok, okOr_eq_ok, refuse_eq_ok, not_not] at h
  obtain ⟨decl, hfind, hholds⟩ := h
  have hid : decl.id = value := by simpa using List.find?_some hfind
  exact ⟨decl, List.mem_of_find?_eq_some hfind, hid, hholds⟩

/-- The descriptors of matched shards are those of the table. -/
theorem Matched.perm_table {l : List NativeTensor} (h : Matched graph descriptors l) :
    (l.map NativeTensor.descriptor).Perm descriptors := by
  have hids : ((l.map NativeTensor.descriptor).map TensorDescriptor.id).Nodup := by
    rw [List.map_map]
    exact h.ids
  refine (List.perm_ext_iff_of_nodup (List.Nodup.of_map _ hids) (List.Nodup.of_map _ h.table)).2
    fun d => ⟨fun hd => ?_, fun hd => ?_⟩
  · obtain ⟨t, ht, rfl⟩ := List.mem_map.1 hd
    exact h.known t ht
  · obtain ⟨t, ht, hid⟩ := h.covered d hd
    exact List.mem_map.2 ⟨t, ht, List.inj_on_of_nodup_map h.table (h.known t ht) hd hid⟩

/-- Different ids are sorted strictly. -/
theorem pairwise_lt_mergeSort {l : List NativeTensor}
    (hids : (l.map fun t => t.descriptor.id).Nodup) :
    (l.mergeSort idLe).Pairwise fun a b => a.descriptor.id < b.descriptor.id := by
  have hne : (l.mergeSort idLe).Pairwise fun a b => a.descriptor.id ≠ b.descriptor.id :=
    List.pairwise_map.1 (((List.mergeSort_perm l idLe).map _).nodup_iff.2 hids)
  exact ((pairwise_mergeSort l).and hne).imp fun h => UInt32.lt_of_le_of_ne h.1 h.2

theorem exists_table {l : List ChunkView}
    (hread : List.Forall₂ (fun c part => tensorPart store c = .ok part) l parts)
    (htable : descriptors ∈ tables parts) : ∃ c ∈ l, ∃ bytes, resolveChunk store c = .ok bytes ∧
      decodeTensorDescriptors .current bytes = .ok descriptors := by
  induction hread with
  | nil => exact nomatch htable
  | @cons c part l parts hpart _ ih =>
    rw [tables_cons part parts, List.mem_append] at htable
    rcases htable with htable | htable
    · refine ⟨c, .head _, ?_⟩
      cases part with
      | inr shard => exact nomatch htable
      | inl found =>
        obtain rfl : descriptors = found := List.mem_singleton.1 htable
        obtain ⟨bytes, hbytes, -, hdecode⟩ := tensorPart_eq_table.1 hpart
        exact ⟨bytes, hbytes, hdecode⟩
    · obtain ⟨c', hc', hbytes⟩ := ih htable
      exact ⟨c', .tail _ hc', hbytes⟩

/-- **What is loaded is assembled.** -/
theorem assembled_of_load {capsule : CapsuleView} {p : NativeProgram}
    (h : loadNativeProgram capsule store = .ok p) : Assembled store capsule.chunks p := by
  obtain ⟨chunk, content, parts, descriptors, hloads⟩ := loadNativeProgram_eq_ok.1 h
  have hmatched := hloads.matched
  have hperm : (p.tensors).Perm (shards parts) := hloads.sorted ▸ List.mergeSort_perm _ idLe
  have hmatched' := hmatched.perm hperm.symm
  refine ⟨hloads.sorted ▸ pairwise_lt_mergeSort hmatched.ids, ?_, hmatched'.distinct, ?_⟩
  · obtain ⟨c, hc, bytes, hbytes, hdecode⟩ :=
      exists_table hloads.read (hloads.table ▸ List.mem_singleton_self descriptors)
    obtain ⟨hmem, hkind⟩ := List.mem_filter.1 hc
    exact ⟨c, hmem, of_decide_eq_true hkind, bytes, descriptors, hbytes, hdecode,
      hmatched'.perm_table⟩
  · intro t ht value hvalue
    exact validateGraphBinding_holds (hmatched'.bound t ht value hvalue)

end Load

end NativeProgram

/-- **Loading depends on the contents only.**  From an accepted capsule, the chunks in another order
and embedded chunks moved to the store load the same program or none; and a loaded program has its
tensors in the order of their ids, one for each entry of the table, each bound one at an input of its
own that can hold it. -/
theorem load_contentOnly (b : Bytes) (v : CapsuleView) (hread : CapsuleView.read b = .ok v)
    (store : ContentStore) :
    (∀ v', Rearranged (NativeProgram.Moved store) v.chunks v'.chunks →
      ∀ p, loadNativeProgram v store = .ok p ↔ loadNativeProgram v' store = .ok p) ∧
    ∀ p, loadNativeProgram v store = .ok p → Assembled store v.chunks p := by
  refine ⟨fun v' ⟨l, hperm, hmoved⟩ p => ?_, fun p => assembled_of_load⟩
  have hsound : ∀ c ∈ l, Sound c := fun c hc bytes hstorage =>
    Capsule.embedded_of_read hread (hperm.mem_iff.2 hc) hstorage
  have h : Rearranged (Same store) v.chunks v'.chunks := ⟨l, hperm, same_of_moved hsound hmoved⟩
  exact ⟨loadNativeProgram_of_same h, loadNativeProgram_of_same (rearranged_symm h)⟩

namespace ProgramSample

/-- A graph that answers its input of one number. -/
def graph : Graph where
  version := .current
  inputs := [⟨⟨3⟩, .tensor .u8 1⟩]
  outputs := [⟨3⟩]
  nodes := []

def tensor : NativeTensor := TensorSample.tensor (some ⟨3⟩)

def graphFile : Bytes := (encodeGraph graph).toOption.getD []

def tableFile : Bytes := (encodeTensorDescriptors .current [tensor.descriptor]).toOption.getD []

def shardFile : Bytes := TensorSample.file .current (some ⟨3⟩)

theorem length_sevens : (List.replicate 16 (7 : UInt8)).length = 16 := rfl

def builder : CapsuleBuilder where
  kind := .full
  capsuleId := ⟨List.replicate 16 7, length_sevens⟩
  baseRoot := none
  chunks := [⟨.graph, .embedded graphFile⟩, ⟨.tensors, .embedded tableFile⟩,
    ⟨.tensors, .embedded shardFile⟩]

def file : Bytes := builder.write.toOption.getD []

def store : ContentStore := fun hash => if hash = sha256 shardFile then some shardFile else none

def program : NativeProgram := ⟨graph, [tensor]⟩

theorem write_builder : builder.write = .ok file := eq_ok_getD (by decide +kernel) []

theorem matched : Matched graph [tensor.descriptor] [tensor] where
  table := List.nodup_singleton _
  ids := List.nodup_singleton _
  known _ ht := List.mem_singleton.1 ht ▸ .head _
  covered _ hd := List.mem_singleton.1 hd ▸ ⟨tensor, .head _, rfl⟩
  distinct := List.nodup_singleton _
  bound t ht value hvalue := by
    obtain rfl := List.mem_singleton.1 ht
    obtain rfl := Option.some.inj hvalue
    rfl

theorem load_program {v : CapsuleView} (hchunks : v.chunks = builder.chunks.map Capsule.view) :
    loadNativeProgram v store = .ok program := by
  have htable : decodeTensorDescriptors .current tableFile = .ok [tensor.descriptor] := by
    decide +kernel
  have hshard : decodeNativeTensor .current shardFile = .ok tensor :=
    (NativeTensor.decodeNativeTensor_of_encode (TensorSample.encode_tensor ..)).2 ⟨rfl, rfl⟩
  refine loadNativeProgram_eq_ok.2 ⟨Capsule.view ⟨.graph, .embedded graphFile⟩, graphFile,
    [.inl [tensor.descriptor], .inr tensor], [tensor.descriptor], ?_⟩
  rw [hchunks]
  refine ⟨rfl, rfl, by decide +kernel, .cons ?_ (.cons ?_ .nil), rfl, matched,
    (List.mergeSort_singleton tensor).symm⟩
  · exact tensorPart_eq_table.2 ⟨tableFile, rfl, by decide +kernel, htable⟩
  · exact tensorPart_eq_shard.2 ⟨shardFile, rfl, by decide +kernel, by decide +kernel, hshard⟩

end ProgramSample

open ProgramSample in
theorem load_contentOnly_shardMoved : ∃ v v', CapsuleView.read file = .ok v ∧
    v'.chunks.map ChunkView.storage =
      [.external, .embedded graphFile, .embedded tableFile] ∧
    loadNativeProgram v store = .ok program ∧ loadNativeProgram v' store = .ok program := by
  obtain ⟨header, manifest, index, body, hsealed⟩ := Capsule.exists_sealed_of_write write_builder
  let v := Capsule.viewOf builder .current (Capsule.metadataRoot manifest index)
  let shard := Capsule.view ⟨.tensors, .embedded shardFile⟩
  let rest := [Capsule.view ⟨.graph, .embedded graphFile⟩, Capsule.view ⟨.tensors, .embedded tableFile⟩]
  let v' := { v with chunks := { shard with storage := .external } :: rest }
  have hmoved : NativeProgram.Moved store shard { shard with storage := .external } :=
    .inr ⟨shardFile, rfl, rfl, if_pos rfl⟩
  have hrearranged : Rearranged (NativeProgram.Moved store) v.chunks v'.chunks :=
    ⟨shard :: rest, (List.perm_append_singleton shard rest), .cons hmoved
      (.cons (.inl rfl) (.cons (.inl rfl) .nil))⟩
  have hload := load_program (v := v) rfl
  exact ⟨v, v', hsealed.read, rfl, hload,
    ((load_contentOnly file v hsealed.read store).1 v' hrearranged program).1 hload⟩

end NTD97
