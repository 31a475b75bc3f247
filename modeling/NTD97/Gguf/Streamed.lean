import Mathlib
import NTD97.Gguf.Forward
import NTD97.Gguf.Shards
import NTD97.Package

/-!
# Gguf/Streamed — a model lowered into a shard store

    tensor ──encode──▸ bytes ──sha256──▸ digest        store: digest ↦ bytes        shard: digest ▪ length

A lowering hands each tensor to a sink, or keeps it.  The store of shards is a sink; here it is the
map from digests to bytes that its files amount to, when no file operation fails.  A model is lowered into the store exactly if it is
lowered in memory and the store takes its tensors, and nothing else tells the two apart.
-/

namespace NTD97

open Guard Wire Slices

/-! ## Models whose tensors are elsewhere -/

/-- A streamed lowering, with what no package of it needs. -/
structure StreamedLlamaModel extends StreamedLoweredLlamaModel where
  config : LlamaConfig
  bindings : List LlamaTensorBinding

def lowerLlamaModelToShards (ops : F32Ops) (f16ToF32 : UInt16 → F32) (source : GgufByteSource)
    (model : GgufModel) (sink : TensorShardSink) : Code GgufError StreamedLlamaModel := do
  let parts ← lowerLlamaModelInternal ops f16ToF32 (some sink) source model
  refuse (parts.tensors ≠ []) (.nativeLowering
    (.text "streamed lowering retained native tensor payloads"))
  return {
    config := parts.config
    graph := parts.graph
    tensorShards := parts.tensorShards
    tokenizer := parts.tokenizer
    tokenInput := parts.tokenInput
    distributionOutput := parts.distributionOutput
    vocabularySize := parts.vocabularySize
    bindings := parts.bindings }

/-- A model in memory, without its tensors, and with these shards. -/
def LoweredLlamaModel.streamed (self : LoweredLlamaModel) (tensorShards : List TensorShardRef) :
    StreamedLlamaModel where
  config := self.config
  graph := self.graph
  tensorShards := tensorShards
  tokenizer := self.tokenizer
  tokenInput := self.tokenInput
  distributionOutput := self.distributionOutput
  vocabularySize := self.vocabularySize
  bindings := self.bindings

/-! ## The store -/

namespace ShardContents

def empty : FileTensorShardStore := fun _ => none

/-- Bytes are put under their digest; those that are there already have to be as long. -/
def persistContentAddressed (store : FileTensorShardStore) (hash : Digest) (bytes : Bytes) :
    Except GgufError FileTensorShardStore :=
  match store hash with
  | some existing => do
    refuse (existing.length ≠ bytes.length ∨ sha256 existing ≠ hash) .invalidTensor
    return store
  | none => return Function.update store hash (some bytes)

def storeTensor (store : FileTensorShardStore) (tensor : NativeTensor) :
    Except GgufError (TensorShardRef × FileTensorShardStore) := do
  let encoded ← (encodeNativeTensor .current tensor).mapError fun e =>
    GgufError.nativeLowering (.shard e)
  let hash := sha256 encoded
  let store ← persistContentAddressed store hash encoded
  refuse (2 ^ 64 ≤ encoded.length) .limitExceeded
  return ({
    descriptor := tensor.descriptor
    graphValue := tensor.graphValue
    logicalLen := UInt64.ofNat encoded.length
    hash }, store)

/-- One tensor, after the shards before it. -/
def storeNext (kept : List TensorShardRef × FileTensorShardStore) (tensor : NativeTensor) :
    Except GgufError (List TensorShardRef × FileTensorShardStore) := do
  let (shard, store) ← storeTensor kept.2 tensor
  return (kept.1 ++ [shard], store)

/-- Tensors, one after the other, into an empty store. -/
def storeTensors (tensors : List NativeTensor) :
    Except GgufError (List TensorShardRef × FileTensorShardStore) :=
  tensors.foldlM storeNext ([], empty)

/-- **The sink of the store**: the shards so far say under which digests there are how many bytes. -/
def sink : TensorShardSink := fun shards tensor => do
  let encoded ← (encodeNativeTensor .current tensor).mapError fun e =>
    GgufError.nativeLowering (.shard e)
  let hash := sha256 encoded
  refuse (∃ shard ∈ shards, shard.hash = hash ∧ shard.logicalLen.toNat ≠ encoded.length)
    .invalidTensor
  refuse (2 ^ 64 ≤ encoded.length) .limitExceeded
  return {
    descriptor := tensor.descriptor
    graphValue := tensor.graphValue
    logicalLen := UInt64.ofNat encoded.length
    hash }

variable {store store' : FileTensorShardStore} {shards shards' : List TensorShardRef}
  {tensor : NativeTensor} {tensors : List NativeTensor} {shard : TensorShardRef} {hash : Digest}
  {bytes : Bytes}

/-- The shard that bytes of a tensor make. -/
def shardOf (tensor : NativeTensor) (bytes : Bytes) : TensorShardRef where
  descriptor := tensor.descriptor
  graphValue := tensor.graphValue
  logicalLen := UInt64.ofNat bytes.length
  hash := sha256 bytes

theorem persistContentAddressed_eq_ok :
    persistContentAddressed store hash bytes = .ok store' ↔
      (store hash = none ∧ store' = Function.update store hash (some bytes)) ∨
        ∃ existing, store hash = some existing ∧ existing.length = bytes.length ∧
          sha256 existing = hash ∧ store' = store := by
  rw [persistContentAddressed]
  cases hfound : store hash with
  | none =>
    rw [pure_eq_ok]
    exact ⟨fun h => .inl ⟨rfl, h.symm⟩, fun h => h.elim (·.2.symm) fun h => (nomatch h.choose_spec.1)⟩
  | some existing =>
    simp only [bind_eq_ok, exists_unit, refuse_eq_ok, not_or, not_not, pure_eq_ok, reduceCtorEq,
      false_and, false_or, Option.some.injEq, exists_eq_left', and_assoc, eq_comm (a := store)]

theorem storeTensor_eq_ok : storeTensor store tensor = .ok (shard, store') ↔ ∃ bytes,
    encodeNativeTensor .current tensor = .ok bytes ∧
      persistContentAddressed store (sha256 bytes) bytes = .ok store' ∧ bytes.length < 2 ^ 64 ∧
        shard = shardOf tensor bytes := by
  simp only [storeTensor, bind_eq_ok, exists_unit, mapError_eq_ok, refuse_eq_ok, not_le, pure_eq_ok,
    Prod.mk.injEq]
  constructor
  · rintro ⟨bytes, hbytes, store'', hpersist, hlt, rfl, rfl⟩
    exact ⟨bytes, hbytes, hpersist, hlt, rfl⟩
  · rintro ⟨bytes, hbytes, hpersist, hlt, rfl⟩
    exact ⟨bytes, hbytes, store', hpersist, hlt, rfl, rfl⟩

/-- **The store holds what the shards say**, and nothing else. -/
structure Keeps (shards : List TensorShardRef) (store : FileTensorShardStore) : Prop where
  named : ∀ hash bytes, store hash = some bytes →
    sha256 bytes = hash ∧ ∃ shard ∈ shards, shard.hash = hash
  held : ∀ shard ∈ shards, ∃ bytes, store shard.hash = some bytes ∧
    bytes.length = shard.logicalLen.toNat

namespace Keeps

theorem empty : Keeps [] ShardContents.empty :=
  ⟨fun _ _ h => (nomatch h), fun _ h => (nomatch h)⟩

/-- **Step lemma**: the store holds what it is given, and keeps what it held. -/
theorem storeTensor (h : Keeps shards store)
    (hstore : ShardContents.storeTensor store tensor = .ok (shard, store')) :
    Keeps (shards ++ [shard]) store' := by
  obtain ⟨bytes, -, hpersist, hlt, rfl⟩ := storeTensor_eq_ok.1 hstore
  have hlen : (UInt64.ofNat bytes.length).toNat = bytes.length := UInt64.toNat_ofNat_of_lt' hlt
  rcases persistContentAddressed_eq_ok.1 hpersist with ⟨hnone, rfl⟩ | ⟨existing, hfound, hsame, -, rfl⟩
  · refine ⟨fun hash found hfound => ?_, fun shard hshard => ?_⟩
    · by_cases heq : hash = sha256 bytes
      · rw [heq, Function.update_self] at hfound
        obtain rfl := Option.some.inj hfound
        exact ⟨heq.symm, _, List.mem_append_right _ List.mem_cons_self, heq.symm⟩
      · rw [Function.update_of_ne heq] at hfound
        obtain ⟨hsha, shard, hshard, hhash⟩ := h.named hash found hfound
        exact ⟨hsha, shard, List.mem_append_left _ hshard, hhash⟩
    · rcases List.mem_append.1 hshard with hshard | hshard
      · obtain ⟨found, hfound, hlength⟩ := h.held shard hshard
        refine ⟨found, ?_, hlength⟩
        rwa [Function.update_of_ne]
        rintro heq
        rw [heq, hnone] at hfound
        cases hfound
      · obtain rfl := List.mem_singleton.1 hshard
        exact ⟨bytes, Function.update_self .., hlen.symm⟩
  · refine ⟨fun hash found hfound => ?_, fun shard hshard => ?_⟩
    · obtain ⟨hsha, shard, hshard, hhash⟩ := h.named hash found hfound
      exact ⟨hsha, shard, List.mem_append_left _ hshard, hhash⟩
    · rcases List.mem_append.1 hshard with hshard | hshard
      · exact h.held shard hshard
      · obtain rfl := List.mem_singleton.1 hshard
        exact ⟨existing, hfound, hsame.trans hlen.symm⟩

/-- **The sink answers as the store does.** -/
theorem sink_eq_ok (h : Keeps shards store) : sink shards tensor = .ok shard ↔
    ∃ store', ShardContents.storeTensor store tensor = .ok (shard, store') := by
  have hlengths {bytes : Bytes} : (∀ shard ∈ shards, shard.hash = sha256 bytes →
      shard.logicalLen.toNat = bytes.length) ↔
      ∃ store', persistContentAddressed store (sha256 bytes) bytes = .ok store' := by
    simp only [persistContentAddressed_eq_ok]
    cases hfound : store (sha256 bytes) with
    | none =>
      refine iff_of_true (fun shard hshard hhash => ?_) ⟨_, .inl ⟨rfl, rfl⟩⟩
      obtain ⟨found, hheld, -⟩ := h.held shard hshard
      rw [hhash, hfound] at hheld
      cases hheld
    | some existing =>
      obtain ⟨hsha, shard, hshard, hhash⟩ := h.named _ _ hfound
      constructor
      · intro hall
        obtain ⟨found, hheld, hlength⟩ := h.held shard hshard
        rw [hhash, hfound] at hheld
        obtain rfl := Option.some.inj hheld
        exact ⟨store, .inr ⟨existing, rfl, hlength.trans (hall shard hshard hhash), hsha, rfl⟩⟩
      · rintro ⟨_, ⟨hnone, -⟩ | ⟨_, hsome, hlength, -, -⟩⟩ shard hshard hhash
        · cases hnone
        · obtain rfl := Option.some.inj hsome
          obtain ⟨found, hheld, hlength'⟩ := h.held shard hshard
          rw [hhash, hfound] at hheld
          obtain rfl := Option.some.inj hheld
          exact hlength'.symm.trans hlength
  simp only [sink, storeTensor_eq_ok, bind_eq_ok, exists_unit, mapError_eq_ok, refuse_eq_ok,
    not_exists, not_and, not_not, not_le, pure_eq_ok, hlengths]
  constructor
  · rintro ⟨bytes, hbytes, ⟨store', hpersist⟩, hlt, rfl⟩
    exact ⟨store', bytes, hbytes, hpersist, hlt, rfl⟩
  · rintro ⟨store', bytes, hbytes, hpersist, hlt, rfl⟩
    exact ⟨bytes, hbytes, ⟨store', hpersist⟩, hlt, rfl⟩

end Keeps

theorem storeNext_eq_ok {kept kept' : List TensorShardRef × FileTensorShardStore} :
    storeNext kept tensor = .ok kept' ↔ ∃ shard, kept'.1 = kept.1 ++ [shard] ∧
      storeTensor kept.2 tensor = .ok (shard, kept'.2) := by
  obtain ⟨shards', store'⟩ := kept'
  simp only [storeNext, bind_eq_ok, pure_eq_ok, Prod.mk.injEq, Prod.exists]
  constructor
  · rintro ⟨shard, _, hstore, rfl, rfl⟩
    exact ⟨shard, rfl, hstore⟩
  · rintro ⟨shard, rfl, hstore⟩
    exact ⟨shard, store', hstore, rfl, rfl⟩

/-- **Run lemma**: behind all tensors, the store holds what the shards say. -/
theorem keeps_foldlM : ∀ {tensors : List NativeTensor}
    {kept kept' : List TensorShardRef × FileTensorShardStore}, Keeps kept.1 kept.2 →
      tensors.foldlM storeNext kept = .ok kept' → Keeps kept'.1 kept'.2
  | [], _, _, hkeeps, h => pure_eq_ok.1 h ▸ hkeeps
  | _ :: _, _, _, hkeeps, h => by
      rw [List.foldlM_cons, bind_eq_ok] at h
      obtain ⟨mid, hmid, h⟩ := h
      obtain ⟨shard, hshards, hstore⟩ := storeNext_eq_ok.1 hmid
      exact keeps_foldlM (hshards ▸ hkeeps.storeTensor hstore) h

theorem keeps_storeTensors (h : storeTensors tensors = .ok (shards, store)) : Keeps shards store :=
  keeps_foldlM Keeps.empty h

/-- One tensor more is stored behind the others. -/
theorem storeTensors_append : storeTensors (tensors ++ [tensor]) = .ok (shards', store') ↔
    ∃ shards store shard, storeTensors tensors = .ok (shards, store) ∧
      storeTensor store tensor = .ok (shard, store') ∧ shards' = shards ++ [shard] := by
  simp only [storeTensors, List.foldlM_append, List.foldlM_cons, List.foldlM_nil, bind_eq_ok,
    pure_eq_ok, storeNext_eq_ok, Prod.exists, exists_eq_right]
  constructor
  · rintro ⟨shards, store, hall, shard, hshards, hstore⟩
    exact ⟨shards, store, shard, hall, hstore, hshards⟩
  · rintro ⟨shards, store, shard, hall, hstore, hshards⟩
    exact ⟨shards, store, hall, shard, hshards, hstore⟩

/-- What a longer list stores, its beginning does. -/
theorem storeTensors_of_append {rest : List NativeTensor}
    (h : storeTensors (tensors ++ rest) = .ok (shards', store')) :
    ∃ shards store, storeTensors tensors = .ok (shards, store) := by
  rw [storeTensors, List.foldlM_append, bind_eq_ok] at h
  obtain ⟨kept, hkept, -⟩ := h
  exact ⟨kept.1, kept.2, hkept⟩

/-- **The bytes of the tensors**, as the shards say them. -/
theorem exists_encoded (h : storeTensors tensors = .ok (shards, store)) : ∃ encoded,
    List.Forall₂ (fun tensor bytes => encodeNativeTensor .current tensor = .ok bytes) tensors
      encoded ∧ (∀ bytes ∈ encoded, bytes.length < 2 ^ 64) ∧
    shards = List.zipWith shardOf tensors encoded := by
  induction tensors using List.reverseRecOn generalizing shards store with
  | nil =>
    obtain ⟨rfl, -⟩ := Prod.mk.inj (Except.ok.inj h)
    exact ⟨[], .nil, fun _ h => (nomatch h), rfl⟩
  | append_singleton tensors tensor ih =>
    obtain ⟨before, _, shard, hbefore, hstore, rfl⟩ := storeTensors_append.1 h
    obtain ⟨encoded, hencoded, hlt, rfl⟩ := ih hbefore
    obtain ⟨bytes, hbytes, -, hlen, rfl⟩ := storeTensor_eq_ok.1 hstore
    refine ⟨encoded ++ [bytes], List.rel_append hencoded (.cons hbytes .nil),
      List.forall_mem_append.2 ⟨hlt, List.forall_mem_singleton.2 hlen⟩, ?_⟩
    rw [List.zipWith_append hencoded.length_eq]
    rfl

/-- **Where no two shards have one digest, each tensor is held as it was encoded.** -/
theorem held_of_nodup (h : storeTensors tensors = .ok (shards, store))
    (hnodup : (shards.map TensorShardRef.hash).Nodup) : ∀ tensor ∈ tensors, ∀ bytes,
      encodeNativeTensor .current tensor = .ok bytes → store (sha256 bytes) = some bytes := by
  induction tensors using List.reverseRecOn generalizing shards store with
  | nil => exact fun _ h => (nomatch h)
  | append_singleton tensors last ih =>
    obtain ⟨before, store₀, shard, hbefore, hstore, rfl⟩ := storeTensors_append.1 h
    obtain ⟨bytes, hbytes, hpersist, -, rfl⟩ := storeTensor_eq_ok.1 hstore
    rw [List.map_append, List.map_singleton, List.nodup_append] at hnodup
    obtain ⟨hnodup, -, hnew⟩ := hnodup
    have hkeeps := keeps_storeTensors hbefore
    have hnone : store₀ (sha256 bytes) = none := by
      by_contra hsome
      obtain ⟨existing, hfound⟩ := Option.ne_none_iff_exists'.1 hsome
      obtain ⟨-, shard, hshard, hhash⟩ := hkeeps.named _ _ hfound
      exact hnew _ (List.mem_map_of_mem hshard) _ (List.mem_singleton_self _) hhash
    rcases persistContentAddressed_eq_ok.1 hpersist with ⟨-, rfl⟩ | ⟨existing, hfound, -⟩
    · rw [List.forall_mem_append, List.forall_mem_singleton]
      refine ⟨fun tensor htensor found hencode => ?_, fun found hencode => ?_⟩
      · have hheld := ih hbefore hnodup tensor htensor found hencode
        rw [Function.update_of_ne, hheld]
        rintro heq
        rw [heq, hnone] at hheld
        cases hheld
      · obtain rfl := Except.ok.inj (hbytes.symm.trans hencode)
        exact Function.update_self ..
    · rw [hnone] at hfound
      cases hfound

/-! ### The store, call by call -/

section Files

open Steps Inodes

variable {describe : Files.IoError → String} {process : ℕ} {d : Disk String}

/-- What the files of a store amount to. -/
def contents (d : Disk String) : FileTensorShardStore := fun hash =>
  d.contents (FileTensorShardStore.shardPath hash)

/-- What is published under the name of a digest stands under that digest. -/
theorem contents_published (h : d.Numbered) :
    contents (d.published (FileTensorShardStore.tempPath process hash)
      (FileTensorShardStore.shardPath hash) bytes) =
      Function.update (contents d) hash (some bytes) := by
  funext hash'
  have htemp := (FileTensorShardStore.tempPath_ne_shardPath process hash hash').symm
  rw [contents, Disk.contents_published h htemp, Function.update_apply]
  simp only [FileTensorShardStore.shardPath_injective.eq_iff, contents]

/-- Bytes that the contents take are stored. -/
theorem execute_persist_ok (describe : Files.IoError → String) (process : ℕ) (h : d.Numbered)
    (hpersist : persistContentAddressed (contents d) hash bytes = .ok store) :
    ∃ path d', execute answer
        (FileTensorShardStore.persistContentAddressed describe process hash bytes) d = (.ok path, d') ∧
      d'.Numbered ∧ contents d' = store := by
  have hrun : execute answer
      (FileTensorShardStore.persistContentAddressed describe process hash bytes) d = _ :=
    FileTensorShardStore.execute_persistContentAddressed
  rcases persistContentAddressed_eq_ok.1 hpersist with ⟨hnone, rfl⟩ | ⟨existing, hfound, hlen, hsha, rfl⟩
  · rw [contents] at hnone
    rw [hnone] at hrun
    exact ⟨_, _, hrun, h.published, contents_published h⟩
  · rw [contents] at hfound
    have hsame : ¬ (existing.length ≠ bytes.length ∨ sha256 existing ≠ hash) :=
      not_or.2 ⟨not_not.2 hlen, not_not.2 hsha⟩
    rw [hfound] at hrun
    change _ = (ite _ _ _, d) at hrun
    rw [if_neg hsame] at hrun
    exact ⟨_, d, hrun, h, rfl⟩

/-- Bytes that they refuse are not. -/
theorem execute_persist_error {e : GgufError}
    (hpersist : persistContentAddressed (contents d) hash bytes = .error e) :
    execute answer (FileTensorShardStore.persistContentAddressed describe process hash bytes) d =
      (.error e, d) := by
  rw [FileTensorShardStore.execute_persistContentAddressed]
  rw [persistContentAddressed, contents] at hpersist
  cases hfound : d.contents (FileTensorShardStore.shardPath hash) with
  | none =>
    rw [hfound] at hpersist
    cases hpersist
  | some existing =>
    rw [hfound] at hpersist
    change (refuse _ _ >>= _) = _ at hpersist
    rw [refuse] at hpersist
    change (ite _ _ _, d) = _
    split at hpersist
    · next hother =>
      rw [if_pos hother, Except.error.inj hpersist]
    · cases hpersist

/-- **A call that nothing disturbs does to the files what `storeTensor` does to the contents.** -/
theorem execute_storeTensor (describe : Files.IoError → String) (process : ℕ)
    (tensor : NativeTensor) (h : d.Numbered) :
    ∃ d', execute answer (FileTensorShardStore.storeTensor describe process .current tensor) d =
        ((storeTensor (contents d) tensor).map Prod.fst, d') ∧
      ∀ r, storeTensor (contents d) tensor = .ok r → d'.Numbered ∧ contents d' = r.2 := by
  rw [FileTensorShardStore.storeTensor, storeTensor]
  cases encodeNativeTensor .current tensor with
  | error e => exact ⟨d, rfl, fun r hr => by cases hr⟩
  | ok bytes =>
    change ∃ d', execute answer (FileTensorShardStore.persistContentAddressed describe process
      (sha256 bytes) bytes >>= _) d = ((persistContentAddressed (contents d) (sha256 bytes) bytes >>=
        _).map _, d') ∧ ∀ r, persistContentAddressed (contents d) (sha256 bytes) bytes >>= _ =
          _ → _
    cases hpersist : persistContentAddressed (contents d) (sha256 bytes) bytes with
    | error e =>
      exact ⟨d, execute_bind_error (execute_persist_error hpersist), fun r hr => by cases hr⟩
    | ok store =>
      obtain ⟨path, d', hrun, hnumbered, hcontents⟩ :=
        execute_persist_ok describe process h hpersist
      refine ⟨d', (execute_bind_ok hrun).trans ?_, fun r hr => ⟨hnumbered, hcontents.trans ?_⟩⟩
      · change execute answer (refuse _ _ >>= _) d' = (Except.map _ (refuse _ _ >>= _), d')
        unfold refuse
        split <;> rfl
      · obtain ⟨store', hstore', hr⟩ := bind_eq_ok.1 hr
        obtain ⟨⟨⟩, -, hlast⟩ := bind_eq_ok.1 hr
        rw [← pure_eq_ok.1 hlast]
        exact Except.ok.inj hstore'

/-- The calls for some tensors, one after the other. -/
def storeEach (describe : Files.IoError → String) (process : ℕ) (tensors : List NativeTensor) :
    FileTensorShardStore.ShardProg (List TensorShardRef) :=
  tensors.foldlM (fun shards tensor => do
    let shard ← FileTensorShardStore.storeTensor describe process .current tensor
    return shards ++ [shard]) []

/-- **So do the calls for some tensors**, in an empty directory. -/
theorem execute_storeEach (describe : Files.IoError → String) (process : ℕ)
    (tensors : List NativeTensor) :
    ∃ d', execute answer (storeEach describe process tensors) FileTensorShardStore.emptyDisk =
        ((storeTensors tensors).map Prod.fst, d') ∧
      ∀ r, storeTensors tensors = .ok r → contents d' = r.2 := by
  have hloop (shards : List TensorShardRef) (d : Disk String) (h : d.Numbered) : ∃ d',
      execute answer (tensors.foldlM (fun shards tensor => do
        let shard ← FileTensorShardStore.storeTensor describe process .current tensor
        return shards ++ [shard]) shards) d =
          ((tensors.foldlM storeNext (shards, contents d)).map Prod.fst, d') ∧
        ∀ r, tensors.foldlM storeNext (shards, contents d) = .ok r → contents d' = r.2 := by
    induction tensors generalizing shards d with
    | nil => exact ⟨d, rfl, fun r hr => by rw [← pure_eq_ok.1 hr]⟩
    | cons tensor tensors ih =>
      obtain ⟨d₁, hrun, hkept⟩ := execute_storeTensor describe process tensor h
      rw [List.foldlM_cons, List.foldlM_cons, storeNext]
      cases hstored : storeTensor (contents d) tensor with
      | error e =>
        rw [hstored] at hrun
        exact ⟨d₁, execute_bind_error (execute_bind_error hrun), fun r hr => by cases hr⟩
      | ok r =>
        obtain ⟨shard, store⟩ := r
        obtain ⟨hnumbered, hcontents⟩ := hkept _ hstored
        rw [hstored] at hrun
        obtain ⟨d₂, hrest, hlast⟩ := ih (shards ++ [shard]) d₁ hnumbered
        rw [hcontents] at hrest hlast
        exact ⟨d₂, (execute_bind_ok ((execute_bind_ok hrun).trans rfl)).trans hrest, hlast⟩
  have hempty : contents FileTensorShardStore.emptyDisk = empty := rfl
  have hnumbered : FileTensorShardStore.emptyDisk.Numbered := fun _ _ h => by cases h
  obtain ⟨d', hrun, hkept⟩ := hloop [] FileTensorShardStore.emptyDisk hnumbered
  rw [hempty] at hrun hkept
  exact ⟨d', hrun, hkept⟩

/-- **The calls of the store may run so**: some run of them ends with the answer of `storeTensors`, and
with its contents. -/
theorem exists_run_storeEach (describe : Files.IoError → String) (process : ℕ)
    (tensors : List NativeTensor) :
    ∃ events d', Run DoesDisk FileTensorShardStore.emptyDisk (storeEach describe process tensors)
        events d' (.ret ((storeTensors tensors).map Prod.fst)) ∧
      ∀ r, storeTensors tensors = .ok r → contents d' = r.2 := by
  obtain ⟨d', hrun, hkept⟩ := execute_storeEach describe process tensors
  have hsome := run_execute doesDisk_answer (storeEach describe process tensors)
    FileTensorShardStore.emptyDisk
  rw [hrun] at hsome
  exact ⟨_, d', hsome, hkept⟩

end Files

end ShardContents

/-! ## Steps of the builder that do not look at tensors -/

namespace GraphBuilder

/-- The builder, with these tensors in memory and these in a store. -/
def withTensors (self : GraphBuilder) (tensors : List NativeTensor)
    (tensorShards : List TensorShardRef) : GraphBuilder := { self with tensors, tensorShards }

/-- **A step is blind to tensors**: whatever they are, it does the same, and leaves them. -/
def Blind {α : Type} (x : Building α) : Prop :=
  ∀ self tensors shards, x.run (self.withTensors tensors shards) =
    (x.run self).map fun r => (r.1, r.2.withTensors tensors shards)

namespace Blind

variable {α β : Type} {x : Building α}

theorem pure (a : α) : Blind (pure a : Building α) := fun _ _ _ => rfl

theorem bind {f : α → Building β} (hx : Blind x) (hf : ∀ a, Blind (f a)) : Blind (x >>= f) := by
  intro self tensors shards
  rw [StateT.run_bind, StateT.run_bind, hx]
  cases x.run self with
  | error e => rfl
  | ok r => exact hf r.1 r.2 tensors shards

theorem lift (y : Except GgufError α) : Blind (liftM y : Building α) := by
  intro self tensors shards
  cases y <;> rfl

theorem modify {f : GraphBuilder → GraphBuilder}
    (hf : ∀ self tensors shards, f (withTensors self tensors shards) =
      (f self).withTensors tensors shards) : Blind (modify f : Building PUnit) :=
  fun self tensors shards => congrArg (fun b => Except.ok (PUnit.unit, b)) (hf self tensors shards)

theorem refuse (c : Prop) [Decidable c] (e : GgufError) :
    Blind (Guard.refuse c e : Building Unit) := by
  intro self tensors shards
  rw [Guard.refuse]
  split <;> rfl

theorem allocateValue : Blind GraphBuilder.allocateValue := by
  intro self tensors shards
  simp only [GraphBuilder.allocateValue, StateT.run_bind, StateT.run_get, pure_bind, withTensors]
  cases checkedNext self.nextValue <;> rfl

theorem addNode (op : TensorOp) (inputs : List ValueId) (dtype : DType) (rank : UInt8) :
    Blind (GraphBuilder.addNode op inputs dtype rank) := by
  refine allocateValue.bind fun value => fun self tensors shards => ?_
  simp only [StateT.run_bind, StateT.run_get, pure_bind, withTensors]
  cases checkedNext self.nextNode <;> rfl

theorem addExternalInput (dtype : DType) (rank : UInt8) :
    Blind (GraphBuilder.addExternalInput dtype rank) :=
  allocateValue.bind fun _ => (modify fun _ _ _ => rfl).bind fun _ => pure _

end Blind

/-- What is done with a tensor before it is stored or kept. -/
def prepareTensor (dtype : DType) (shape : List UInt64) (payload : Bytes) :
    Building (ValueId × UInt32 × UInt64) := do
  let value ← allocateValue
  refuse (2 ^ 8 ≤ shape.length) .overflow
  modify fun self => { self with
    inputs := self.inputs ++ [⟨value, typeOfRank dtype (UInt8.ofNat shape.length)⟩] }
  let self ← get
  let nextTensor ← checkedNext self.nextTensor
  set { self with nextTensor }
  let byteLen ← lenU64 (ε := GgufError) payload.length
  return (value, self.nextTensor, byteLen)

theorem blind_prepareTensor {dtype : DType} {shape : List UInt64} {payload : Bytes} :
    Blind (prepareTensor dtype shape payload) := by
  refine Blind.allocateValue.bind fun value => (Blind.refuse _ _).bind fun _ =>
    (Blind.modify fun _ _ _ => rfl).bind fun _ => fun self tensors shards => ?_
  simp only [StateT.run_bind, StateT.run_get, pure_bind, withTensors]
  cases checkedNext self.nextTensor with
  | error e => rfl
  | ok next => cases lenU64 (ε := GgufError) payload.length <;> rfl

theorem addNativeTensor_eq {sink : Option TensorShardSink} {name : String} {dtype : DType}
    {shape : List UInt64} {payload : Bytes} :
    addNativeTensor sink name dtype shape payload = (do
      let (value, tensorId, byteLen) ← prepareTensor dtype shape payload
      keepTensor sink {
        descriptor := { id := tensorId, dtype, shape, byteLen }
        graphValue := some value
        quantization := .none
        payload }
      modify fun self => { self with bindings := self.bindings ++ [⟨name, tensorId, value⟩] }
      return value) := by
  simp only [addNativeTensor, prepareTensor, bind_assoc, pure_bind]

end GraphBuilder

/-! ## Two lowerings, side by side -/

def Lowering.withTensors (self : Lowering) (tensors : List NativeTensor)
    (tensorShards : List TensorShardRef) : Lowering :=
  { self with builder := self.builder.withTensors tensors tensorShards }

/-- **The lowering into the store mirrors the one in memory**: it differs in the tensors alone, which
are in the store. -/
structure Mirrors (memory streamed : Lowering) : Prop where
  streamed_eq : streamed = memory.withTensors [] streamed.builder.tensorShards
  shards_nil : memory.builder.tensorShards = []
  stored : ∃ store, ShardContents.storeTensors memory.builder.tensors =
    .ok (streamed.builder.tensorShards, store)

namespace Mirrors

variable {s s' t t' : Lowering}

theorem shards_eq (h : Mirrors s s') (ht : Mirrors t t')
    (hsame : t.builder.tensors = s.builder.tensors) :
    t'.builder.tensorShards = s'.builder.tensorShards := by
  obtain ⟨_, hstore⟩ := h.stored
  obtain ⟨_, hstore'⟩ := ht.stored
  rw [hsame, hstore] at hstore'
  exact (Prod.mk.inj (Except.ok.inj hstore')).1.symm

/-- A lowering in memory whose tensors can be stored has a mirror. -/
theorem exists_mirror {shards : List TensorShardRef} {store : FileTensorShardStore}
    (hnil : s.builder.tensorShards = [])
    (hstore : ShardContents.storeTensors s.builder.tensors = .ok (shards, store)) :
    ∃ s', Mirrors s s' := ⟨s.withTensors [] shards, rfl, hnil, store, hstore⟩

end Mirrors

/-- A step of the lowering that is blind to tensors. -/
def Blind {α : Type} (x : Lower α) : Prop :=
  ∀ s a t, (x.run s).run = some (.ok (a, t)) → ∀ tensors shards,
    (x.run (s.withTensors tensors shards)).run = some (.ok (a, t.withTensors tensors shards))

namespace Blind

variable {α β : Type} {x : Lower α} {s t : Lowering} {a : α}

theorem lift (y : Code GgufError α) : Blind (liftM y : Lower α) := by
  intro s a t h tensors shards
  obtain ⟨a', ha, ht⟩ := run_bind_eq_ok.1 h
  obtain ⟨rfl, rfl⟩ := Prod.mk.inj (Except.ok.inj (Option.some.inj ht))
  exact run_bind_eq_ok.2 ⟨a', ha, rfl⟩

theorem pure (a : α) : Blind (pure a : Lower α) := by
  intro s a t h tensors shards
  obtain ⟨rfl, rfl⟩ := Prod.mk.inj (Except.ok.inj (Option.some.inj h))
  rfl

theorem consume (f : Std.ExtTreeSet String → Std.ExtTreeSet String) :
    Blind (modify fun state => { state with consumed := f state.consumed } : Lower PUnit) := by
  intro s a t h tensors shards
  obtain ⟨rfl, rfl⟩ := Prod.mk.inj (Except.ok.inj (Option.some.inj h))
  rfl

theorem build {y : GraphBuilder.Building α} (hy : GraphBuilder.Blind y) :
    Blind (NTD97.build y) := by
  intro s a t h tensors shards
  obtain ⟨builder, hbuild, rfl⟩ := run_build_eq_ok h
  have hrun := hy s.builder tensors shards
  rw [hbuild] at hrun
  refine run_bind_eq_ok.2 ⟨(a, builder.withTensors tensors shards), ?_, rfl⟩
  exact run_liftM_eq_ok.2 hrun

/-- What a blind step leaves. -/
theorem keeps (h : Blind x) (hrun : (x.run s).run = some (.ok (a, t))) :
    t = t.withTensors s.builder.tensors s.builder.tensorShards := by
  have hsame : (x.run s).run = some (.ok (a, t.withTensors s.builder.tensors
    s.builder.tensorShards)) := h s a t hrun s.builder.tensors s.builder.tensorShards
  rw [hrun] at hsame
  exact (Prod.mk.inj (Except.ok.inj (Option.some.inj hsame))).2

end Blind

/-- **A lowering streams**: in memory it only adds tensors; and into the store it answers what it
answers in memory, if the store takes the tensors, and nothing else. -/
structure Streams {α : Type} (x : Option TensorShardSink → Lower α) : Prop where
  keeps : ∀ s a t, ((x none).run s).run = some (.ok (a, t)) →
    s.builder.tensors <+: t.builder.tensors ∧ t.builder.tensorShards = s.builder.tensorShards
  mirrors : ∀ s s' a t', Mirrors s s' →
    (((x (some ShardContents.sink)).run s').run = some (.ok (a, t')) ↔
      ∃ t, ((x none).run s).run = some (.ok (a, t)) ∧ Mirrors t t')

namespace Streams

variable {α β γ : Type} {x : Option TensorShardSink → Lower α}

theorem of_blind {y : Lower α} (h : Blind y) : Streams fun _ => y where
  keeps s a t hrun := by
    rw [h.keeps hrun]
    exact ⟨List.prefix_rfl, rfl⟩
  mirrors s s' a t' hmirrors := by
    constructor
    · intro hrun
      have hmemory := h s' a t' hrun s.builder.tensors []
      have hs : s'.withTensors s.builder.tensors [] = s := by
        rw [hmirrors.streamed_eq, ← hmirrors.shards_nil]
        rfl
      have ht := h.keeps hrun
      rw [hs] at hmemory
      refine ⟨_, hmemory, ?_, rfl, ?_⟩
      · rw [ht, hmirrors.streamed_eq]
        rfl
      · rw [ht]
        exact hmirrors.stored
    · rintro ⟨t, hrun, ht⟩
      have hshards := hmirrors.shards_eq ht (by rw [h.keeps hrun]; rfl)
      have hstreamed := h s a t hrun [] s'.builder.tensorShards
      rwa [← hmirrors.streamed_eq, ← hshards, ← ht.streamed_eq] at hstreamed

theorem bind {f : Option TensorShardSink → α → Lower β} (hx : Streams x)
    (hf : ∀ a, Streams fun sink => f sink a) : Streams fun sink => x sink >>= f sink where
  keeps s b t hrun := by
    obtain ⟨a, mid, hfirst, hrest⟩ := run_lower_bind.1 hrun
    obtain ⟨hbefore, hshards⟩ := hx.keeps s a mid hfirst
    obtain ⟨hbefore', hshards'⟩ := (hf a).keeps mid b t hrest
    exact ⟨hbefore.trans hbefore', hshards'.trans hshards⟩
  mirrors s s' b t' hmirrors := by
    constructor
    · intro hrun
      obtain ⟨a, mid', hfirst, hrest⟩ := run_lower_bind.1 hrun
      obtain ⟨mid, hmid, hmirrors'⟩ := (hx.mirrors s s' a mid' hmirrors).1 hfirst
      obtain ⟨t, ht, hend⟩ := ((hf a).mirrors mid mid' b t' hmirrors').1 hrest
      exact ⟨t, run_lower_bind.2 ⟨a, mid, hmid, ht⟩, hend⟩
    · rintro ⟨t, hrun, hend⟩
      obtain ⟨a, mid, hfirst, hrest⟩ := run_lower_bind.1 hrun
      -- the store has taken all tensors, so it has taken those in the middle
      obtain ⟨-, hshards⟩ := hx.keeps s a mid hfirst
      obtain ⟨⟨rest, hrest'⟩, -⟩ := (hf a).keeps mid b t hrest
      obtain ⟨_, hstored⟩ := hend.stored
      rw [← hrest'] at hstored
      obtain ⟨_, _, hbefore⟩ := ShardContents.storeTensors_of_append hstored
      obtain ⟨mid', hmid⟩ := Mirrors.exists_mirror (hshards.trans hmirrors.shards_nil) hbefore
      exact run_lower_bind.2 ⟨a, mid', (hx.mirrors s s' a mid' hmirrors).2 ⟨mid, hfirst, hmid⟩,
        ((hf a).mirrors mid mid' b t' hmid).2 ⟨t, hrest, hend⟩⟩

theorem foldlM {f : Option TensorShardSink → β → γ → Lower β}
    (h : ∀ b a, Streams fun sink => f sink b a) : ∀ (l : List γ) (b : β),
      Streams fun sink => l.foldlM (f sink) b
  | [], b => of_blind (Blind.pure b)
  | a :: l, b => by
      simp only [List.foldlM_cons]
      exact (h b a).bind fun b' => foldlM h l b'

/-- **What a tensor comes to**: the one is kept, the other stored. -/
theorem keepTensor (tensor : NativeTensor) :
    Streams fun sink => build (GraphBuilder.keepTensor sink tensor) where
  keeps s a t hrun := by
    obtain ⟨builder, hbuild, rfl⟩ := run_build_eq_ok hrun
    obtain ⟨-, rfl⟩ := Prod.mk.inj (Except.ok.inj hbuild)
    exact ⟨List.prefix_append _ _, rfl⟩
  mirrors s s' a t' hmirrors := by
    obtain ⟨store, hstored⟩ := hmirrors.stored
    have hsink (shard : TensorShardRef) :
        ShardContents.sink s'.builder.tensorShards tensor = .ok shard ↔
          ∃ store', ShardContents.storeTensor store tensor = .ok (shard, store') :=
      (ShardContents.keeps_storeTensors hstored).sink_eq_ok
    have hmemory : (((build (GraphBuilder.keepTensor none tensor)).run s).run =
        some (.ok (a, s.withTensors (s.builder.tensors ++ [tensor]) s.builder.tensorShards))) := rfl
    constructor
    · intro hrun
      obtain ⟨builder, hbuild, rfl⟩ := run_build_eq_ok hrun
      obtain ⟨⟨shard, _⟩, hstore, hset⟩ := bind_eq_ok.1 hbuild
      obtain ⟨-, rfl⟩ := Prod.mk.inj (Except.ok.inj hset)
      obtain ⟨_, hanswer, hstate⟩ := bind_eq_ok.1 hstore
      obtain ⟨rfl, -⟩ := Prod.mk.inj (Except.ok.inj hstate)
      obtain ⟨store', hstore'⟩ := (hsink _).1 hanswer
      refine ⟨_, hmemory, ?_, hmirrors.shards_nil, store',
        ShardContents.storeTensors_append.2 ⟨_, store, _, hstored, hstore', rfl⟩⟩
      rw [hmirrors.streamed_eq]
      rfl
    · rintro ⟨t, hrun, hend⟩
      obtain ⟨-, rfl⟩ := Prod.mk.inj (Except.ok.inj (Option.some.inj (hmemory.symm.trans hrun)))
      obtain ⟨_, hstored'⟩ := hend.stored
      obtain ⟨_, _, shard, hstored'', hstore', hshards⟩ :=
        ShardContents.storeTensors_append.1 hstored'
      obtain ⟨rfl, rfl⟩ := Prod.mk.inj (Except.ok.inj (hstored.symm.trans hstored''))
      have hanswer := (hsink shard).2 ⟨_, hstore'⟩
      have hrun' : (GraphBuilder.keepTensor (some ShardContents.sink) tensor).run s'.builder =
          .ok (a, s'.builder.withTensors s'.builder.tensors
            (s'.builder.tensorShards ++ [shard])) := by
        refine bind_eq_ok.2 ⟨(shard, s'.builder), bind_eq_ok.2 ⟨shard, hanswer, rfl⟩, rfl⟩
      have ht : t' = s'.withTensors s'.builder.tensors
          (s'.builder.tensorShards ++ [shard]) := by
        rw [hend.streamed_eq, hshards, hmirrors.streamed_eq]
        rfl
      rw [ht]
      exact run_bind_eq_ok.2 ⟨_, run_liftM_eq_ok.2 hrun', rfl⟩

end Streams

/-! ## The lowering of a model -/

section Model

variable {ops : F32Ops} {f16ToF32 : UInt16 → F32} {table : SourceTensorTable}

theorem build_bind {α β : Type} (x : GraphBuilder.Building α) (f : α → GraphBuilder.Building β) :
    build (x >>= f) = build x >>= fun a => build (f a) := by
  funext s
  have hrun : (x >>= f).run s.builder = x.run s.builder >>= fun r => (f r.1).run r.2 := rfl
  change (liftM ((x >>= f).run s.builder) >>= _ : Code GgufError _) =
    (liftM (x.run s.builder) >>= _) >>= _
  rw [hrun]
  cases x.run s.builder <;> rfl

theorem streams_addNativeTensor (name : String) (dtype : DType) (shape : List UInt64)
    (payload : Bytes) :
    Streams fun sink => build (GraphBuilder.addNativeTensor sink name dtype shape payload) := by
  simp only [GraphBuilder.addNativeTensor_eq, build_bind]
  refine (Streams.of_blind (Blind.build GraphBuilder.blind_prepareTensor)).bind fun prepared => ?_
  refine (Streams.keepTensor _).bind fun _ => (Streams.of_blind ?_).bind fun _ => ?_
  · exact Blind.build (GraphBuilder.Blind.modify fun _ _ _ => rfl)
  · exact Streams.of_blind (Blind.build (GraphBuilder.Blind.pure _))

theorem streams_node (op : TensorOp) (inputs : List ValueId) (rank : UInt8) :
    Streams fun _ => node op inputs rank :=
  .of_blind (Blind.build (GraphBuilder.Blind.addNode op inputs .f32 rank))

theorem streams_add (name : String) (expected : List UInt64) (transpose2d : Bool) :
    Streams fun sink => table.add ops f16ToF32 sink name expected transpose2d := by
  unfold SourceTensorTable.add
  refine (Streams.of_blind (Blind.lift _)).bind fun tensor => ?_
  refine (Streams.of_blind (Blind.lift _)).bind fun _ => ?_
  refine (Streams.of_blind (Blind.lift _)).bind fun native => ?_
  refine (Streams.of_blind (Blind.consume (·.insert name))).bind fun _ => ?_
  exact streams_addNativeTensor name native.dtype native.shape native.payload

theorem streams_lowerLayer (config : LlamaConfig) (kvWidth : UInt32) (values : LayerValues)
    (hidden : ValueId) (layer : ℕ) :
    Streams fun sink => lowerLayer ops f16ToF32 sink table config kvWidth values hidden layer := by
  unfold lowerLayer
  iterate 9 refine (streams_add _ _ _).bind fun _ => ?_
  iterate 19 refine (streams_node _ _ _).bind fun _ => ?_
  exact streams_node _ _ _

theorem streams_addConstantF32Scalar (value : F32) :
    Streams fun sink => build (GraphBuilder.addConstantF32Scalar ops sink value) := by
  simp only [GraphBuilder.addConstantF32Scalar, build_bind]
  exact (Streams.of_blind (Blind.build (.refuse _ _))).bind fun _ => streams_addNativeTensor _ _ _ _

theorem streams_addConstantF32Vector (values : List F32) :
    Streams fun sink => build (GraphBuilder.addConstantF32Vector ops sink values) := by
  simp only [GraphBuilder.addConstantF32Vector, build_bind]
  refine (Streams.of_blind (Blind.build (.refuse _ _))).bind fun _ => ?_
  refine (Streams.of_blind (Blind.build ?_)).bind fun _ => ?_
  · intro self tensors shards
    cases checkedMulUsize values.length 4 <;> rfl
  refine (Streams.of_blind (Blind.build (.lift _))).bind fun _ => ?_
  exact streams_addNativeTensor _ _ _ _

/-- **The lowering of a model streams.** -/
theorem streams_lowerGraph (config : LlamaConfig) (vocabulary : UInt64) :
    Streams fun sink => lowerGraph ops f16ToF32 sink table config vocabulary := by
  unfold lowerGraph
  refine (Streams.of_blind (Blind.build (.addExternalInput _ _))).bind fun _ => ?_
  refine (Streams.of_blind (Blind.build (.addNode _ _ _ _))).bind fun _ => ?_
  refine (streams_addConstantF32Scalar _).bind fun _ => ?_
  iterate 3 refine (streams_addConstantF32Vector _).bind fun _ => ?_
  refine (streams_add _ _ _).bind fun _ => (streams_node _ _ _).bind fun _ => ?_
  refine (Streams.of_blind (Blind.lift _)).bind fun _ => ?_
  refine (Streams.foldlM (streams_lowerLayer _ _ _) _ _).bind fun _ => ?_
  refine (streams_add _ _ _).bind fun _ => (streams_node _ _ _).bind fun _ => ?_
  refine (streams_add _ _ _).bind fun _ => (streams_node _ _ _).bind fun _ => ?_
  exact Streams.of_blind (Blind.pure _)

variable {source : GgufByteSource} {model : GgufModel}

/-- The parts of a lowering into the store: those in memory, with the tensors elsewhere. -/
theorem lowerLlamaModelInternal_streams {streamed : LoweredLlamaParts} :
    (lowerLlamaModelInternal ops f16ToF32 (some ShardContents.sink) source model).run =
        some (.ok streamed) ↔
      ∃ parts store, (lowerLlamaModelInternal ops f16ToF32 none source model).run =
          some (.ok parts) ∧ parts.tensorShards = [] ∧
        ShardContents.storeTensors parts.tensors = .ok (streamed.tensorShards, store) ∧
        streamed = { parts with tensors := [], tensorShards := streamed.tensorShards } := by
  have hgraph (config : LlamaConfig) (vocabulary : UInt64) (values : ValueId × ValueId)
      (state' : Lowering) : ((lowerGraph ops f16ToF32 (some ShardContents.sink)
          (SourceTensorTable.new source model) config vocabulary).run {}).run =
          some (.ok (values, state')) ↔
        ∃ state, ((lowerGraph ops f16ToF32 none (SourceTensorTable.new source model) config
          vocabulary).run {}).run = some (.ok (values, state)) ∧ Mirrors state state' :=
    (streams_lowerGraph config vocabulary).mirrors {} {} values state'
      ⟨rfl, rfl, ShardContents.empty, rfl⟩
  constructor
  · intro h
    obtain ⟨u₁, h₁, h⟩ := run_bind_eq_ok.1 h
    obtain ⟨config, h₂, h⟩ := run_bind_eq_ok.1 h
    obtain ⟨sourceTokenizer, h₃, h⟩ := run_bind_eq_ok.1 h
    obtain ⟨tokenizer, h₄, h⟩ := run_bind_eq_ok.1 h
    obtain ⟨u₅, h₅, h⟩ := run_bind_eq_ok.1 h
    obtain ⟨u₆, h₆, h⟩ := run_bind_eq_ok.1 h
    obtain ⟨vocabulary, h₇, h⟩ := run_bind_eq_ok.1 h
    obtain ⟨⟨values, state'⟩, h₈, h⟩ := run_bind_eq_ok.1 h
    obtain ⟨u₉, h₉, h⟩ := run_bind_eq_ok.1 h
    obtain ⟨graph, h₁₀, h⟩ := run_bind_eq_ok.1 h
    obtain rfl := Except.ok.inj (Option.some.inj h)
    obtain ⟨state, hmemory, hmirrors⟩ := (hgraph config vocabulary values state').1 h₈
    obtain ⟨store, hstored⟩ := hmirrors.stored
    obtain ⟨shards, rfl⟩ : ∃ shards, state' = state.withTensors [] shards :=
      ⟨_, hmirrors.streamed_eq⟩
    exact ⟨_, store, run_bind_eq_ok.2 ⟨u₁, h₁, run_bind_eq_ok.2 ⟨config, h₂, run_bind_eq_ok.2
      ⟨sourceTokenizer, h₃, run_bind_eq_ok.2 ⟨tokenizer, h₄, run_bind_eq_ok.2 ⟨u₅, h₅,
      run_bind_eq_ok.2 ⟨u₆, h₆, run_bind_eq_ok.2 ⟨vocabulary, h₇, run_bind_eq_ok.2 ⟨_, hmemory,
      run_bind_eq_ok.2 ⟨u₉, h₉, run_bind_eq_ok.2 ⟨graph, h₁₀, rfl⟩⟩⟩⟩⟩⟩⟩⟩⟩⟩,
      hmirrors.shards_nil, hstored, rfl⟩
  · rintro ⟨parts, store, h, hnil, hstored, hstreamed⟩
    obtain ⟨u₁, h₁, h⟩ := run_bind_eq_ok.1 h
    obtain ⟨config, h₂, h⟩ := run_bind_eq_ok.1 h
    obtain ⟨sourceTokenizer, h₃, h⟩ := run_bind_eq_ok.1 h
    obtain ⟨tokenizer, h₄, h⟩ := run_bind_eq_ok.1 h
    obtain ⟨u₅, h₅, h⟩ := run_bind_eq_ok.1 h
    obtain ⟨u₆, h₆, h⟩ := run_bind_eq_ok.1 h
    obtain ⟨vocabulary, h₇, h⟩ := run_bind_eq_ok.1 h
    obtain ⟨⟨values, state⟩, h₈, h⟩ := run_bind_eq_ok.1 h
    obtain ⟨u₉, h₉, h⟩ := run_bind_eq_ok.1 h
    obtain ⟨graph, h₁₀, h⟩ := run_bind_eq_ok.1 h
    obtain rfl := Except.ok.inj (Option.some.inj h)
    have hrun := (hgraph config vocabulary values
      (state.withTensors [] streamed.tensorShards)).2 ⟨state, h₈, rfl, hnil, store, hstored⟩
    rw [hstreamed]
    exact run_bind_eq_ok.2 ⟨u₁, h₁, run_bind_eq_ok.2 ⟨config, h₂, run_bind_eq_ok.2
      ⟨sourceTokenizer, h₃, run_bind_eq_ok.2 ⟨tokenizer, h₄, run_bind_eq_ok.2 ⟨u₅, h₅,
      run_bind_eq_ok.2 ⟨u₆, h₆, run_bind_eq_ok.2 ⟨vocabulary, h₇, run_bind_eq_ok.2 ⟨_, hrun,
      run_bind_eq_ok.2 ⟨u₉, h₉, run_bind_eq_ok.2 ⟨graph, h₁₀, rfl⟩⟩⟩⟩⟩⟩⟩⟩⟩⟩

end Model

/-- **Streaming is lowering in memory, and storing.**  A model is lowered into an empty store exactly
if it is lowered in memory and the store takes its tensors, one after the other; and then it is the
model in memory, with the shards of these tensors. -/
theorem streamed_iff (ops : F32Ops) (f16ToF32 : UInt16 → F32) (source : GgufByteSource)
    (model : GgufModel) (streamed : StreamedLlamaModel) :
    (lowerLlamaModelToShards ops f16ToF32 source model ShardContents.sink).run =
        some (.ok streamed) ↔
      ∃ lowered store, (lowerLlamaModelFromSource ops f16ToF32 source model).run =
          some (.ok lowered) ∧
        ShardContents.storeTensors lowered.tensors = .ok (streamed.tensorShards, store) ∧
        streamed = lowered.streamed streamed.tensorShards := by
  constructor
  · intro h
    obtain ⟨parts', hparts', h⟩ := run_bind_eq_ok.1 h
    obtain ⟨_, -, h⟩ := run_bind_eq_ok.1 h
    obtain rfl := Except.ok.inj (Option.some.inj h)
    obtain ⟨parts, store, hparts, hnil, hstored, heq⟩ :=
      lowerLlamaModelInternal_streams.1 hparts'
    refine ⟨_, store, run_bind_eq_ok.2 ⟨parts, hparts, run_bind_eq_ok.2 ⟨(), ?_, rfl⟩⟩, hstored, ?_⟩
    · rw [refuse, if_neg (not_not.2 hnil)]
      rfl
    · rw [heq]
      rfl
  · rintro ⟨lowered, store, hlowered, hstored, heq⟩
    obtain ⟨parts, hparts, h⟩ := run_bind_eq_ok.1 hlowered
    obtain ⟨_, hrefuse, h⟩ := run_bind_eq_ok.1 h
    obtain rfl := Except.ok.inj (Option.some.inj h)
    have hnil : parts.tensorShards = [] := by
      by_contra hne
      rw [refuse, if_pos hne] at hrefuse
      cases Option.some.inj hrefuse
    have hstreamed : (lowerLlamaModelInternal ops f16ToF32 (some ShardContents.sink) source
        model).run = some (.ok { parts with
          tensors := [], tensorShards := streamed.tensorShards }) :=
      lowerLlamaModelInternal_streams.2 ⟨parts, store, hparts, hnil, hstored, rfl⟩
    rw [heq]
    exact run_bind_eq_ok.2 ⟨_, hstreamed, run_bind_eq_ok.2 ⟨(), rfl, rfl⟩⟩

end NTD97
