import Mathlib
import NTD97.Generative
import NTD97.Gguf

/-!
# Activation — a thin capsule and its shards

    graph ▪ tokenizer ▪ manifest ▪ one descriptor table ▪ external shards ──store──▸ activation

A thin capsule embeds everything but its tensors, which it names by length and hash.  Activation
reads each shard from the store, checks it against the table and the graph, and keeps where to find
it under the graph value it binds.
-/

namespace NTD97

open Guard Wire NativeProgram

/-! ## Shards -/

structure TensorShardRef where
  descriptor : TensorDescriptor
  graphValue : Option ValueId
  logicalLen : UInt64
  hash : Digest
  deriving DecidableEq

/-- The files of a shard store, by the hash that names them. -/
abbrev FileTensorShardStore := ContentStore

namespace FileTensorShardStore

def readHashVerified (store : FileTensorShardStore) (hash : Digest) (logicalLen : UInt64) :
    Except GgufError Bytes := do
  let bytes ← okOr (store hash) (.io "")
  let actualLen ← lenU64 bytes.length
  refuse (actualLen ≠ logicalLen ∨ sha256 bytes ≠ hash) .invalidTensor
  return bytes

theorem readHashVerified_eq_ok {store : FileTensorShardStore} {hash : Digest} {len : UInt64}
    {bytes : Bytes} : readHashVerified store hash len = .ok bytes ↔
      store hash = some bytes ∧ len.toNat = bytes.length ∧ sha256 bytes = hash := by
  simp only [readHashVerified, bind_eq_ok, exists_unit, okOr_eq_ok, refuse_eq_ok, lenU64_eq_ok,
    pure_eq_ok, not_or, not_not]
  constructor
  · rintro ⟨_, hstore, _, hlen, ⟨rfl, hhash⟩, rfl⟩
    exact ⟨hstore, hlen, hhash⟩
  · rintro ⟨hstore, hlen, hhash⟩
    exact ⟨bytes, hstore, len, hlen, ⟨rfl, hhash⟩, rfl⟩

end FileTensorShardStore

/-! ## Errors -/

/-- What a thin capsule could not be read for; an error stands for its debug text. -/
inductive CapsuleFault where
  | capsule (e : CapsuleError)
  | graph (e : IrCodecError)
  | tokenizer (e : NativeTokenizerError)
  | generativeManifest (e : NativeGenerativeManifestError)
  | descriptors (e : DescriptorError)
  deriving DecidableEq

/-- What a shard could not be read for. -/
inductive ShardFault where
  | store (e : GgufError)
  | tensor (e : NativeTensorError)
  deriving DecidableEq

inductive ThinActivationError where
  | capsule (fault : CapsuleFault)
  | wrongCapsuleKind (kind : CapsuleKind)
  | missingGraph
  | multipleGraphs
  | missingDescriptorTable
  | multipleDescriptorTables
  | missingTokenizer
  | multipleTokenizers
  | missingGenerativeManifest
  | multipleGenerativeManifests
  | unexpectedEmbeddedTensorChunk
  | unexpectedExternalChunk (kind : SectionKind)
  | duplicateTensorId (id : UInt32)
  | duplicateGraphBinding (value : ValueId)
  | missingTensorShard (id : UInt32)
  | unknownTensorShard (id : UInt32)
  | tensorDescriptorMismatch (id : UInt32)
  | missingGraphBinding (id : UInt32)
  | graphBindingMissing (value : ValueId)
  | graphBindingTypeMismatch (value : ValueId)
  | invalidTokenInput (value : ValueId)
  | invalidDistributionOutput (output : UInt32)
  | vocabularyMismatch (manifest : UInt32) (tokenizer : ℕ)
  | shard (fault : ShardFault)
  deriving DecidableEq

structure ThinGenerativeActivation where
  graph : Graph
  tokenizer : NativeTokenizerDescriptor
  manifest : NativeGenerativeManifest
  tensorShards : BTreeMap UInt32 TensorShardRef

namespace Activation

/-- The only chunk of a kind, which must be embedded, decoded. -/
def decodeSingleEmbedded {α : Type} (view : CapsuleView) (kind : SectionKind)
    (missing multiple : ThinActivationError) (decode : Bytes → Except ThinActivationError α) :
    Except ThinActivationError α :=
  match view.chunks.filter (·.kind = kind) with
  | [] => throw missing
  | [chunk] =>
    match chunk.storage with
    | .embedded bytes => decode bytes
    | .external => throw (.unexpectedExternalChunk kind)
  | _ :: _ :: _ => throw multiple

def validateManifest (graph : Graph) (tokenizer : NativeTokenizerDescriptor)
    (manifest : NativeGenerativeManifest) : Except ThinActivationError Unit := do
  let tokenDecl ← okOr (graph.inputs.find? (·.id = manifest.tokenInput))
    (.invalidTokenInput manifest.tokenInput)
  refuse (tokenDecl.ty ≠ .tensor .i32 1) (.invalidTokenInput manifest.tokenInput)
  refuse (graph.outputs.length ≤ manifest.distributionOutput.toNat)
    (.invalidDistributionOutput manifest.distributionOutput)
  refuse (manifest.vocabularySize.toNat ≠ tokenizer.tokens.length)
    (.vocabularyMismatch manifest.vocabularySize tokenizer.tokens.length)

/-- One tensor chunk, after the table and the external chunks before it. -/
def splitChunk (split : Option (List TensorDescriptor) × List ChunkView) (chunk : ChunkView) :
    Except ThinActivationError (Option (List TensorDescriptor) × List ChunkView) :=
  match chunk.storage with
  | .embedded bytes =>
    if tensorDescriptorMagic <+: bytes then do
      refuse split.1.isSome .multipleDescriptorTables
      let descriptors ← (decodeTensorDescriptors .current bytes).mapError fun e =>
        .capsule (.descriptors e)
      return (some descriptors, split.2)
    else throw .unexpectedEmbeddedTensorChunk
  | .external => return (split.1, split.2 ++ [chunk])

def insertDescriptor (output : BTreeMap UInt32 TensorDescriptor) (descriptor : TensorDescriptor) :
    Except ThinActivationError (BTreeMap UInt32 TensorDescriptor) := do
  refuse (descriptor.id ∈ output) (.duplicateTensorId descriptor.id)
  return output.insert descriptor.id descriptor

def descriptorMap (descriptors : List TensorDescriptor) :
    Except ThinActivationError (BTreeMap UInt32 TensorDescriptor) :=
  descriptors.foldlM insertDescriptor ∅

def validateGraphBinding (graph : Graph) (value : ValueId) (descriptor : TensorDescriptor) :
    Except ThinActivationError Unit := do
  let decl ← okOr (graph.inputs.find? (·.id = value)) (.graphBindingMissing value)
  refuse (¬ Holds descriptor decl.ty) (.graphBindingTypeMismatch value)

/-- One external chunk, after the ids and the shards before it. -/
def activateShard (store : FileTensorShardStore) (graph : Graph)
    (byId : BTreeMap UInt32 TensorDescriptor) (seen : IdSet × BTreeMap UInt32 TensorShardRef)
    (chunk : ChunkView) : Except ThinActivationError (IdSet × BTreeMap UInt32 TensorShardRef) := do
  let bytes ← (store.readHashVerified chunk.hash chunk.logicalLen).mapError fun e =>
    .shard (.store e)
  let native ← (decodeNativeTensor .current bytes).mapError fun e => .shard (.tensor e)
  let id := native.descriptor.id
  refuse (id ∈ seen.1) (.duplicateTensorId id)
  let descriptor ← okOr byId[id]? (.unknownTensorShard id)
  refuse (descriptor ≠ native.descriptor) (.tensorDescriptorMismatch id)
  let value ← okOr native.graphValue (.missingGraphBinding id)
  validateGraphBinding graph value descriptor
  refuse (value.val ∈ seen.2) (.duplicateGraphBinding value)
  return (seen.1.insert id, seen.2.insert value.val {
    descriptor := native.descriptor
    graphValue := some value
    logicalLen := chunk.logicalLen
    hash := chunk.hash })

end Activation

open Activation

def activateThinGenerativeCapsule (nativeCapsule : Bytes) (store : FileTensorShardStore) :
    Except ThinActivationError ThinGenerativeActivation := do
  let view ← (CapsuleView.read nativeCapsule).mapError fun e => .capsule (.capsule e)
  refuse (view.kind ≠ .thin) (.wrongCapsuleKind view.kind)
  let graph ← decodeSingleEmbedded view .graph .missingGraph .multipleGraphs fun bytes =>
    (decodeGraph bytes).mapError fun e => .capsule (.graph e)
  let tokenizer ← decodeSingleEmbedded view .tokenizer .missingTokenizer .multipleTokenizers
    fun bytes => (decodeNativeTokenizer bytes).mapError fun e => .capsule (.tokenizer e)
  let manifest ← decodeSingleEmbedded view .generativeManifest .missingGenerativeManifest
    .multipleGenerativeManifests fun bytes =>
      (decodeNativeGenerativeManifest bytes).mapError fun e => .capsule (.generativeManifest e)
  validateManifest graph tokenizer manifest
  let (table, externalChunks) ← (view.chunks.filter (·.kind = .tensors)).foldlM splitChunk (none, [])
  let descriptors ← okOr table .missingDescriptorTable
  let byId ← descriptorMap descriptors
  let (seenIds, tensorShards) ← externalChunks.foldlM (activateShard store graph byId) (∅, ∅)
  byId.keys.forM fun id => refuse (id ∉ seenIds) (.missingTensorShard id)
  refuse (manifest.tokenInput.val ∈ tensorShards) (.invalidTokenInput manifest.tokenInput)
  return { graph, tokenizer, manifest, tensorShards }

end NTD97
