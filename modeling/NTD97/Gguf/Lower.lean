import Mathlib
import NTD97.Activation
import NTD97.Gguf.Transcode

/-!
# Gguf/Lower — a LLaMA model as a native graph

    metadata ──▸ config ▪ tokenizer        tensors ──transcode──▸ inputs ▪ bindings
    layer by layer ──▸ nodes               every tensor of the model is consumed

The builder hands out the ids of values, nodes and tensors; a tensor of the source becomes an input
of the graph, and its name is consumed.  A tensor goes to a sink where there is one, and is kept in
memory otherwise.
-/

namespace NTD97

open Guard Wire Slices

/-! ## Configuration -/

structure LlamaConfig where
  contextLength : UInt32
  embeddingLength : UInt32
  blockCount : UInt32
  feedForwardLength : UInt32
  headCount : UInt32
  headCountKv : UInt32
  headDim : UInt32
  rmsEpsilon : F32
  ropeDimensionCount : UInt32
  ropeFreqBase : F32
  deriving DecidableEq

/-- `f64::is_finite`, by the exponent. -/
def f64IsFinite (x : UInt64) : Prop := x.toNat / 2 ^ 52 % 2 ^ 11 ≠ 2 ^ 11 - 1

instance (x : UInt64) : Decidable (f64IsFinite x) := inferInstanceAs (Decidable (_ ≠ _))

section Config

variable (ops : F32Ops)

def numericF32 : GgufValue → Option F32
  | .float32 value => some value
  | .float64 value => if f64IsFinite value then some (ops.ofF64 value) else none
  | .uint8 value => some (ops.ofInt value.toNat)
  | .uint16 value => some (ops.ofInt value.toNat)
  | .uint32 value => some (ops.ofInt value.toNat)
  | .int8 value => some (ops.ofInt value.toInt)
  | .int16 value => some (ops.ofInt value.toInt)
  | .int32 value => some (ops.ofInt value.toInt)
  | _ => none

/-- The value under a key, which must be there. -/
def required {α : Type} (model : GgufModel) (get : GgufValue → Option α) (key : String) :
    Except GgufError α := do
  okOr (← model.optional get key) (.missingMetadata key)

/-- A key that asks for a scaling of the rotary positions, other than for none. -/
def ScalesRope (entry : String × GgufValue) : Prop :=
  entry.1.startsWith "llama.rope.scaling" = true ∧
    ¬ (entry.1.endsWith ".type" = true ∧ entry.2.asString = some "none")

instance (entry : String × GgufValue) : Decidable (ScalesRope entry) :=
  inferInstanceAs (Decidable (_ ∧ _))

def requireLlama (model : GgufModel) : Except GgufError Unit := do
  let architecture ← model.architecture
  refuse (architecture ≠ "llama") (.unsupportedArchitecture architecture)

def LlamaConfig.fromModel (model : GgufModel) : Except GgufError LlamaConfig := do
  requireLlama model
  let contextLength ← required model GgufValue.asU32 "llama.context_length"
  let embeddingLength ← required model GgufValue.asU32 "llama.embedding_length"
  let blockCount ← required model GgufValue.asU32 "llama.block_count"
  let feedForwardLength ← required model GgufValue.asU32 "llama.feed_forward_length"
  let headCount ← required model GgufValue.asU32 "llama.attention.head_count"
  let kvCount ← model.optional GgufValue.asU32 "llama.attention.head_count_kv"
  let headCountKv := kvCount.getD headCount
  let rmsEpsilon ← required model (numericF32 ops) "llama.attention.layer_norm_rms_epsilon"
  refuse (contextLength = 0 ∨ embeddingLength = 0 ∨ blockCount = 0 ∨ feedForwardLength = 0 ∨
    headCount = 0 ∨ headCountKv = 0 ∨ embeddingLength % headCount ≠ 0 ∨
    headCount % headCountKv ≠ 0 ∨ ops.isFinite rmsEpsilon = false ∨
    ops.le rmsEpsilon F32.zero = true) (.invalidModelConfig "llama dimensions")
  let headDim := embeddingLength / headCount
  let dimensionCount ← model.optional GgufValue.asU32 "llama.rope.dimension_count"
  let ropeDimensionCount := dimensionCount.getD headDim
  let rotary := ropeDimensionCount.toNat
  let dim := headDim.toNat
  refuse (ropeDimensionCount ≠ headDim)
    (.unsupportedModelFeature (.text s!"partial rotary dimension {rotary} != head_dim {dim}"))
  let freqBase ← model.optional (numericF32 ops) "llama.rope.freq_base"
  let ropeFreqBase := freqBase.getD F32.tenThousand
  refuse (ops.isFinite ropeFreqBase = false ∨
    ops.lt F32.oneHundredth (ops.abs (ops.sub ropeFreqBase F32.tenThousand)) = true)
    (.unsupportedModelFeature (.frequencyBase ropeFreqBase))
  model.metadata.toList.forM fun entry =>
    let key := entry.1
    refuse (ScalesRope entry)
      (.unsupportedModelFeature (.text s!"RoPE scaling metadata '{key}' is not supported yet"))
  return { contextLength, embeddingLength, blockCount, feedForwardLength, headCount, headCountKv
           headDim, rmsEpsilon, ropeDimensionCount, ropeFreqBase }

end Config

/-! ## The tokenizer -/

/-- What a feature that is not supported is refused with. -/
def unsupportedFeature (text : String) : GgufError := .unsupportedModelFeature (.text text)

def lowerLlamaSpm (tokenizer : GgufTokenizer) : Except GgufError NativeTokenizerModel := do
  (llamaSpmBlocker tokenizer).toList.forM fun blocker => throw (unsupportedFeature blocker)
  let policy ← okOr tokenizer.resolvedLlamaSpmPolicy
    (unsupportedFeature "LLaMA SPM policy requested for non-LLaMA tokenizer")
  let scoreBits ← okOr tokenizer.scores (unsupportedFeature "missing LLaMA tokenizer scores")
  let tokenTypes ← okOr tokenizer.tokenTypes
    (unsupportedFeature "missing LLaMA tokenizer token types")
  return .llamaSpm scoreBits tokenTypes policy.addSpacePrefix policy.addBosToken policy.addEosToken

def lowerGpt2Bpe (tokenizer : GgufTokenizer) : Except GgufError NativeTokenizerModel := do
  (gpt2BpeBlocker tokenizer).toList.forM fun blocker => throw (unsupportedFeature blocker)
  let addBosToken ← okOr tokenizer.addBosToken
    (unsupportedFeature "missing GPT-2 add-BOS policy")
  let addEosToken ← okOr tokenizer.addEosToken
    (unsupportedFeature "missing GPT-2 add-EOS policy")
  return .gpt2Bpe tokenizer.merges addBosToken addEosToken

def lowerTokenizerModel (tokenizer : GgufTokenizer) : Except GgufError NativeTokenizerModel :=
  if tokenizer.model = "llama" then lowerLlamaSpm tokenizer
  else if tokenizer.model = "gpt2" then lowerGpt2Bpe tokenizer
  else
    let other := tokenizer.model
    throw (unsupportedFeature
      s!"tokenizer model '{other}' requires a native source-equivalent tokenizer implementation")

/-- The native tokenizer of a source tokenizer that nothing blocks. -/
def lowerTokenizer (tokenizer : GgufTokenizer) : Except GgufError NativeTokenizerDescriptor := do
  let model ← lowerTokenizerModel tokenizer
  return {
    tokens := tokenizer.tokens
    bosToken := tokenizer.bosToken
    eosToken := tokenizer.eosToken
    unknownToken := tokenizer.unknownToken
    model }

/-- The merges make a tokenizer that runs. -/
def checkGpt2 (tokenizer : NativeTokenizerDescriptor) : Except GgufError Unit :=
  match tokenizer.model with
  | .gpt2Bpe merges addBosToken addEosToken => do
    let _ ← (Gpt2BpeTokenizer.new tokenizer.tokens merges {
      bosToken := tokenizer.bosToken
      eosToken := tokenizer.eosToken
      unknownToken := tokenizer.unknownToken
      addBosToken, addEosToken }).mapError fun e => GgufError.nativeLowering (.gpt2Tokenizer e)
    return ()
  | _ => return ()

/-! ## The builder -/

structure LlamaTensorBinding where
  sourceName : String
  tensorId : UInt32
  graphValue : ValueId
  deriving DecidableEq

structure GraphBuilder where
  nextValue : UInt32 := 0
  nextNode : UInt32 := 0
  nextTensor : UInt32 := 1
  inputs : List ValueDecl := []
  nodes : List Node := []
  tensors : List NativeTensor := []
  tensorShards : List TensorShardRef := []
  bindings : List LlamaTensorBinding := []

/-- Where shards go: what is answered for a tensor may rest on those before it. -/
abbrev TensorShardSink := List TensorShardRef → NativeTensor → Except GgufError TensorShardRef

namespace GraphBuilder

abbrev Building := StateT GraphBuilder (Except GgufError)

/-- `u32::checked_add(1)` -/
def checkedNext (n : UInt32) : Except GgufError UInt32 :=
  okOr (if n.toNat + 1 < 2 ^ 32 then some (n + 1) else none) .overflow

def allocateValue : Building ValueId := do
  let self ← get
  let nextValue ← checkedNext self.nextValue
  set { self with nextValue }
  return ⟨self.nextValue⟩

/-- The type of a value of a rank. -/
def typeOfRank (dtype : DType) (rank : UInt8) : ValueType :=
  if rank = 0 then .scalar dtype else .tensor dtype rank

def addExternalInput (dtype : DType) (rank : UInt8) : Building ValueId := do
  let value ← allocateValue
  modify fun self => { self with inputs := self.inputs ++ [⟨value, .tensor dtype rank⟩] }
  return value

/-- A tensor is stored in the sink, or kept. -/
def keepTensor (sink : Option TensorShardSink) (tensor : NativeTensor) : Building Unit := do
  let self ← get
  match sink with
  | some store =>
    let shard ← store self.tensorShards tensor
    set { self with tensorShards := self.tensorShards ++ [shard] }
  | none => set { self with tensors := self.tensors ++ [tensor] }

def addNativeTensor (sink : Option TensorShardSink) (sourceName : String) (dtype : DType)
    (shape : List UInt64) (payload : Bytes) : Building ValueId := do
  let value ← allocateValue
  refuse (2 ^ 8 ≤ shape.length) .overflow
  modify fun self => { self with
    inputs := self.inputs ++ [⟨value, typeOfRank dtype (UInt8.ofNat shape.length)⟩] }
  let self ← get
  let tensorId := self.nextTensor
  let nextTensor ← checkedNext tensorId
  set { self with nextTensor }
  let byteLen ← lenU64 (ε := GgufError) payload.length
  keepTensor sink {
    descriptor := { id := tensorId, dtype, shape, byteLen }
    graphValue := some value
    quantization := .none
    payload }
  modify fun self => { self with bindings := self.bindings ++ [⟨sourceName, tensorId, value⟩] }
  return value

section Constants

variable (ops : F32Ops) (sink : Option TensorShardSink)

def addConstantF32Scalar (value : F32) : Building ValueId := do
  refuse (ops.isFinite value = false) .invalidTensor
  addNativeTensor sink "ntd97.constant.scalar" .f32 [] (leBytes 4 value.toNat)

def addConstantF32Vector (values : List F32) : Building ValueId := do
  refuse (values = [] ∨ ∃ value ∈ values, ops.isFinite value = false) .invalidTensor
  let _ ← okOr (checkedMulUsize values.length 4) .overflow
  let len ← lenU64 (ε := GgufError) values.length
  addNativeTensor sink "ntd97.constant.vector" .f32 [len]
    (values.flatMap fun value => leBytes 4 value.toNat)

end Constants

def addNode (op : TensorOp) (inputs : List ValueId) (dtype : DType) (rank : UInt8) :
    Building ValueId := do
  let output ← allocateValue
  let self ← get
  let nextNode ← checkedNext self.nextNode
  let node : Node := {
    id := ⟨self.nextNode⟩
    op := .tensor op
    inputs
    outputs := [⟨output, typeOfRank dtype rank⟩] }
  set { self with nextNode, nodes := self.nodes ++ [node] }
  return output

def finish (self : GraphBuilder) (outputs : List ValueId) : Except GgufError Graph := do
  let graph : Graph := { version := .current, inputs := self.inputs, outputs, nodes := self.nodes }
  graph.validate.mapError fun e => GgufError.nativeLowering (.invalidGraph e)
  return graph

end GraphBuilder

/-! ## The tensors of the source -/

/-- What a lowering changes: the builder, and the names of the tensors that it has consumed. -/
structure Lowering where
  builder : GraphBuilder := {}
  consumed : Std.ExtTreeSet String := ∅

abbrev Lower := StateT Lowering (Code GgufError)

/-- A step of the builder. -/
def build {α : Type} (x : GraphBuilder.Building α) : Lower α := fun self => do
  let (value, builder) ← (liftM (x.run self.builder) : Code GgufError (α × GraphBuilder))
  return (value, { self with builder })

structure SourceTensorTable where
  source : GgufByteSource
  model : GgufModel
  tensors : BTreeMap String GgufTensorInfo

/-- The debug text of dimensions. -/
def debugDimensions (dimensions : List UInt64) : String :=
  "[" ++ ", ".intercalate (dimensions.map fun n => toString n.toNat) ++ "]"

namespace SourceTensorTable

def new (source : GgufByteSource) (model : GgufModel) : SourceTensorTable where
  source := source
  model := model
  tensors := model.tensors.foldl (fun tensors tensor => tensors.insert tensor.name tensor) ∅

variable (ops : F32Ops) (f16ToF32 : UInt16 → F32) (sink : Option TensorShardSink)

def add (self : SourceTensorTable) (name : String) (expected : List UInt64) (transpose2d : Bool) :
    Lower ValueId := do
  let tensor ← (okOr self.tensors[name]? (.missingTensor name) : Code GgufError GgufTensorInfo)
  let found := debugDimensions tensor.dimensions
  let wanted := debugDimensions expected
  (refuse (tensor.dimensions ≠ expected)
    (unsupportedFeature s!"tensor '{name}' shape {found} != expected {wanted}") :
      Code GgufError Unit)
  let transcoded ← transcodeTensorFromSource ops f16ToF32 self.source self.model tensor transpose2d
  modify fun state => { state with consumed := state.consumed.insert name }
  build (GraphBuilder.addNativeTensor sink name transcoded.dtype transcoded.shape
    transcoded.payload)

end SourceTensorTable

def rejectUnconsumedModelTensors (model : GgufModel) (consumed : Std.ExtTreeSet String) :
    Except GgufError Unit :=
  model.tensors.forM fun tensor =>
    let name := tensor.name
    refuse (name ∉ consumed) (unsupportedFeature s!"unconsumed model tensor '{name}'")

/-! ## The layers -/

structure LoweredLlamaParts where
  config : LlamaConfig
  graph : Graph
  tensors : List NativeTensor
  tensorShards : List TensorShardRef
  tokenizer : NativeTokenizerDescriptor
  tokenInput : ValueId
  distributionOutput : ℕ
  vocabularySize : ℕ
  bindings : List LlamaTensorBinding

structure LoweredLlamaModel where
  config : LlamaConfig
  graph : Graph
  tensors : List NativeTensor
  tokenizer : NativeTokenizerDescriptor
  tokenInput : ValueId
  distributionOutput : ℕ
  vocabularySize : ℕ
  bindings : List LlamaTensorBinding

/-- The values that every layer refers to. -/
structure LayerValues where
  positions : ValueId
  epsilon : ValueId
  queryShape : ValueId
  kvShape : ValueId
  flattenShape : ValueId

section Layers

variable (ops : F32Ops) (f16ToF32 : UInt16 → F32) (sink : Option TensorShardSink)
  (table : SourceTensorTable)

/-- A node whose value has elements of single precision. -/
def node (op : TensorOp) (inputs : List ValueId) (rank : UInt8) : Lower ValueId :=
  build (GraphBuilder.addNode op inputs .f32 rank)

def lowerLayer (config : LlamaConfig) (kvWidth : UInt32) (values : LayerValues) (hidden : ValueId)
    (layer : ℕ) : Lower ValueId := do
  let embedding := config.embeddingLength.toUInt64
  let feedForward := config.feedForwardLength.toUInt64
  let kv := kvWidth.toUInt64
  let add := table.add ops f16ToF32 sink
  let attnNorm ← add s!"blk.{layer}.attn_norm.weight" [embedding] false
  let qWeight ← add s!"blk.{layer}.attn_q.weight" [embedding, embedding] true
  let kWeight ← add s!"blk.{layer}.attn_k.weight" [embedding, kv] true
  let vWeight ← add s!"blk.{layer}.attn_v.weight" [embedding, kv] true
  let attnOutput ← add s!"blk.{layer}.attn_output.weight" [embedding, embedding] true
  let ffnNorm ← add s!"blk.{layer}.ffn_norm.weight" [embedding] false
  let ffnGate ← add s!"blk.{layer}.ffn_gate.weight" [embedding, feedForward] true
  let ffnUp ← add s!"blk.{layer}.ffn_up.weight" [embedding, feedForward] true
  let ffnDown ← add s!"blk.{layer}.ffn_down.weight" [feedForward, embedding] true
  let normed ← node .rmsNorm [hidden, attnNorm, values.epsilon] 2
  let q ← node .matMul [normed, qWeight] 2
  let k ← node .matMul [normed, kWeight] 2
  let v ← node .matMul [normed, vWeight] 2
  let q ← node .reshape [q, values.queryShape] 3
  let k ← node .reshape [k, values.kvShape] 3
  let v ← node .reshape [v, values.kvShape] 3
  let q ← node .rotaryPosition [q, values.positions] 3
  let k ← node .rotaryPosition [k, values.positions] 3
  let attention ← node .causalAttention [q, k, v] 3
  let attention ← node .reshape [attention, values.flattenShape] 2
  let attention ← node .matMul [attention, attnOutput] 2
  let residual ← node .add [hidden, attention] 2
  let ffnInput ← node .rmsNorm [residual, ffnNorm, values.epsilon] 2
  let gate ← node .matMul [ffnInput, ffnGate] 2
  let gate ← node .silu [gate] 2
  let up ← node .matMul [ffnInput, ffnUp] 2
  let gated ← node .mul [gate, up] 2
  let down ← node .matMul [gated, ffnDown] 2
  node .add [residual, down] 2

/-- The input of the tokens, and the graph up to the logits. -/
def lowerGraph (config : LlamaConfig) (vocabulary : UInt64) : Lower (ValueId × ValueId) := do
  let embedding := config.embeddingLength.toUInt64
  let count (n : UInt32) : F32 := ops.ofInt n.toNat
  let tokenInput ← build (GraphBuilder.addExternalInput .i32 1)
  let positions ← build (GraphBuilder.addNode .positionIds [tokenInput] .i32 1)
  let epsilon ← build (GraphBuilder.addConstantF32Scalar ops sink config.rmsEpsilon)
  let queryShape ← build (GraphBuilder.addConstantF32Vector ops sink
    [F32.zero, count config.headCount, count config.headDim])
  let kvShape ← build (GraphBuilder.addConstantF32Vector ops sink
    [F32.zero, count config.headCountKv, count config.headDim])
  let flattenShape ← build (GraphBuilder.addConstantF32Vector ops sink
    [F32.zero, count config.embeddingLength])
  let tokenEmbedding ← table.add ops f16ToF32 sink "token_embd.weight" [embedding, vocabulary] false
  let hidden ← node .gather [tokenEmbedding, tokenInput] 2
  let kvWidth := config.headDim.toNat * config.headCountKv.toNat
  (refuse (2 ^ 32 ≤ kvWidth) .overflow : Code GgufError Unit)
  let hidden ← (List.range config.blockCount.toNat).foldlM
    (lowerLayer ops f16ToF32 sink table config (UInt32.ofNat kvWidth)
      { positions, epsilon, queryShape, kvShape, flattenShape }) hidden
  let outputNorm ← table.add ops f16ToF32 sink "output_norm.weight" [embedding] false
  let hidden ← node .rmsNorm [hidden, outputNorm, epsilon] 2
  -- the embedding is the output too, where the model has none of its own
  let outputName :=
    if "output.weight" ∈ table.tensors then "output.weight" else "token_embd.weight"
  let output ← table.add ops f16ToF32 sink outputName [embedding, vocabulary] true
  let logits ← node .matMul [hidden, output] 2
  return (tokenInput, logits)

def lowerLlamaModelInternal (source : GgufByteSource) (model : GgufModel) :
    Code GgufError LoweredLlamaParts := do
  liftM (requireLlama model)
  let config ← liftM (LlamaConfig.fromModel ops model)
  let sourceTokenizer ← liftM model.tokenizer
  let tokenizer ← liftM (lowerTokenizer sourceTokenizer)
  liftM (checkGpt2 tokenizer)
  let _ ← liftM ((encodeNativeTokenizer tokenizer).mapError fun e =>
    GgufError.nativeLowering (.tokenizer e))
  let vocabulary ← liftM (lenU64 (ε := GgufError) tokenizer.tokens.length)
  let ((tokenInput, logits), state) ← (lowerGraph ops f16ToF32 sink
    (SourceTensorTable.new source model) config vocabulary).run {}
  liftM (rejectUnconsumedModelTensors model state.consumed)
  let graph ← liftM (state.builder.finish [logits])
  return {
    config, graph, tokenizer, tokenInput
    tensors := state.builder.tensors
    tensorShards := state.builder.tensorShards
    distributionOutput := 0
    vocabularySize := tokenizer.tokens.length
    bindings := state.builder.bindings }

end Layers

def lowerLlamaModelFromSource (ops : F32Ops) (f16ToF32 : UInt16 → F32) (source : GgufByteSource)
    (model : GgufModel) : Code GgufError LoweredLlamaModel := do
  let parts ← lowerLlamaModelInternal ops f16ToF32 none source model
  refuse (parts.tensorShards ≠ []) (.nativeLowering
    (.text "in-memory lowering unexpectedly emitted external tensor shards"))
  return {
    config := parts.config
    graph := parts.graph
    tensors := parts.tensors
    tokenizer := parts.tokenizer
    tokenInput := parts.tokenInput
    distributionOutput := parts.distributionOutput
    vocabularySize := parts.vocabularySize
    bindings := parts.bindings }

end NTD97
