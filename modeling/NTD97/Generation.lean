import Mathlib
import NTD97.Executor
import NTD97.Lib.Slices

/-!
# Generation — one token after another

    prompt ──window──▸ graph ──distribution──▸ sample ──▸ token ──▸ … ──▸ end │ budget │ cancelled

A generator runs a graph on the last tokens, samples the next one from the distribution it puts out,
and goes on until the end token or the budget.  There are three loops: without a resolver, with one,
and with one and a listener that may cancel.  A listener may remember what it heard, so it is a
function of a state of its own.

Each loop asks for room for its whole budget first, and panics if a vector has no room for that many
tokens.
-/

namespace NTD97

open Guard Slices

/-- What the numbers of a distribution are. -/
inductive DistributionKind where
  | logits
  | probabilities
  deriving DecidableEq

/-- How a token is picked from a distribution. -/
inductive SamplingMode where
  | greedy
  | stochastic (temperature : F32) (topK : Option ℕ) (seed : UInt64)
  deriving DecidableEq

/-- The limits of a run, and how its tokens are picked. -/
structure GenerationConfig where
  maxNewTokens : ℕ := 32
  contextLimit : ℕ := 2048
  eosToken : Option UInt32 := none
  distribution : DistributionKind := .logits
  sampling : SamplingMode := .greedy
  deriving DecidableEq

/-- The tokens given, the tokens made, and both. -/
structure GenerationResult where
  promptTokens : List UInt32
  generatedTokens : List UInt32
  allTokens : List UInt32
  deriving DecidableEq

/-- What a listener says to a token. -/
inductive GenerationControl where
  | continue
  | cancel
  deriving DecidableEq

/-- Why a run came to its end. -/
inductive GenerationFinishReason where
  | maxTokens
  | eos
  | cancelled
  deriving DecidableEq

structure StreamingGenerationResult where
  generation : GenerationResult
  finishReason : GenerationFinishReason
  deriving DecidableEq

inductive SamplingError where
  | emptyDistribution
  | nonFinite
  | negativeProbability
  | zeroMass
  | invalidTemperature
  | invalidTopK
  deriving DecidableEq

inductive GenerationError where
  | emptyPrompt
  | invalidContextLimit
  | invalidVocabulary
  | missingDistributionOutput (output : ℕ)
  | invalidDistributionShape
  | tokenIdOutOfRange (token : UInt32)
  | tensor (e : TensorError)
  | execution (e : ExecutionError)
  | sampling (e : SamplingError)
  deriving DecidableEq

/-! ## Sampling -/

section Sampling

variable (ops : F32Ops)

/-- `max_by`, the last of equal elements. -/
def maxBy {α : Type} (gt : α → α → Bool) : List α → Option α
  | [] => none
  | a :: l => some (l.foldl (fun best x => if gt best x then best else x) a)

/-- Higher values first, and lower indices first among equal values. -/
def outranks (left right : F32 × ℕ) : Bool :=
  Binary32.totalRank right.1 < Binary32.totalRank left.1 ∨ (left.1 = right.1 ∧ left.2 < right.2)

/-- `exp` of the logits, moved below zero and scaled by the temperature. -/
def logitsToWeights (values : List F32) (temperature : F32) : List F32 :=
  let max := values.foldl ops.max F32.negInfinity
  values.map fun value => ops.exp (ops.div (ops.sub value max) temperature)

def probabilitiesToWeights (values : List F32) (temperature : F32) :
    Except SamplingError (List F32) := do
  refuse (values.any fun value => ops.lt value F32.zero) .negativeProbability
  let exponent := ops.div F32.one temperature
  return values.map fun value => ops.powf value exponent

/-- The indices from the `k`-th best weight on get no weight. -/
def keepTopK (weights : List F32) (k : ℕ) : Except SamplingError (List F32) := do
  refuse (k = 0) .invalidTopK
  let ranked := weights.zipIdx.insertionSort fun left right => outranks left right = true
  return (ranked.drop k).foldl (fun weights e => weights.set e.2 F32.zero) weights

/-- The `step`-th number between `0` and `1` of a seed. -/
def deterministicUnit (seed : UInt64) (step : ℕ) : F32 :=
  let value := seed + UInt64.ofNat step + 0x9e3779b97f4a7c15
  let value := (value ^^^ (value >>> 30)) * 0xbf58476d1ce4e5b9
  let value := (value ^^^ (value >>> 27)) * 0x94d049bb133111eb
  let value := value ^^^ (value >>> 31)
  ops.div (ops.ofInt (value >>> 40).toNat) (ops.ofInt (2 ^ 24))

/-- Take weights off the target until it falls within one; the last index with a weight is the
fallback. -/
def pick : List (F32 × ℕ) → F32 → Option ℕ → Except SamplingError ℕ
  | [], _, fallback => okOr fallback .zeroMass
  | (weight, index) :: rest, target, fallback =>
    if ops.le weight F32.zero then pick rest target fallback
    else if ops.le target weight then return index
    else pick rest (ops.sub target weight) (some index)

/-- The token that a distribution gives at a step. -/
def sampleToken (values : List F32) (kind : DistributionKind) (mode : SamplingMode) (step : ℕ) :
    Except SamplingError ℕ := do
  refuse (values = []) .emptyDistribution
  refuse (values.any fun value => !ops.isFinite value) .nonFinite
  match mode with
  | .greedy => okOr ((maxBy outranks values.zipIdx).map Prod.snd) .emptyDistribution
  | .stochastic temperature topK seed => do
    refuse (!ops.isFinite temperature || ops.le temperature F32.zero) .invalidTemperature
    refuse (topK = some 0) .invalidTopK
    let weights ← match kind with
      | .logits => pure (logitsToWeights ops values temperature)
      | .probabilities => probabilitiesToWeights ops values temperature
    let weights ← match topK with
      | some k => keepTopK weights (min k weights.length)
      | none => pure weights
    let sum := ops.sum weights
    refuse (!ops.isFinite sum || ops.le sum F32.zero) .zeroMass
    pick ops weights.zipIdx (ops.mul (deterministicUnit ops seed step) sum) none

end Sampling

/-! ## Generators -/

/-- **A generator**, whose vocabulary is not empty. -/
structure GraphGenerator where
  graph : Graph
  executor : ExecutionProvider
  staticInputs : Values
  tokenInput : ValueId
  distributionOutput : ℕ
  vocabSize : ℕ
  vocab_ne : vocabSize ≠ 0

namespace GraphGenerator

def new (graph : Graph) (provider : ExecutionProvider) (staticInputs : Values)
    (tokenInput : ValueId) (distributionOutput vocabSize : ℕ) :
    Except GenerationError GraphGenerator :=
  if h : vocabSize = 0 then .error .invalidVocabulary
  else .ok {
    graph, executor := provider, staticInputs, tokenInput, distributionOutput, vocabSize
    vocab_ne := h }

/-- There is a prompt, its tokens are of the vocabulary, and there is room for one. -/
def validatePromptTokens (promptTokens : List UInt32) (vocabSize contextLimit : ℕ) :
    Except GenerationError Unit := do
  refuse (promptTokens = []) .emptyPrompt
  refuse (contextLimit = 0) .invalidContextLimit
  promptTokens.forM fun token => refuse (vocabSize ≤ token.toNat) (.tokenIdOutOfRange token)

/-- The distribution behind the last token. -/
def lastDistribution (tensor : Tensor) (vocabSize : ℕ) : Except GenerationError (List F32) := do
  refuse (tensor.data.length < vocabSize ∨ tensor.data.length % vocabSize ≠ 0)
    .invalidDistributionShape
  return tensor.data.drop (tensor.data.length - vocabSize)

section Loops

variable (ops : F32Ops) (self : GraphGenerator)

/-- The distribution of the token after these, by a run of the graph. -/
def distribution (execute : Values → Except ExecutionError (List Tensor)) (contextLimit : ℕ)
    (tokens : List UInt32) : Except GenerationError (List F32) := do
  let window := tokens.drop (tokens.length - contextLimit)
  let tokenTensor ← (Tensor.new [window.length]
    (window.map fun token => ops.ofInt token.toNat)).mapError .tensor
  let inputs := self.staticInputs.insert self.tokenInput.val tokenTensor
  let outputs ← (execute inputs).mapError .execution
  let output ← okOr outputs[self.distributionOutput]?
    (.missingDistributionOutput self.distributionOutput)
  lastDistribution output self.vocabSize

def nextDistributionWithResolver (resolver : TensorResolver) (promptTokens : List UInt32)
    (contextLimit : ℕ) : Except GenerationError (List F32) := do
  validatePromptTokens promptTokens self.vocabSize contextLimit
  distribution ops self
    (fun inputs => GraphExecutor.executeWithResolver self.executor self.graph inputs resolver)
    contextLimit promptTokens

/-- The token of a step: the distribution after the tokens so far, sampled. -/
def nextToken (execute : Values → Except ExecutionError (List Tensor)) (config : GenerationConfig)
    (step : ℕ) (allTokens : List UInt32) : Except GenerationError UInt32 := do
  let values ← distribution ops self execute config.contextLimit allTokens
  let next ← (sampleToken ops values config.distribution config.sampling step).mapError .sampling
  refuse (2 ^ 32 ≤ next) .invalidVocabulary
  return UInt32.ofNat next

/-- The loop of `generateTokens` and `generateTokensWithResolver`, with `remaining` steps to go. -/
def generateLoop (next : ℕ → List UInt32 → Except GenerationError UInt32) (eos : Option UInt32) :
    ℕ → ℕ → List UInt32 → List UInt32 → Except GenerationError (List UInt32 × List UInt32)
  | 0, _, generatedTokens, allTokens => return (generatedTokens, allTokens)
  | remaining + 1, step, generatedTokens, allTokens => do
    let token ← next step allTokens
    let generatedTokens := generatedTokens ++ [token]
    let allTokens := allTokens ++ [token]
    if eos = some token then return (generatedTokens, allTokens)
    else generateLoop next eos remaining (step + 1) generatedTokens allTokens

/-- `Vec::with_capacity`, for the tokens of a budget; a token has four bytes. -/
def roomFor (maxNewTokens : ℕ) : Code GenerationError (List UInt32) :=
  PointerWidth.arm64V8a.withCapacity 4 maxNewTokens

/-- The loop without a resolver. -/
def generateTokens (promptTokens : List UInt32) (config : GenerationConfig) :
    Code GenerationError GenerationResult := do
  liftM (validatePromptTokens promptTokens self.vocabSize config.contextLimit)
  let generatedTokens ← roomFor config.maxNewTokens
  let (generatedTokens, allTokens) ← liftM (generateLoop
    (nextToken ops self (GraphExecutor.execute self.executor self.graph) config)
    config.eosToken config.maxNewTokens 0 generatedTokens promptTokens)
  return { promptTokens, generatedTokens, allTokens }

/-- The loop with a resolver. -/
def generateTokensWithResolver (resolver : TensorResolver) (promptTokens : List UInt32)
    (config : GenerationConfig) : Code GenerationError GenerationResult := do
  liftM (validatePromptTokens promptTokens self.vocabSize config.contextLimit)
  let generatedTokens ← roomFor config.maxNewTokens
  let (generatedTokens, allTokens) ← liftM (generateLoop
    (nextToken ops self
      (fun inputs => GraphExecutor.executeWithResolver self.executor self.graph inputs resolver)
      config)
    config.eosToken config.maxNewTokens 0 generatedTokens promptTokens)
  return { promptTokens, generatedTokens, allTokens }

/-- What hears each token, and the tokens generated so far; `σ` is what it remembers. -/
abbrev OnToken (σ : Type) := σ → UInt32 → List UInt32 → GenerationControl × σ

/-- The loop of `generateTokensWithResolverStreaming`.  The listener hears the end token too, but
the end decides. -/
def streamingLoop {σ : Type} (next : ℕ → List UInt32 → Except GenerationError UInt32)
    (eos : Option UInt32) (onToken : OnToken σ) :
    ℕ → ℕ → σ → List UInt32 → List UInt32 →
      Except GenerationError (List UInt32 × List UInt32 × GenerationFinishReason)
  | 0, _, _, generatedTokens, allTokens => return (generatedTokens, allTokens, .maxTokens)
  | remaining + 1, step, s, generatedTokens, allTokens => do
    let token ← next step allTokens
    let generatedTokens := generatedTokens ++ [token]
    let allTokens := allTokens ++ [token]
    let (control, s) := onToken s token generatedTokens
    if eos = some token then return (generatedTokens, allTokens, .eos)
    else if control = .cancel then return (generatedTokens, allTokens, .cancelled)
    else streamingLoop next eos onToken remaining (step + 1) s generatedTokens allTokens

/-- The loop with a listener, which hears each token as it is made. -/
def generateTokensWithResolverStreaming {σ : Type} (resolver : TensorResolver)
    (promptTokens : List UInt32) (config : GenerationConfig) (onToken : OnToken σ) (s : σ) :
    Code GenerationError StreamingGenerationResult := do
  liftM (validatePromptTokens promptTokens self.vocabSize config.contextLimit)
  let generatedTokens ← roomFor config.maxNewTokens
  let (generatedTokens, allTokens, finishReason) ← liftM (streamingLoop
    (nextToken ops self
      (fun inputs => GraphExecutor.executeWithResolver self.executor self.graph inputs resolver)
      config)
    config.eosToken onToken config.maxNewTokens 0 s generatedTokens promptTokens)
  return { generation := { promptTokens, generatedTokens, allTokens }, finishReason }

end Loops

end GraphGenerator

end NTD97
