import Mathlib
import NTD97.Generation.Decoding
import NTD97.Gguf.OnDevice

/-!
# Gguf/Speaks — what a shipped model says

    prompt ──window──▸ forward pass ──last row──▸ sample ──▸ token ──▸ …

A generator over an activated model decodes with the forward pass of the model.  The shards, the
store and the device are gone from this: two devices that hold the same capsule say the same.
-/

namespace NTD97

open Guard Slices GraphExecutor GraphGenerator Activation

/-- The generator of an activated model. -/
def ThinGenerativeActivation.generator (self : ThinGenerativeActivation)
    (provider : ExecutionProvider) : Except GenerationError GraphGenerator :=
  GraphGenerator.new self.graph provider ∅ self.manifest.tokenInput
    self.manifest.distributionOutput.toNat self.manifest.vocabularySize.toNat

/-- **A model says a token after these**: it is sampled from the last row of the logits that the
forward pass computes from the window. -/
def Says (kernels : F32Ops) (provider : ExecutionProvider) (weights : LlamaWeights Tensor)
    (vocabularySize : ℕ) (config : GenerationConfig) (step : ℕ) (allTokens : List UInt32)
    (token : UInt32) : Prop :=
  ∃ tokens logits values,
    Tensor.new [(windowOf config.contextLimit allTokens).length]
      ((windowOf config.contextLimit allTokens).map fun t => kernels.ofInt t.toNat) = .ok tokens ∧
    forward provider weights tokens = .ok logits ∧
    lastDistribution logits vocabularySize = .ok values ∧
    sampleToken kernels values config.distribution config.sampling step = .ok token.toNat

section Generators

variable {provider : ExecutionProvider} {weights : LlamaWeights Tensor}
  {a : ThinGenerativeActivation} {generator : GraphGenerator} {resolver : TensorResolver}

theorem generator_eq_ok : a.generator provider = .ok generator ↔
    ∃ h, generator = {
      graph := a.graph, executor := provider, staticInputs := ∅, tokenInput := a.manifest.tokenInput
      distributionOutput := a.manifest.distributionOutput.toNat
      vocabSize := a.manifest.vocabularySize.toNat, vocab_ne := h } := by
  rw [ThinGenerativeActivation.generator, GraphGenerator.new]
  split
  · next hzero =>
    constructor
    · intro h
      cases h
    · rintro ⟨hne, -⟩
      exact absurd hzero hne
  · next hne =>
    constructor
    · intro h
      exact ⟨hne, (Except.ok.inj h).symm⟩
    · rintro ⟨_, rfl⟩
      rfl

/-- **A generator over a graph that runs the forward pass says what the model says.** -/
theorem nextToken_eq_ok_iff_says (hgenerator : a.generator provider = .ok generator)
    (houtput : a.manifest.distributionOutput = 0)
    (hexecutes : ∀ tokens outputs, executeWithResolver provider a.graph
        (Std.ExtTreeMap.insert ∅ a.manifest.tokenInput.val tokens) resolver = .ok outputs ↔
      tokens.rank = 1 ∧ ∃ logits, forward provider weights tokens = .ok logits ∧ outputs = [logits])
    (kernels : F32Ops) (config : GenerationConfig) (step : ℕ) (allTokens : List UInt32)
    (token : UInt32) :
    GraphGenerator.nextToken kernels generator (fun inputs =>
        executeWithResolver generator.executor generator.graph inputs resolver) config step
        allTokens = .ok token ↔
      Says kernels provider weights a.manifest.vocabularySize.toNat config step allTokens token := by
  obtain ⟨hne, rfl⟩ := generator_eq_ok.1 hgenerator
  rw [nextToken_eq_ok, Says]
  constructor
  · rintro ⟨tokens, outputs, output, values, htokens, houtputs, hfound, hvalues, htoken⟩
    obtain ⟨-, logits, hlogits, rfl⟩ := (hexecutes tokens outputs).1 houtputs
    have hfirst : [logits][a.manifest.distributionOutput.toNat]? = some logits := by
      rw [houtput]
      rfl
    obtain rfl := Option.some.inj (hfirst.symm.trans hfound)
    exact ⟨tokens, logits, values, htokens, hlogits, hvalues, htoken⟩
  · rintro ⟨tokens, logits, values, htokens, hlogits, hvalues, htoken⟩
    have hrank : tokens.rank = 1 := by
      rw [Tensor.rank, (Tensor.new_eq_ok.1 htokens).1, List.length_singleton]
    refine ⟨tokens, [logits], logits, values, htokens,
      (hexecutes tokens _).2 ⟨hrank, logits, hlogits, rfl⟩, ?_, hvalues, htoken⟩
    rw [houtput]
    rfl

end Generators

/-- What the manifest of a shipped model says. -/
theorem Shipped.manifest_eq {ops : F32Ops} {f16ToF32 : UInt16 → F32} {source : GgufByteSource}
    {model : GgufModel} {lowered : LoweredLlamaModel} {encoded : List Bytes} {nativeCapsule : Bytes}
    {device : FileTensorShardStore} {a : ThinGenerativeActivation}
    (h : Shipped ops f16ToF32 source model lowered encoded nativeCapsule)
    (ha : activateThinGenerativeCapsule nativeCapsule device = .ok a) :
    a.manifest.distributionOutput = 0 ∧ a.manifest.vocabularySize.toNat = lowered.vocabularySize ∧
      lowered.vocabularySize ≠ 0 := by
  obtain ⟨s, v, hencodes, -, -, -, houtput, hsize⟩ := h.ships.contains h.encodes rfl
  obtain ⟨byId, r, -, -, -, -, rfl⟩ := h.activate_eq_ok.1 ha
  obtain ⟨parts, hparts, rfl⟩ := exists_parts h.lowers
  obtain ⟨hzero, -, hvocabulary⟩ := answers_of_lowered hparts
  refine ⟨UInt32.toNat_inj.1 (houtput.trans hzero), hsize, ?_⟩
  have htokenizer := hencodes.tokenizer
  simp only [encodeNativeTokenizer, Tokenizer.validateTokenizer, bind_eq_ok, exists_unit, refuse_eq_ok]
    at htokenizer
  exact fun hnone => htokenizer.1.1 (List.length_eq_zero_iff.1 (hvocabulary.symm.trans hnone))

/-- **A shipped model says the same wherever it activates.**  On any device where no shard is forged,
a generator over the activated model answers a prompt with the decoding of the forward pass, computed
from the tensors of the source, and with nothing else, as long as a vector has room for the budget;
every token is one of the vocabulary. -/
theorem shipped_decodes (ops : F32Ops) (f16ToF32 : UInt16 → F32) (source : GgufByteSource)
    (model : GgufModel) (lowered : LoweredLlamaModel) (encoded : List Bytes) (nativeCapsule : Bytes)
    (kernels : F32Ops) (h : Shipped ops f16ToF32 source model lowered encoded nativeCapsule) :
    ∃ w, WeightsFromSource ops f16ToF32 (SourceTensorTable.new source model) lowered.config
        (UInt64.ofNat lowered.vocabularySize) w ∧
      ∀ device a, activateThinGenerativeCapsule nativeCapsule device = .ok a →
        HasForged device encoded ∨ ∀ provider, ∃ generator, a.generator provider = .ok generator ∧
          ∀ promptTokens config r, (generateTokensWithResolver kernels generator
              ((FileBackedTensorResolver.fromActivation device a).resolve kernels) promptTokens
              config).run = some (.ok r) ↔
            ((promptTokens ≠ [] ∧ config.contextLimit ≠ 0 ∧
                ∀ t ∈ promptTokens, t.toNat < lowered.vocabularySize) ∧
              4 * config.maxNewTokens ≤ PointerWidth.arm64V8a.isizeMax) ∧
            ∃ tokens, Decodes (Says kernels provider (w.map (loaded kernels))
                lowered.vocabularySize config) config.eosToken config.maxNewTokens 0 promptTokens
                tokens ∧
              (∀ t ∈ tokens, t.toNat < lowered.vocabularySize) ∧
              r = resultOf promptTokens tokens := by
  obtain ⟨w, hw, hexecutes⟩ := h.executes
  refine ⟨w, hw, fun device a ha => or_iff_not_imp_left.2 fun hforged provider => ?_⟩
  obtain ⟨-, hruns⟩ := hexecutes device a ha ((h.hasShards_of_activate ha).resolve_right hforged)
  obtain ⟨houtput, hsize, hne⟩ := h.manifest_eq ha
  obtain ⟨generator, hgenerator⟩ : ∃ generator, a.generator provider = .ok generator :=
    ⟨_, generator_eq_ok.2 ⟨hsize ▸ hne, rfl⟩⟩
  refine ⟨generator, hgenerator, fun promptTokens config r => ?_⟩
  have hvocabulary : generator.vocabSize = lowered.vocabularySize := by
    obtain ⟨-, rfl⟩ := generator_eq_ok.1 hgenerator
    exact hsize
  have hnext := nextToken_eq_ok_iff_says hgenerator houtput (hruns provider) kernels config
  rw [generateTokensWithResolver_iff_decodes, hvocabulary]
  refine and_congr_right fun _ => exists_congr fun tokens => ?_
  rw [Decodes.congr hnext, hsize]
  constructor
  · rintro ⟨hdecodes, hr⟩
    refine ⟨hdecodes, hdecodes.forall_mem fun step allTokens token hsays => ?_, hr⟩
    exact hvocabulary ▸ nextToken_lt ((hnext step allTokens token).2 (hsize ▸ hsays))
  · rintro ⟨hdecodes, -, hr⟩
    exact ⟨hdecodes, hr⟩

open ForwardSample ShippedSample in
/-- What the small model says, on the device with its shards. -/
theorem shipped_decodes_sample : ∃ lowered encoded nativeCapsule, IsSample lowered ∧
    ((∃ (w : LlamaWeights PlacedTensor) (a : ThinGenerativeActivation) (generator : GraphGenerator),
      activateThinGenerativeCapsule nativeCapsule (holding encoded) = .ok a ∧
      a.generator (cpuReferenceProvider F32Ops.words.ieee) = .ok generator ∧
      ∀ promptTokens config r, (generateTokensWithResolver F32Ops.words.ieee generator
          ((FileBackedTensorResolver.fromActivation (holding encoded) a).resolve
            F32Ops.words.ieee) promptTokens config).run = some (.ok r) ↔
        ((promptTokens ≠ [] ∧ config.contextLimit ≠ 0 ∧
            ∀ t ∈ promptTokens, t.toNat < lowered.vocabularySize) ∧
          4 * config.maxNewTokens ≤ PointerWidth.arm64V8a.isizeMax) ∧
        ∃ tokens, Decodes (Says F32Ops.words.ieee (cpuReferenceProvider F32Ops.words.ieee)
            (w.map (loaded F32Ops.words.ieee)) lowered.vocabularySize config) config.eosToken
            config.maxNewTokens 0 promptTokens tokens ∧
          (∀ t ∈ tokens, t.toNat < lowered.vocabularySize) ∧
          r = resultOf promptTokens tokens) ∨
      ∃ x ∈ encoded, ∃ y ∈ encoded, Collides x y) := by
  obtain ⟨model, lowered, encoded, nativeCapsule, hsample, hshipped⟩ := exists_shipped
  refine ⟨lowered, encoded, nativeCapsule, hsample, (hasShards_holding encoded).imp_left
    fun hholds => ?_⟩
  obtain ⟨w, -, hdecodes⟩ := shipped_decodes _ _ _ model lowered encoded nativeCapsule
    F32Ops.words.ieee hshipped
  obtain ⟨a, ha⟩ := hshipped.exists_activate hholds
  obtain ⟨generator, hgenerator⟩ := (hdecodes _ a ha).resolve_left hholds.not_hasForged
    (cpuReferenceProvider F32Ops.words.ieee)
  exact ⟨w, a, generator, ha, hgenerator⟩

end NTD97
