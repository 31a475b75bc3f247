import Mathlib
import NTD97.Gguf.Executes
import NTD97.Tensor.Causal

/-!
# Gguf/Causal — a lowered model looks back only

    tokens   p p p p | a a a            logits   ▪ ▪ ▪ ▪ | …
    tokens   p p p p | b b                       ▪ ▪ ▪ ▪ | …      the same rows

The first rows of the logits rest on the first tokens: not on the tokens behind them, and not on
their number.  The numbers may be any; nothing here rests on the arithmetic.
-/

namespace NTD97

open Guard Kernel GraphExecutor

section Forward

variable {ops : F32Ops} {k n₁ n₂ w : ℕ}

/-- A projection, cut into heads that are turned: the positions say how many rows there are. -/
theorem rows_rotated {shapeSpec x₁ x₂ r₁ r₂ p₁ p₂ u₁ u₂ : Tensor}
    (hpositions : CommonRows k [] n₁ n₂ p₁ p₂) (h : CommonRows k [w] n₁ n₂ x₁ x₂)
    (hr₁ : reshape ops [x₁, shapeSpec] = .ok r₁) (hr₂ : reshape ops [x₂, shapeSpec] = .ok r₂)
    (h₁ : rotaryPosition ops [r₁, p₁] = .ok u₁) (h₂ : rotaryPosition ops [r₂, p₂] = .ok u₂) :
    ∃ heads width, CommonRows k [heads, width] n₁ n₂ u₁ u₂ := by
  obtain ⟨_, heads₁, width₁, hshape₁, hp₁, -⟩ := rotaryPosition_eq_ok.1 h₁
  obtain ⟨_, heads₂, width₂, hshape₂, hp₂, -⟩ := rotaryPosition_eq_ok.1 h₂
  obtain rfl := List.singleton_inj.1 (hpositions.shape₁.symm.trans hp₁)
  obtain rfl := List.singleton_inj.1 (hpositions.shape₂.symm.trans hp₂)
  obtain ⟨rfl, rfl, hrows⟩ := h.reshape_heads (reshaped_of_eq_ok hr₁) (reshaped_of_eq_ok hr₂)
    hshape₁ hshape₂
  exact ⟨heads₁, width₁, hrows.rotaryPosition hpositions h₁ h₂⟩

/-- The values, cut into heads: the keys say into which. -/
theorem rows_values {heads : ℕ} {width : ℕ} {shapeSpec x₁ x₂ r₁ r₂ q₁ q₂ k₁ k₂ u₁ u₂ : Tensor}
    (h : CommonRows k [w] n₁ n₂ x₁ x₂) (hkeys : CommonRows k [heads, width] n₁ n₂ k₁ k₂)
    (hr₁ : reshape ops [x₁, shapeSpec] = .ok r₁) (hr₂ : reshape ops [x₂, shapeSpec] = .ok r₂)
    (h₁ : causalAttention ops [q₁, k₁, r₁] = .ok u₁)
    (h₂ : causalAttention ops [q₂, k₂, r₂] = .ok u₂) :
    CommonRows k [heads, width] n₁ n₂ r₁ r₂ ∧ n₁ ≠ 0 := by
  obtain ⟨_, _, _, _, -, hk₁, hv₁, -⟩ := causalAttention_eq_ok.1 h₁
  obtain ⟨_, _, _, _, -, hk₂, hv₂, -⟩ := causalAttention_eq_ok.1 h₂
  obtain ⟨-, -, hrows⟩ := h.reshape_heads (reshaped_of_eq_ok hr₁) (reshaped_of_eq_ok hr₂)
    (hv₁.trans (hk₁.symm.trans hkeys.shape₁)) (hv₂.trans (hk₂.symm.trans hkeys.shape₂))
  refine ⟨hrows, fun h0 => (reshaped_of_eq_ok hr₁).nonempty ?_⟩
  rw [← List.length_eq_zero_iff, x₁.length_data, h.shape₁, List.prod_cons, h0, Nat.zero_mul]

/-- What the heads say, projected and added to what came in: the sum says how many rows there
are. -/
theorem rows_residual {heads width : ℕ} {shapeSpec weight x₁ x₂ a₁ a₂ f₁ f₂ m₁ m₂ u₁ u₂ : Tensor}
    (h : CommonRows k [w] n₁ n₂ x₁ x₂) (hheads : CommonRows k [heads, width] n₁ n₂ a₁ a₂) (hpos : n₁ ≠ 0)
    (hf₁ : reshape ops [a₁, shapeSpec] = .ok f₁) (hf₂ : reshape ops [a₂, shapeSpec] = .ok f₂)
    (hm₁ : matmul ops [f₁, weight] = .ok m₁) (hm₂ : matmul ops [f₂, weight] = .ok m₂)
    (h₁ : elementwiseBinary ops.add [x₁, m₁] = .ok u₁)
    (h₂ : elementwiseBinary ops.add [x₂, m₂] = .ok u₂) : CommonRows k [w] n₁ n₂ u₁ u₂ := by
  obtain ⟨_, b₁, _, hflat₁, hweight₁, hprod₁, -⟩ := matmul_eq_ok.1 hm₁
  obtain ⟨_, b₂, _, hflat₂, hweight₂, hprod₂, -⟩ := matmul_eq_ok.1 hm₂
  obtain ⟨hsame₁, -⟩ := elementwiseBinary_eq_ok.1 h₁
  obtain ⟨hsame₂, -⟩ := elementwiseBinary_eq_ok.1 h₂
  obtain ⟨rfl, -⟩ := List.cons.inj ((h.shape₁.symm.trans hsame₁).trans hprod₁)
  obtain ⟨rfl, -⟩ := List.cons.inj ((h.shape₂.symm.trans hsame₂).trans hprod₂)
  obtain ⟨rfl, -⟩ := List.cons.inj (hweight₁.symm.trans hweight₂)
  have hflat : CommonRows k [b₁] n₁ n₂ f₁ f₂ := hheads.of_data hpos hflat₁ hflat₂
    (reshaped_of_eq_ok hf₁).data_eq (reshaped_of_eq_ok hf₂).data_eq
  obtain ⟨_, -, hprod⟩ := hflat.matmul hm₁ hm₂
  exact h.elementwise hprod h₁ h₂

/-- **A layer keeps rows apart.** -/
theorem rows_forwardLayer {shared : SharedConstants Tensor} {weights : LayerWeights Tensor}
    {p₁ p₂ x₁ x₂ u₁ u₂ : Tensor} (hpositions : CommonRows k [] n₁ n₂ p₁ p₂) (h : CommonRows k [w] n₁ n₂ x₁ x₂)
    (h₁ : forwardLayer (cpuReferenceProvider ops) shared p₁ x₁ weights = .ok u₁)
    (h₂ : forwardLayer (cpuReferenceProvider ops) shared p₂ x₂ weights = .ok u₂) :
    CommonRows k [w] n₁ n₂ u₁ u₂ := by
  simp only [forwardLayer, bind_eq_ok, stage_kernel, kernelOf] at h₁ h₂
  obtain ⟨norm₁, ⟨hnorm₁, -⟩, q₁, ⟨hq₁, -⟩, k₁, ⟨hk₁, -⟩, v₁, ⟨hv₁, -⟩, qh₁, ⟨hqh₁, -⟩, kh₁,
    ⟨hkh₁, -⟩, vh₁, ⟨hvh₁, -⟩, qr₁, ⟨hqr₁, -⟩, kr₁, ⟨hkr₁, -⟩, heads₁, ⟨hheads₁, -⟩, flat₁,
    ⟨hflat₁, -⟩, att₁, ⟨hatt₁, -⟩, res₁, ⟨hres₁, -⟩, ffn₁, ⟨hffn₁, -⟩, gate₁, ⟨hgate₁, -⟩, act₁,
    ⟨hact₁, -⟩, up₁, ⟨hup₁, -⟩, gated₁, ⟨hgated₁, -⟩, down₁, ⟨hdown₁, -⟩, hu₁, -⟩ := h₁
  obtain ⟨norm₂, ⟨hnorm₂, -⟩, q₂, ⟨hq₂, -⟩, k₂, ⟨hk₂, -⟩, v₂, ⟨hv₂, -⟩, qh₂, ⟨hqh₂, -⟩, kh₂,
    ⟨hkh₂, -⟩, vh₂, ⟨hvh₂, -⟩, qr₂, ⟨hqr₂, -⟩, kr₂, ⟨hkr₂, -⟩, heads₂, ⟨hheads₂, -⟩, flat₂,
    ⟨hflat₂, -⟩, att₂, ⟨hatt₂, -⟩, res₂, ⟨hres₂, -⟩, ffn₂, ⟨hffn₂, -⟩, gate₂, ⟨hgate₂, -⟩, act₂,
    ⟨hact₂, -⟩, up₂, ⟨hup₂, -⟩, gated₂, ⟨hgated₂, -⟩, down₂, ⟨hdown₂, -⟩, hu₂, -⟩ := h₂
  have hnorm := h.rmsNorm hnorm₁ hnorm₂
  obtain ⟨_, -, hq⟩ := hnorm.matmul hq₁ hq₂
  obtain ⟨_, -, hk⟩ := hnorm.matmul hk₁ hk₂
  obtain ⟨_, -, hv⟩ := hnorm.matmul hv₁ hv₂
  obtain ⟨heads, width, hqr⟩ := rows_rotated hpositions hq hqh₁ hqh₂ hqr₁ hqr₂
  obtain ⟨kvHeads, width', hkr⟩ := rows_rotated hpositions hk hkh₁ hkh₂ hkr₁ hkr₂
  obtain ⟨hvh, hpos⟩ := rows_values hv hkr hvh₁ hvh₂ hheads₁ hheads₂
  obtain rfl : width = width' := by
    obtain ⟨_, _, _, _, hquery, hkey, -⟩ := causalAttention_eq_ok.1 hheads₁
    cases hqr.shape₁.symm.trans hquery
    cases hkr.shape₁.symm.trans hkey
    rfl
  have hres := rows_residual h (hqr.causalAttention hkr hvh hheads₁ hheads₂) hpos hflat₁ hflat₂
    hatt₁ hatt₂ hres₁ hres₂
  have hffn := hres.rmsNorm hffn₁ hffn₂
  obtain ⟨_, -, hgate⟩ := hffn.matmul hgate₁ hgate₂
  obtain ⟨_, -, hup⟩ := hffn.matmul hup₁ hup₂
  have hgated := (hgate.silu hact₁ hact₂).elementwise hup hgated₁ hgated₂
  obtain ⟨_, -, hdown⟩ := hgated.matmul hdown₁ hdown₂
  exact hres.elementwise hdown hu₁ hu₂

/-- **All layers keep rows apart.** -/
theorem rows_layers {shared : SharedConstants Tensor} {p₁ p₂ : Tensor}
    (hpositions : CommonRows k [] n₁ n₂ p₁ p₂) : ∀ {layers : List (LayerWeights Tensor)}
      {x₁ x₂ u₁ u₂ : Tensor}, CommonRows k [w] n₁ n₂ x₁ x₂ →
    layers.foldlM (forwardLayer (cpuReferenceProvider ops) shared p₁) x₁ = .ok u₁ →
    layers.foldlM (forwardLayer (cpuReferenceProvider ops) shared p₂) x₂ = .ok u₂ →
      CommonRows k [w] n₁ n₂ u₁ u₂
  | [], _, _, _, _, h, h₁, h₂ => by
      obtain rfl := pure_eq_ok.1 h₁
      obtain rfl := pure_eq_ok.1 h₂
      exact h
  | _ :: _, _, _, _, _, h, h₁, h₂ => by
      rw [List.foldlM_cons, bind_eq_ok] at h₁ h₂
      obtain ⟨_, hlayer₁, hrest₁⟩ := h₁
      obtain ⟨_, hlayer₂, hrest₂⟩ := h₂
      exact rows_layers hpositions (rows_forwardLayer hpositions h hlayer₁ hlayer₂) hrest₁ hrest₂

/-- **The forward pass looks back only.** -/
theorem rows_forward {weights : LlamaWeights Tensor} {t₁ t₂ u₁ u₂ : Tensor}
    (h : CommonRows k [] n₁ n₂ t₁ t₂) (h₁ : forward (cpuReferenceProvider ops) weights t₁ = .ok u₁)
    (h₂ : forward (cpuReferenceProvider ops) weights t₂ = .ok u₂) :
    ∃ vocabulary, CommonRows k [vocabulary] n₁ n₂ u₁ u₂ := by
  simp only [forward, bind_eq_ok, stage_kernel, kernelOf] at h₁ h₂
  obtain ⟨p₁, ⟨hp₁, -⟩, x₁, ⟨hx₁, -⟩, y₁, hy₁, z₁, ⟨hz₁, -⟩, hu₁, -⟩ := h₁
  obtain ⟨p₂, ⟨hp₂, -⟩, x₂, ⟨hx₂, -⟩, y₂, hy₂, z₂, ⟨hz₂, -⟩, hu₂, -⟩ := h₂
  obtain ⟨width, hx⟩ := h.gather hx₁ hx₂
  have hz := (rows_layers (h.positionIds hp₁ hp₂) hx hy₁ hy₂).rmsNorm hz₁ hz₂
  obtain ⟨vocabulary, -, hu⟩ := hz.matmul hu₁ hu₂
  exact ⟨vocabulary, hu⟩

end Forward

/-! ## Execution -/

theorem assigned_insert_self {values : Values} {id : UInt32} {t : Tensor} :
    assigned (values.insert id t) id = t := by
  rw [assigned, Std.ExtTreeMap.getElem?_insert_self, Option.getD_some]

theorem assigned_insert_ne {values : Values} {id other : UInt32} {t : Tensor} (h : id ≠ other) :
    assigned (values.insert id t) other = assigned values other := by
  rw [assigned, assigned, Std.ExtTreeMap.getElem?_insert, if_neg (mt Std.compare_eq_iff_eq.1 h)]

/-- What executes is valid. -/
theorem validate_of_execute {provider : ExecutionProvider} {graph : Graph} {inputs : Values}
    {resolver : TensorResolver} {outputs : List Tensor}
    (h : executeWithResolver provider graph inputs resolver = .ok outputs) :
    graph.validate = .ok () := by
  obtain ⟨_, hnodes, -⟩ := bind_eq_ok.1 h
  obtain ⟨_, hvalid, -⟩ := bind_eq_ok.1 hnodes
  exact mapError_eq_ok.1 hvalid

/-- What a run on given tokens answers: the forward pass on these tokens, which are a row. -/
theorem RunsForward.logits {graph : Graph} {tokenInput : ValueId} {w : LlamaWeights PlacedTensor}
    (h : RunsForward graph tokenInput w)
    (hinputs : graph.inputs = ⟨tokenInput, .tensor .i32 1⟩ :: w.toList.map PlacedTensor.decl)
    {provider : ExecutionProvider} {values : Values} {tokens : Tensor} {resolver : TensorResolver}
    {outputs : List Tensor}
    (hgiven : ∀ decl ∈ graph.inputs, decl.id = tokenInput ∨ decl.id.val ∈ values)
    (hrun : executeWithResolver provider graph (values.insert tokenInput.val tokens) resolver =
      .ok outputs) :
    tokens.shape = [tokens.data.length] ∧ ∃ logits,
      forward provider (w.map (PlacedTensor.read (assigned values))) tokens = .ok logits ∧
        outputs = [logits] := by
  obtain ⟨hnodup, -⟩ := inScope_of_validate (validate_of_execute hrun)
  have hmem : ∀ decl ∈ graph.inputs, decl.id.val ∈ values.insert tokenInput.val tokens := by
    intro decl hdecl
    rw [Std.ExtTreeMap.mem_insert]
    rcases hgiven decl hdecl with htoken | hvalue
    · exact .inl (by rw [htoken, Std.compare_self])
    · exact .inr hvalue
  obtain ⟨hfits, hforward⟩ := (h provider _ resolver outputs hmem).1 hrun
  have hweights : w.map (PlacedTensor.read (assigned (values.insert tokenInput.val tokens))) =
      w.map (PlacedTensor.read (assigned values)) := by
    refine LlamaWeights.map_congr fun p hp => assigned_insert_ne fun heq => ?_
    rw [hinputs] at hnodup
    exact (List.nodup_cons.1 hnodup).1
      (List.mem_map.2 ⟨p.decl, List.mem_map_of_mem hp, heq.symm⟩)
  rw [hweights, assigned_insert_self] at hforward
  have hrank := hfits _ (hinputs ▸ List.mem_cons_self)
  rw [assigned_insert_self] at hrank
  obtain ⟨n, hshape⟩ := List.length_eq_one_iff.1 (show tokens.shape.length = 1 from hrank)
  refine ⟨?_, hforward⟩
  rw [tokens.length_data, hshape, List.prod_singleton]

/-- **A lowered model is causal**: run on two token sequences that begin alike, with the same
weights, it answers logits that begin alike, row by row. -/
theorem lowered_causal (ops : F32Ops) (f16ToF32 : UInt16 → F32) (source : GgufByteSource)
    (model : GgufModel) (lowered : LoweredLlamaModel) (kernels : F32Ops) (weights : Values)
    (common rest₁ rest₂ : List F32) (tokens₁ tokens₂ : Tensor) (resolver₁ resolver₂ : TensorResolver)
    (outputs₁ outputs₂ : List Tensor)
    (hlower : (lowerLlamaModelFromSource ops f16ToF32 source model).run = some (.ok lowered))
    (hweights : ∀ decl ∈ lowered.graph.inputs,
      decl.id = lowered.tokenInput ∨ decl.id.val ∈ weights)
    (htokens₁ : tokens₁.data = common ++ rest₁) (htokens₂ : tokens₂.data = common ++ rest₂)
    (hrun₁ : executeWithResolver (cpuReferenceProvider kernels) lowered.graph
      (weights.insert lowered.tokenInput.val tokens₁) resolver₁ = .ok outputs₁)
    (hrun₂ : executeWithResolver (cpuReferenceProvider kernels) lowered.graph
      (weights.insert lowered.tokenInput.val tokens₂) resolver₂ = .ok outputs₂) :
    ∃ vocabulary logits₁ logits₂, outputs₁ = [logits₁] ∧ outputs₂ = [logits₂] ∧
      logits₁.shape = [(common ++ rest₁).length, vocabulary] ∧
      logits₂.shape = [(common ++ rest₂).length, vocabulary] ∧
      logits₁.data.take (common.length * vocabulary) =
        logits₂.data.take (common.length * vocabulary) := by
  obtain ⟨parts, hparts, rfl⟩ := exists_parts hlower
  obtain ⟨w, -, hinputs, -, -, hruns, -⟩ := lowerLlamaModelInternal_runsForward hparts
  obtain ⟨hshape₁, logits₁, hforward₁, rfl⟩ := hruns.logits hinputs hweights hrun₁
  obtain ⟨hshape₂, logits₂, hforward₂, rfl⟩ := hruns.logits hinputs hweights hrun₂
  have hrows : CommonRows common.length [] (common ++ rest₁).length (common ++ rest₂).length tokens₁
      tokens₂ := by
    refine ⟨htokens₁ ▸ hshape₁, htokens₂ ▸ hshape₂, ?_, ?_, ?_⟩
    · rw [List.length_append]
      exact Nat.le_add_right _ _
    · rw [List.length_append]
      exact Nat.le_add_right _ _
    · rw [List.prod_nil, Nat.mul_one, htokens₁, htokens₂, List.take_left, List.take_left]
  obtain ⟨vocabulary, hlogits⟩ := rows_forward hrows hforward₁ hforward₂
  have htake := hlogits.take_eq
  rw [List.prod_singleton] at htake
  exact ⟨vocabulary, logits₁, logits₂, rfl, rfl, hlogits.shape₁, hlogits.shape₂, htake⟩

open ForwardSample in
/-- One token, and the same token twice, on the small model: the first rows agree. -/
theorem lowered_causal_sample : ∃ (model : GgufModel) (lowered : LoweredLlamaModel)
    (vocabulary : ℕ) (logits₁ logits₂ : Tensor), lowering model = some (.ok lowered) ∧
      logits₁.shape = [1, vocabulary] ∧ logits₂.shape = [2, vocabulary] ∧
      logits₁.data.take (1 * vocabulary) = logits₂.data.take (1 * vocabulary) := by
  obtain ⟨model, lowered, -, hlowered, hembedding, hfeedForward, hheadDim, hvocabulary⟩ :=
    exists_lowered
  obtain ⟨parts, hparts, rfl⟩ := exists_parts hlowered
  obtain ⟨w, hw, hinputs, -, -, hruns, -⟩ := lowerLlamaModelInternal_runsForward hparts
  obtain ⟨hchecked, hvalid⟩ := checks_of_lowered hparts
  simp only at hembedding hfeedForward hheadDim hvocabulary
  obtain ⟨s, hs, hvoc⟩ := exists_sizes_of_lowered hchecked (by simp [hembedding])
    (by simp [hfeedForward]) (by simp [hvocabulary]) (by simp [hvocabulary])
  obtain ⟨weights, hweights⟩ :=
    exists_weights F32Ops.words.ieee (inScope_of_validate hvalid).1 hinputs (hw.plain hs)
  have heven : s.headDim % 2 = 0 := by rw [← hs.headDim, hheadDim]; rfl
  -- the model executes on any number of tokens
  have hrun (n : ℕ) (hn : n < 2) : ∃ tokens outputs, tokens.data = [F32.zero] ++
      List.replicate n F32.zero ∧ executeWithResolver (cpuReferenceProvider F32Ops.words.ieee)
        parts.graph (weights.insert parts.tokenInput.val tokens) emptyTensorResolver =
          .ok outputs := by
    have hids : ∀ id ∈ List.replicate (n + 1) (0 : UInt32), id.toNat < s.vocabulary := by
      rw [hvoc, hvocabulary]
      intro id hid
      rw [List.eq_of_mem_replicate hid]
      exact Nat.one_pos
    have hlt : (List.replicate (n + 1) (0 : UInt32)).length < 2 ^ 40 := by
      rw [List.length_replicate]
      omega
    obtain ⟨tokens, hshape, hdata⟩ := exists_tokens F32Ops.words.ieee (by simp) hlt
    obtain ⟨outputs, houtputs⟩ := (hruns.executes_iff emptyTensorResolver hinputs hw hchecked hs
      (by simp) hlt hids ⟨tokens, Std.ExtTreeMap.getElem?_insert_self, hshape, hdata⟩
      fun p hp => (hweights p hp).2 tokens).1.2 heven
    refine ⟨tokens, outputs, ?_, houtputs⟩
    rw [hdata, List.map_replicate, List.replicate_succ]
    rfl
  obtain ⟨tokens₁, outputs₁, hdata₁, hrun₁⟩ := hrun 0 (by decide)
  obtain ⟨tokens₂, outputs₂, hdata₂, hrun₂⟩ := hrun 1 (by decide)
  have hgiven : ∀ decl ∈ parts.graph.inputs, decl.id = parts.tokenInput ∨ decl.id.val ∈ weights := by
    rw [hinputs, List.forall_mem_cons, List.forall_mem_map]
    exact ⟨.inl rfl, fun p hp => .inr (hweights p hp).1.load_read.1⟩
  obtain ⟨vocabulary, logits₁, logits₂, -, -, hshape₁, hshape₂, htake⟩ :=
    lowered_causal F32Ops.words.ieee (·.toUInt32) (SliceGgufSource.source file) model _
      F32Ops.words.ieee weights [F32.zero] [] [F32.zero] tokens₁ tokens₂ emptyTensorResolver
      emptyTensorResolver outputs₁ outputs₂ hlowered hgiven hdata₁ hdata₂ hrun₁ hrun₂
  exact ⟨model, _, vocabulary, logits₁, logits₂, hlowered, hshape₁, hshape₂, htake⟩

end NTD97
