import Mathlib
import NTD97.Activation.Resolver
import NTD97.Gguf.Forward
import NTD97.Tensor.Loaded

/-!
# Gguf/Weights — the tensors of a lowered model, loaded

    config ──checks──▸ sizes        placed tensor ──load──▸ tensor of the shape of its place

The dimensions that a configuration has checked are those of the tensors that are placed.  Every one
of them is loaded, and has the shape that the forward pass wants at its place.
-/

namespace NTD97

open Guard Wire Slices GraphExecutor

/-! ## Sizes -/

/-- **The sizes of a model**, which match, and are small enough to be numbers of single precision. -/
structure Sizes where
  embedding : ℕ
  heads : ℕ
  kvHeads : ℕ
  headDim : ℕ
  feedForward : ℕ
  vocabulary : ℕ
  heads_mul : heads * headDim = embedding
  groups : heads % kvHeads = 0
  embedding_ne : embedding ≠ 0
  kvHeads_ne : kvHeads ≠ 0
  feedForward_ne : feedForward ≠ 0
  vocabulary_ne : vocabulary ≠ 0
  embedding_lt : embedding < 2 ^ 24
  feedForward_lt : feedForward < 2 ^ 24
  vocabulary_lt : vocabulary < 2 ^ 24

namespace Sizes

variable (s : Sizes)

def kvWidth : ℕ := s.kvHeads * s.headDim

theorem heads_ne : s.heads ≠ 0 := fun h => s.embedding_ne (by rw [← s.heads_mul, h, Nat.zero_mul])

theorem headDim_ne : s.headDim ≠ 0 := fun h =>
  s.embedding_ne (by rw [← s.heads_mul, h, Nat.mul_zero])

theorem kvWidth_ne : s.kvWidth ≠ 0 := Nat.mul_ne_zero s.kvHeads_ne s.headDim_ne

theorem kvHeads_le : s.kvHeads ≤ s.heads :=
  Nat.le_of_dvd (Nat.pos_of_ne_zero s.heads_ne) (Nat.dvd_of_mod_eq_zero s.groups)

theorem kvWidth_le : s.kvWidth ≤ s.embedding := by
  rw [← s.heads_mul]
  exact Nat.mul_le_mul_right _ s.kvHeads_le

theorem heads_le : s.heads ≤ s.embedding := by
  rw [← s.heads_mul]
  exact Nat.le_mul_of_pos_right _ (Nat.pos_of_ne_zero s.headDim_ne)

theorem headDim_le : s.headDim ≤ s.embedding := by
  rw [← s.heads_mul]
  exact Nat.le_mul_of_pos_left _ (Nat.pos_of_ne_zero s.heads_ne)

end Sizes

/-- What a configuration has checked. -/
structure LlamaConfig.Checked (ops : F32Ops) (config : LlamaConfig) : Prop where
  embedding_ne : config.embeddingLength ≠ 0
  blocks_ne : config.blockCount ≠ 0
  feedForward_ne : config.feedForwardLength ≠ 0
  heads_ne : config.headCount ≠ 0
  kvHeads_ne : config.headCountKv ≠ 0
  divides : config.embeddingLength % config.headCount = 0
  groups : config.headCount % config.headCountKv = 0
  finite : ops.isFinite config.rmsEpsilon = true
  positive : ops.le config.rmsEpsilon F32.zero = false
  headDim_eq : config.headDim = config.embeddingLength / config.headCount

namespace LlamaConfig

variable {ops : F32Ops} {model : GgufModel} {config : LlamaConfig}

theorem checked_of_fromModel (h : fromModel ops model = .ok config) : config.Checked ops := by
  simp only [fromModel, bind_eq_ok, exists_unit, refuse_eq_ok, not_or, not_not, pure_eq_ok] at h
  obtain ⟨-, _, -, _, -, _, -, _, -, _, -, _, -, _, -, hdims, _, -, -, _, -, -, -, rfl⟩ := h
  obtain ⟨-, hembedding, hblocks, hfeedForward, hheads, hkvHeads, hdivides, hgroups, hfinite,
    hpositive⟩ := hdims
  exact ⟨hembedding, hblocks, hfeedForward, hheads, hkvHeads, hdivides, hgroups,
    Bool.not_eq_false _ ▸ hfinite, Bool.not_eq_true _ ▸ hpositive, rfl⟩

/-- These are the sizes of a configuration and a vocabulary. -/
structure Has (config : LlamaConfig) (vocabulary : UInt64) (s : Sizes) : Prop where
  embedding : config.embeddingLength.toNat = s.embedding
  heads : config.headCount.toNat = s.heads
  kvHeads : config.headCountKv.toNat = s.kvHeads
  headDim : config.headDim.toNat = s.headDim
  feedForward : config.feedForwardLength.toNat = s.feedForward
  vocabulary : vocabulary.toNat = s.vocabulary

/-- **A configuration that is checked has sizes.** -/
theorem Checked.exists_sizes (h : config.Checked ops) (vocabulary : UInt64)
    (hvocabulary : vocabulary ≠ 0) (hembedding : config.embeddingLength.toNat < 2 ^ 24)
    (hfeedForward : config.feedForwardLength.toNat < 2 ^ 24)
    (hlt : vocabulary.toNat < 2 ^ 24) : ∃ s, config.Has vocabulary s := by
  have hmul : config.headCount.toNat * config.headDim.toNat = config.embeddingLength.toNat := by
    rw [h.headDim_eq, UInt32.toNat_div]
    refine Nat.mul_div_cancel' (Nat.dvd_of_mod_eq_zero ?_)
    rw [← UInt32.toNat_mod, h.divides]
    rfl
  have hgroups : config.headCount.toNat % config.headCountKv.toNat = 0 := by
    rw [← UInt32.toNat_mod, h.groups]
    rfl
  exact ⟨{
    embedding := config.embeddingLength.toNat
    heads := config.headCount.toNat
    kvHeads := config.headCountKv.toNat
    headDim := config.headDim.toNat
    feedForward := config.feedForwardLength.toNat
    vocabulary := vocabulary.toNat
    heads_mul := hmul
    groups := hgroups
    embedding_ne := fun h0 => h.embedding_ne (UInt32.toNat_inj.1 h0)
    kvHeads_ne := fun h0 => h.kvHeads_ne (UInt32.toNat_inj.1 h0)
    feedForward_ne := fun h0 => h.feedForward_ne (UInt32.toNat_inj.1 h0)
    vocabulary_ne := fun h0 => hvocabulary (UInt64.toNat_inj.1 h0)
    embedding_lt := hembedding
    feedForward_lt := hfeedForward
    vocabulary_lt := hlt }, rfl, rfl, rfl, rfl, rfl, rfl⟩

end LlamaConfig

/-! ## Tensors that load -/

/-- The elements of a shape, counted in words and in `usize`. -/
theorem foldlM_count_map : ∀ {shape : List UInt64} {count elements : UInt64},
    shape.foldlM (fun count dimension => okOr (checkedMul64 count dimension)
        .invalidShape) count = (.ok elements : Except NativeTensorError UInt64) →
      (shape.map UInt64.toNat).foldlM (fun count dimension => okOr (checkedMulUsize count dimension)
        .invalidShape) count.toNat = (.ok elements.toNat : Except TensorError ℕ)
  | [], count, elements, h => by
      obtain rfl := pure_eq_ok.1 h
      rfl
  | dimension :: shape, count, elements, h => by
      rw [List.foldlM_cons] at h
      obtain ⟨product, hproduct, hrest⟩ := bind_eq_ok.1 h
      have hmul := checkedMul64_eq_some.1 (okOr_eq_ok.1 hproduct)
      rw [List.map_cons, List.foldlM_cons]
      refine bind_eq_ok.2 ⟨product.toNat, okOr_eq_ok.2 ?_, foldlM_count_map hrest⟩
      exact checkedMulUsize_eq_some.2 ⟨hmul ▸ product.toNat_lt, hmul.symm⟩

/-- **What is encoded is loaded**, if it holds numbers. -/
theorem NativeTensor.exists_load {ir : IrVersion} {native : NativeTensor} {bytes : Bytes}
    (h : encodeNativeTensor ir native = .ok bytes) (hquantization : native.quantization = .none)
    (hfloat : TensorLoader.IsFloat native.descriptor.dtype) (ops : F32Ops) :
    ∃ t, native.load ops = .ok t := by
  obtain ⟨⟨⟩, hvalid, -⟩ := bind_eq_ok.1 h
  simp only [validateTensor, bind_eq_ok, exists_unit, refuse_eq_ok, not_not, hquantization,
    expectedLen, okOr_eq_ok] at hvalid
  obtain ⟨elements, hcount, actual, hactual, -, expected, hexpected, rfl⟩ := hvalid
  have hmul := checkedMul64_eq_some.1 hexpected
  have hwidth : (dtypeWidth native.descriptor.dtype).toNat =
      TensorLoader.dtypeWidth native.descriptor.dtype := by
    cases native.descriptor.dtype <;> rfl
  have hlength := (lenU64_eq_ok.1 hactual).symm.trans (hmul.trans (congrArg _ hwidth))
  obtain ⟨t, ht, -⟩ := TensorLoader.load_of_count ops hfloat (foldlM_count_map hcount)
    hlength (lenU64_eq_ok.1 hactual ▸ actual.toNat_lt)
  refine ⟨t, ?_⟩
  rw [NativeTensor.load, hquantization]
  exact ht

/-- A tensor that was placed, and that the loader takes: numbers, as many as the shape says. -/
structure Plain (p : PlacedTensor) : Prop where
  float : TensorLoader.IsFloat p.dtype
  ne_zero : ∀ d ∈ p.shape, d ≠ 0
  rank_le : p.shape.length ≤ 2
  length_eq : p.payload.length =
    (p.shape.map UInt64.toNat).prod * TensorLoader.dtypeWidth p.dtype
  length_lt : p.payload.length < 2 ^ 64

namespace Plain

variable {p : PlacedTensor}

/-- **It is loaded, with its shape and its numbers.** -/
theorem load (h : Plain p) (ops : F32Ops) : ∃ t, p.native.load ops = .ok t ∧
    t.shape = p.shape.map UInt64.toNat ∧ t.data = TensorLoader.numbers p.dtype p.payload :=
  TensorLoader.load_of_float h.float h.ne_zero h.length_eq h.length_lt

/-- What is loaded fits the graph input that it was placed for. -/
theorem fits (h : Plain p) {ops : F32Ops} {t : Tensor} (ht : p.native.load ops = .ok t) :
    GraphExecutor.Fits p.decl t := by
  refine Computes.fits_typeOfRank.2 ?_
  have hlt : p.shape.length < 256 := h.rank_le.trans_lt (by decide)
  rw [Tensor.rank, TensorLoader.load_shape ht, List.length_map]
  exact (UInt8.toNat_ofNat_of_lt' hlt).symm

end Plain

section Source

variable {ops : F32Ops} {f16ToF32 : UInt16 → F32} {table : SourceTensorTable} {name : String}
  {p : PlacedTensor}

theorem isFloat_transcodedDtype (format : Ggml.Format) :
    TensorLoader.IsFloat (transcodedDtype format) := by
  cases format <;> trivial

theorem FromSource.isFloat {expected : List UInt64} {transpose2d : Bool}
    (h : FromSource ops f16ToF32 table name expected transpose2d p) :
    TensorLoader.IsFloat p.dtype := by
  obtain ⟨tensor, -, -, hrun⟩ := h.transcoded
  obtain ⟨format, _, -, hnative⟩ := safe_transcodeTensorFromSource.of_answer hrun
  have hdtype : p.dtype = transcodedDtype format := hnative.dtype_eq
  exact hdtype ▸ isFloat_transcodedDtype format

theorem IsConstant.isFloat {shape : List UInt64} {numbers : List F32}
    (h : IsConstant name shape numbers p) : TensorLoader.IsFloat p.dtype := by
  rw [h.dtype_eq]
  trivial

/-- **Every tensor of a lowered model holds numbers.** -/
theorem WeightsFromSource.isFloat {config : LlamaConfig} {vocabulary : UInt64}
    {w : LlamaWeights PlacedTensor}
    (hw : WeightsFromSource ops f16ToF32 table config vocabulary w) :
    ∀ p ∈ w.toList, TensorLoader.IsFloat p.dtype := by
  simp only [LlamaWeights.toList, SharedConstants.toList, List.forall_mem_append,
    List.forall_mem_cons, List.forall_mem_flatMap]
  refine ⟨⟨⟨hw.epsilon.isFloat, hw.queryShape.isFloat, hw.kvShape.isFloat, hw.flattenShape.isFloat,
      fun _ h => absurd h List.not_mem_nil⟩, hw.embedding.isFloat, fun weights hmem => ?_⟩,
    hw.outputNorm.isFloat, hw.output.isFloat, fun _ h => absurd h List.not_mem_nil⟩
  obtain ⟨i, hi⟩ := List.getElem?_of_mem hmem
  have h := hw.layers i weights hi
  simp only [LayerWeights.toList, List.forall_mem_cons]
  exact ⟨h.attnNorm.isFloat, h.q.isFloat, h.k.isFloat, h.v.isFloat, h.attnOutput.isFloat,
    h.ffnNorm.isFloat, h.ffnGate.isFloat, h.ffnUp.isFloat, h.ffnDown.isFloat,
    fun _ h => absurd h List.not_mem_nil⟩

/-- The elements of a tensor are the product of its dimensions. -/
theorem rows_mul_columns {tensor : GgufTensorInfo} (h : tensor.dimensions ≠ []) :
    tensor.rows * tensor.columns = (tensor.dimensions.map UInt64.toNat).prod := by
  rw [GgufTensorInfo.rows, GgufTensorInfo.columns]
  cases hdims : tensor.dimensions with
  | nil => exact absurd hdims h
  | cons first rest =>
    rw [List.map_cons, List.prod_cons, Nat.mul_comm]
    rfl

/-- The shape at the place of a tensor from the source. -/
theorem FromSource.shape_eq {expected : List UInt64} {transpose2d : Bool}
    (h : FromSource ops f16ToF32 table name expected transpose2d p) :
    p.shape = if transpose2d then expected else expected.reverse := by
  obtain ⟨tensor, -, rfl, hrun⟩ := h.transcoded
  obtain ⟨_, _, -, hnative⟩ := safe_transcodeTensorFromSource.of_answer hrun
  exact hnative.shape_eq

/-- **A tensor from the source is loaded**, if it has elements, and not too many. -/
theorem FromSource.plain {expected : List UInt64} {transpose2d : Bool}
    (h : FromSource ops f16ToF32 table name expected transpose2d p) (hexpected : expected ≠ [])
    (hrank : expected.length ≤ 2) (hne : ∀ d ∈ expected, d ≠ 0)
    (hlt : (expected.map UInt64.toNat).prod < 2 ^ 48) : Plain p := by
  have hshape := h.shape_eq
  obtain ⟨tensor, -, rfl, hrun⟩ := h.transcoded
  obtain ⟨format, _, -, hnative⟩ := safe_transcodeTensorFromSource.of_answer hrun
  have hdtype : p.dtype = transcodedDtype format := hnative.dtype_eq
  have hmem (d : UInt64) : d ∈ p.shape ↔ d ∈ tensor.dimensions := by
    rw [hshape]
    split
    · exact Iff.rfl
    · exact List.mem_reverse
  have hprod : (p.shape.map UInt64.toNat).prod = (tensor.dimensions.map UInt64.toNat).prod := by
    rw [hshape]
    split
    · rfl
    · rw [List.map_reverse, List.prod_reverse]
  have hlength : p.payload.length =
      (p.shape.map UInt64.toNat).prod * TensorLoader.dtypeWidth p.dtype := by
    rw [hprod, ← rows_mul_columns hexpected, hdtype]
    exact hnative.length_eq
  have hwidth : TensorLoader.dtypeWidth p.dtype ≤ 8 := by cases p.dtype <;> decide
  refine ⟨h.isFloat, fun d hd => hne d ((hmem d).1 hd), ?_, hlength, ?_⟩
  · rw [hshape]
    split
    · exact hrank
    · rw [List.length_reverse]
      exact hrank
  · rw [hlength, hprod]
    exact (Nat.mul_le_mul hlt.le hwidth).trans_lt (by norm_num)

/-- **A constant is loaded**, with its numbers. -/
theorem IsConstant.plain {shape : List UInt64} {numbers : List F32}
    (h : IsConstant name shape numbers p) (hrank : shape.length ≤ 2) (hne : ∀ d ∈ shape, d ≠ 0)
    (hprod : (shape.map UInt64.toNat).prod = numbers.length) (hlt : numbers.length < 2 ^ 48) :
    Plain p ∧ TensorLoader.numbers p.dtype p.payload = numbers := by
  have hlength : p.payload.length = numbers.length * 4 := by
    rw [h.payload_eq, List.length_flatMap,
      List.map_congr_left fun value _ => length_leBytes 4 value.toNat, List.map_const',
      List.sum_replicate, smul_eq_mul]
  refine ⟨⟨h.isFloat, ?_, ?_, ?_, ?_⟩, ?_⟩
  · rwa [h.shape_eq]
  · rwa [h.shape_eq]
  · rw [h.shape_eq, hprod, h.dtype_eq, hlength]
    rfl
  · rw [hlength]
    omega
  · rw [h.dtype_eq, h.payload_eq, TensorLoader.numbers_flatMap]

end Source

/-! ## Shapes -/

/-- A shape that keeps the rows, and has these dimensions behind them. -/
structure IsShape (ops : F32Ops) (dims : List ℕ) (t : Tensor) : Prop where
  rank : t.rank = 1
  data : ∃ zero raws, t.data = zero :: raws ∧ IsNumber ops zero 0 ∧
    List.Forall₂ (IsNumber ops) raws dims

structure SharedShapes (ops : F32Ops) (s : Sizes) (c : SharedConstants Tensor) : Prop where
  epsilon : Kernel.IsEpsilon ops c.epsilon
  queryShape : IsShape ops [s.heads, s.headDim] c.queryShape
  kvShape : IsShape ops [s.kvHeads, s.headDim] c.kvShape
  flattenShape : IsShape ops [s.embedding] c.flattenShape

structure LayerShapes (s : Sizes) (w : LayerWeights Tensor) : Prop where
  attnNorm : w.attnNorm.shape = [s.embedding]
  q : w.q.shape = [s.embedding, s.embedding]
  k : w.k.shape = [s.embedding, s.kvWidth]
  v : w.v.shape = [s.embedding, s.kvWidth]
  attnOutput : w.attnOutput.shape = [s.embedding, s.embedding]
  ffnNorm : w.ffnNorm.shape = [s.embedding]
  ffnGate : w.ffnGate.shape = [s.embedding, s.feedForward]
  ffnUp : w.ffnUp.shape = [s.embedding, s.feedForward]
  ffnDown : w.ffnDown.shape = [s.feedForward, s.embedding]

structure WeightShapes (ops : F32Ops) (s : Sizes) (w : LlamaWeights Tensor) : Prop where
  shared : SharedShapes ops s w.shared
  embedding : w.embedding.shape = [s.vocabulary, s.embedding]
  layers : ∀ layer ∈ w.layers, LayerShapes s layer
  outputNorm : w.outputNorm.shape = [s.embedding]
  output : w.output.shape = [s.embedding, s.vocabulary]

section Weights

variable {ops : F32Ops} {f16ToF32 : UInt16 → F32} {table : SourceTensorTable}
  {config : LlamaConfig} {vocabulary : UInt64} {s : Sizes} {w : LlamaWeights PlacedTensor}
  {read : PlacedTensor → Tensor}

theorem isNumber_zero : IsNumber ops.ieee F32.zero 0 := by
  have hzero : ops.ieee.ofInt (0 : ℕ) = F32.zero := by
    rw [F32Ops.ofInt_ieee]
    exact (roundNat_eq_zero (by decide)).2 rfl
  exact hzero ▸ isNumber_ofInt ops (by decide)

/-- What is read of a tensor from the source has the shape at its place. -/
theorem FromSource.shape_read {name : String} {expected : List UInt64} {transpose2d : Bool}
    {p : PlacedTensor} {t : Tensor}
    (h : FromSource ops.ieee f16ToF32 table name expected transpose2d p)
    (ht : p.native.load ops.ieee = .ok t) :
    t.shape = (if transpose2d then expected else expected.reverse).map UInt64.toNat :=
  h.shape_eq ▸ TensorLoader.load_shape ht

/-- A vector of numbers, read back. -/
theorem IsConstant.data_read {name : String} {shape : List UInt64} {numbers : List F32}
    {p : PlacedTensor} {t : Tensor} (h : IsConstant name shape numbers p)
    (hrank : shape.length ≤ 2) (hne : ∀ d ∈ shape, d ≠ 0)
    (hprod : (shape.map UInt64.toNat).prod = numbers.length) (hlt : numbers.length < 2 ^ 48)
    (ht : p.native.load ops.ieee = .ok t) :
    t.shape = shape.map UInt64.toNat ∧ t.data = numbers := by
  obtain ⟨hplain, hnumbers⟩ := h.plain hrank hne hprod hlt
  obtain ⟨u, hu, hshape, hdata⟩ := hplain.load ops.ieee
  obtain rfl := Except.ok.inj (ht.symm.trans hu)
  exact ⟨h.shape_eq ▸ hshape, hdata.trans hnumbers⟩

theorem LlamaConfig.Has.kvWidth (hs : config.Has vocabulary s)
    (hlt : config.headDim.toNat * config.headCountKv.toNat < 2 ^ 32) :
    config.kvWidth.toNat = s.kvWidth := by
  rw [LlamaConfig.kvWidth, UInt32.toNat_ofNat_of_lt' hlt, hs.headDim, hs.kvHeads, Nat.mul_comm]
  rfl

/-- **The tensors of a layer have their shapes.** -/
theorem LayerFromSource.shapes {layer : ℕ} {weights : LayerWeights PlacedTensor}
    (h : LayerFromSource ops.ieee f16ToF32 table config config.kvWidth layer weights)
    (hs : config.Has vocabulary s)
    (hlt : config.headDim.toNat * config.headCountKv.toNat < 2 ^ 32)
    (hread : ∀ p ∈ weights.toList, p.native.load ops.ieee = .ok (read p)) :
    LayerShapes s (weights.map read) := by
  simp only [LayerWeights.toList, List.forall_mem_cons] at hread
  obtain ⟨h₁, h₂, h₃, h₄, h₅, h₆, h₇, h₈, h₉, -⟩ := hread
  have hkv := hs.kvWidth hlt
  refine ⟨(h.attnNorm.shape_read h₁).trans ?_, (h.q.shape_read h₂).trans ?_,
    (h.k.shape_read h₃).trans ?_, (h.v.shape_read h₄).trans ?_,
    (h.attnOutput.shape_read h₅).trans ?_, (h.ffnNorm.shape_read h₆).trans ?_,
    (h.ffnGate.shape_read h₇).trans ?_, (h.ffnUp.shape_read h₈).trans ?_,
    (h.ffnDown.shape_read h₉).trans ?_⟩ <;>
  simp [hs.embedding, hs.feedForward, hkv]

theorem WeightsFromSource.sharedShapes
    (hw : WeightsFromSource ops.ieee f16ToF32 table config vocabulary w)
    (hchecked : config.Checked ops.ieee) (hs : config.Has vocabulary s)
    (hread : ∀ p ∈ w.shared.toList, p.native.load ops.ieee = .ok (read p)) :
    SharedShapes ops.ieee s (w.shared.map read) := by
  simp only [SharedConstants.toList, List.forall_mem_cons] at hread
  obtain ⟨hepsilon, hquery, hkv, hflatten, -⟩ := hread
  have hheads : s.heads < 2 ^ 24 := s.heads_le.trans_lt s.embedding_lt
  have hkvHeads : s.kvHeads < 2 ^ 24 := s.kvHeads_le.trans_lt hheads
  have hheadDim : s.headDim < 2 ^ 24 := s.headDim_le.trans_lt s.embedding_lt
  obtain ⟨sepsilon, depsilon⟩ := hw.epsilon.data_read (by simp) (by simp) rfl (by simp) hepsilon
  obtain ⟨squery, dquery⟩ := hw.queryShape.data_read (by simp) (by simp) rfl (by simp) hquery
  obtain ⟨skv, dkv⟩ := hw.kvShape.data_read (by simp) (by simp) rfl (by simp) hkv
  obtain ⟨sflatten, dflatten⟩ :=
    hw.flattenShape.data_read (by simp) (by simp) rfl (by simp) hflatten
  rw [hs.heads, hs.headDim] at dquery
  rw [hs.kvHeads, hs.headDim] at dkv
  rw [hs.embedding] at dflatten
  have hvalue : (read w.shared.epsilon).get 0 = config.rmsEpsilon := by
    rw [Tensor.get, depsilon]
    rfl
  exact {
    epsilon := ⟨sepsilon, hvalue ▸ hchecked.finite, hvalue ▸ hchecked.positive⟩
    queryShape := ⟨congrArg List.length squery, _, _, dquery, isNumber_zero,
      .cons (isNumber_ofInt ops hheads) (.cons (isNumber_ofInt ops hheadDim) .nil)⟩
    kvShape := ⟨congrArg List.length skv, _, _, dkv, isNumber_zero,
      .cons (isNumber_ofInt ops hkvHeads) (.cons (isNumber_ofInt ops hheadDim) .nil)⟩
    flattenShape := ⟨congrArg List.length sflatten, _, _, dflatten, isNumber_zero,
      .cons (isNumber_ofInt ops s.embedding_lt) .nil⟩ }

/-- **The tensors of a model have their shapes**, as they are loaded. -/
theorem WeightsFromSource.shapes
    (hw : WeightsFromSource ops.ieee f16ToF32 table config vocabulary w)
    (hchecked : config.Checked ops.ieee) (hs : config.Has vocabulary s)
    (hread : ∀ p ∈ w.toList, p.native.load ops.ieee = .ok (read p)) :
    WeightShapes ops.ieee s (w.map read) := by
  simp only [LlamaWeights.toList, List.forall_mem_append, List.forall_mem_cons] at hread
  obtain ⟨⟨hshared, hembedding, hlayers⟩, houtputNorm, houtput, -⟩ := hread
  refine ⟨hw.sharedShapes hchecked hs hshared, ?_, fun layer hlayer => ?_, ?_, ?_⟩
  · refine (hw.embedding.shape_read hembedding).trans ?_
    simp [hs.embedding, hs.vocabulary]
  · obtain ⟨weights, hmem, rfl⟩ := List.mem_map.1 hlayer
    obtain ⟨i, hi⟩ := List.getElem?_of_mem hmem
    exact (hw.layers i weights hi).shapes hs hw.kvWidth_lt fun p hp =>
      hlayers p (List.mem_flatMap.2 ⟨weights, hmem, hp⟩)
  · refine (hw.outputNorm.shape_read houtputNorm).trans ?_
    simp [hs.embedding]
  · refine (hw.output.shape_read houtput).trans ?_
    simp [hs.embedding, hs.vocabulary]

/-! ## Every tensor loads -/

theorem FromSource.plain_vector {name : String} {d : UInt64} {p : PlacedTensor}
    (h : FromSource ops.ieee f16ToF32 table name [d] false p) (hd : d ≠ 0)
    (hlt : d.toNat < 2 ^ 24) : Plain p :=
  h.plain (by simp) (by simp) (by simpa using hd) (by
    rw [List.map_singleton, List.prod_singleton]
    omega)

theorem FromSource.plain_matrix {name : String} {d e : UInt64} {transpose2d : Bool}
    {p : PlacedTensor} (h : FromSource ops.ieee f16ToF32 table name [d, e] transpose2d p)
    (hd : d ≠ 0) (he : e ≠ 0) (hdlt : d.toNat < 2 ^ 24) (helt : e.toNat < 2 ^ 24) : Plain p :=
  h.plain (by simp) (by simp) (by simp [hd, he]) (by
    rw [List.map_cons, List.map_singleton, List.prod_pair]
    exact (Nat.mul_lt_mul'' hdlt helt).trans_le (by norm_num))

/-- A dimension of a model: there is one, and it is a number of single precision. -/
def IsDimension (d : UInt64) : Prop := d ≠ 0 ∧ d.toNat < 2 ^ 24

theorem IsDimension.of_eq {d : UInt64} {n : ℕ} (h : d.toNat = n) (hne : n ≠ 0) (hlt : n < 2 ^ 24) :
    IsDimension d := by
  subst h
  refine ⟨?_, hlt⟩
  rintro rfl
  exact hne rfl

theorem LayerFromSource.plain {layer : ℕ} {weights : LayerWeights PlacedTensor}
    (h : LayerFromSource ops.ieee f16ToF32 table config config.kvWidth layer weights)
    (hembedding : IsDimension config.embeddingLength.toUInt64)
    (hfeedForward : IsDimension config.feedForwardLength.toUInt64)
    (hkv : IsDimension config.kvWidth.toUInt64) : ∀ p ∈ weights.toList, Plain p := by
  obtain ⟨hne, hlt⟩ := hembedding
  obtain ⟨hfne, hflt⟩ := hfeedForward
  obtain ⟨hkne, hklt⟩ := hkv
  simp only [LayerWeights.toList, List.forall_mem_cons]
  exact ⟨h.attnNorm.plain_vector hne hlt, h.q.plain_matrix hne hne hlt hlt,
    h.k.plain_matrix hne hkne hlt hklt, h.v.plain_matrix hne hkne hlt hklt,
    h.attnOutput.plain_matrix hne hne hlt hlt, h.ffnNorm.plain_vector hne hlt,
    h.ffnGate.plain_matrix hne hfne hlt hflt, h.ffnUp.plain_matrix hne hfne hlt hflt,
    h.ffnDown.plain_matrix hfne hne hflt hlt, fun _ h => absurd h List.not_mem_nil⟩

/-- **Every tensor of a lowered model is loaded.** -/
theorem WeightsFromSource.plain
    (hw : WeightsFromSource ops.ieee f16ToF32 table config vocabulary w)
    (hs : config.Has vocabulary s) : ∀ p ∈ w.toList, Plain p := by
  have hembedding : IsDimension config.embeddingLength.toUInt64 :=
    .of_eq hs.embedding s.embedding_ne s.embedding_lt
  have hfeedForward : IsDimension config.feedForwardLength.toUInt64 :=
    .of_eq hs.feedForward s.feedForward_ne s.feedForward_lt
  have hvocabulary : IsDimension vocabulary :=
    .of_eq hs.vocabulary s.vocabulary_ne s.vocabulary_lt
  have hkv : IsDimension config.kvWidth.toUInt64 :=
    .of_eq (hs.kvWidth hw.kvWidth_lt) s.kvWidth_ne (s.kvWidth_le.trans_lt s.embedding_lt)
  simp only [LlamaWeights.toList, SharedConstants.toList, List.forall_mem_append,
    List.forall_mem_cons, List.forall_mem_flatMap]
  refine ⟨⟨⟨(hw.epsilon.plain ?_ ?_ ?_ ?_).1, (hw.queryShape.plain ?_ ?_ ?_ ?_).1,
    (hw.kvShape.plain ?_ ?_ ?_ ?_).1, (hw.flattenShape.plain ?_ ?_ ?_ ?_).1,
      fun _ h => absurd h List.not_mem_nil⟩,
    hw.embedding.plain_matrix hembedding.1 hvocabulary.1 hembedding.2 hvocabulary.2,
    fun weights hmem => ?_⟩, hw.outputNorm.plain_vector hembedding.1 hembedding.2,
    hw.output.plain_matrix hembedding.1 hvocabulary.1 hembedding.2 hvocabulary.2,
    fun _ h => absurd h List.not_mem_nil⟩
  case refine_17 =>
    obtain ⟨i, hi⟩ := List.getElem?_of_mem hmem
    exact (hw.layers i weights hi).plain hembedding hfeedForward hkv
  all_goals simp

end Weights

end NTD97
