import Mathlib
import NTD97.Gguf.Weights

/-!
# Gguf/Executes — a lowered model runs on every prompt

    n tokens ──embed──▸ [n, e] ──layer──▸ [n, e] ──…──▸ [n, e] ──project──▸ [n, v]

The dimensions that the configuration has checked are those that the kernels ask for.  What it does
not check is that the width of a head is even, which the rotation needs.
-/

namespace NTD97

open Guard Wire Slices Kernel GraphExecutor

/-! ## The forward pass on these shapes -/

section Forward

variable {ops : F32Ops} {s : Sizes} {n : ℕ}

theorem stage_of_kernel {op : TensorOp} {inputs : List Tensor} {rank : UInt8} {t : Tensor}
    {shape : List ℕ} (hkernel : kernelOf ops op inputs = .ok t) (hshape : t.shape = shape)
    (hrank : shape.length = rank.toNat) :
    stage (cpuReferenceProvider ops) op inputs rank = .ok t :=
  stage_kernel.2 ⟨hkernel, by rw [Tensor.rank, hshape, hrank]⟩

/-- A result of so many rows is not too large. -/
theorem rows_lt {d : ℕ} (hn : n < 2 ^ 40) (hd : d < 2 ^ 24) : n * d < 2 ^ 64 :=
  (Nat.mul_lt_mul'' hn hd).trans_le (by norm_num)

/-- **A layer answers**, with the shape that came in. -/
theorem typed_forwardLayer {shared : SharedConstants Tensor} {w : LayerWeights Tensor}
    {positions hidden : Tensor} (hshared : SharedShapes ops s shared) (hw : LayerShapes s w)
    (heven : s.headDim % 2 = 0) (hn : n ≠ 0) (hlt : n < 2 ^ 40) (hpositions : positions.shape = [n])
    (hindex : ∀ index < n, IsIndex ops (positions.get index))
    (hhidden : hidden.shape = [n, s.embedding]) :
    ∃ u, forwardLayer (cpuReferenceProvider ops) shared positions hidden w = .ok u ∧
      u.shape = [n, s.embedding] := by
  have hkv : s.kvWidth < 2 ^ 24 := s.kvWidth_le.trans_lt s.embedding_lt
  obtain ⟨zq, rq, hdq, hzq, hrq⟩ := hshared.queryShape.data
  obtain ⟨zk, rk, hdk, hzk, hrk⟩ := hshared.kvShape.data
  obtain ⟨zf, rf, hdf, hzf, hrf⟩ := hshared.flattenShape.data
  have hquery : [s.embedding].prod = [s.heads, s.headDim].prod := by
    rw [List.prod_singleton, List.prod_pair, s.heads_mul]
  have hvalue : [s.kvWidth].prod = [s.kvHeads, s.headDim].prod := by
    rw [List.prod_singleton, List.prod_pair, Sizes.kvWidth]
  have hheadsne : ∀ d ∈ [s.heads, s.headDim], d ≠ 0 := by simp [s.heads_ne, s.headDim_ne]
  have hkvne : ∀ d ∈ [s.kvHeads, s.headDim], d ≠ 0 := by simp [s.kvHeads_ne, s.headDim_ne]
  obtain ⟨normed, hnormed, snormed⟩ :=
    typed_rmsNorm hhidden s.embedding_ne hw.attnNorm hshared.epsilon
  obtain ⟨q, hq, sq⟩ := typed_matmul snormed hw.q hn s.embedding_ne (rows_lt hlt s.embedding_lt)
  obtain ⟨k, hk, sk⟩ := typed_matmul snormed hw.k hn s.kvWidth_ne (rows_lt hlt hkv)
  obtain ⟨v, hv, sv⟩ := typed_matmul snormed hw.v hn s.kvWidth_ne (rows_lt hlt hkv)
  obtain ⟨qh, hqh, sqh⟩ := typed_reshape sq hshared.queryShape.rank hdq hzq hrq hn hheadsne hquery
  obtain ⟨kh, hkh, skh⟩ := typed_reshape sk hshared.kvShape.rank hdk hzk hrk hn hkvne hvalue
  obtain ⟨vh, hvh, svh⟩ := typed_reshape sv hshared.kvShape.rank hdk hzk hrk hn hkvne hvalue
  obtain ⟨qr, hqr, sqr⟩ := typed_rotaryPosition sqh hpositions s.headDim_ne heven hindex
  obtain ⟨kr, hkr, skr⟩ := typed_rotaryPosition skh hpositions s.headDim_ne heven hindex
  obtain ⟨heads, hheads, sheads⟩ := typed_causalAttention sqr skr svh s.headDim_ne s.kvHeads_ne
    s.heads_ne s.groups
  obtain ⟨flat, hflat, sflat⟩ := typed_reshape sheads hshared.flattenShape.rank hdf hzf hrf hn
    (by simp [s.embedding_ne]) hquery.symm
  obtain ⟨attention, hattention, sattention⟩ := typed_matmul sflat hw.attnOutput hn s.embedding_ne
    (rows_lt hlt s.embedding_lt)
  obtain ⟨residual, hresidual, sresidual⟩ :=
    typed_elementwise ops.add (hhidden.trans sattention.symm)
  have sresidual := sresidual.trans hhidden
  obtain ⟨ffnInput, hffnInput, sffnInput⟩ :=
    typed_rmsNorm sresidual s.embedding_ne hw.ffnNorm hshared.epsilon
  obtain ⟨gate, hgate, sgate⟩ := typed_matmul sffnInput hw.ffnGate hn s.feedForward_ne
    (rows_lt hlt s.feedForward_lt)
  obtain ⟨act, hact, sact⟩ := typed_silu ops gate
  have sact := sact.trans sgate
  obtain ⟨up, hup, sup⟩ := typed_matmul sffnInput hw.ffnUp hn s.feedForward_ne
    (rows_lt hlt s.feedForward_lt)
  obtain ⟨gated, hgated, sgated⟩ := typed_elementwise ops.mul (sact.trans sup.symm)
  have sgated := sgated.trans sact
  obtain ⟨down, hdown, sdown⟩ := typed_matmul sgated hw.ffnDown hn s.embedding_ne
    (rows_lt hlt s.embedding_lt)
  obtain ⟨u, hu, su⟩ := typed_elementwise ops.add (sresidual.trans sdown.symm)
  have su := su.trans sresidual
  refine ⟨u, ?_, su⟩
  simp only [forwardLayer, bind_eq_ok]
  exact ⟨normed, stage_of_kernel hnormed snormed rfl, q, stage_of_kernel hq sq rfl,
    k, stage_of_kernel hk sk rfl, v, stage_of_kernel hv sv rfl, qh, stage_of_kernel hqh sqh rfl,
    kh, stage_of_kernel hkh skh rfl, vh, stage_of_kernel hvh svh rfl,
    qr, stage_of_kernel hqr sqr rfl, kr, stage_of_kernel hkr skr rfl,
    heads, stage_of_kernel hheads sheads rfl, flat, stage_of_kernel hflat sflat rfl,
    attention, stage_of_kernel hattention sattention rfl,
    residual, stage_of_kernel hresidual sresidual rfl,
    ffnInput, stage_of_kernel hffnInput sffnInput rfl, gate, stage_of_kernel hgate sgate rfl,
    act, stage_of_kernel hact sact rfl, up, stage_of_kernel hup sup rfl,
    gated, stage_of_kernel hgated sgated rfl, down, stage_of_kernel hdown sdown rfl,
    stage_of_kernel hu su rfl⟩

theorem typed_layers {shared : SharedConstants Tensor} {positions : Tensor}
    (hshared : SharedShapes ops s shared) (heven : s.headDim % 2 = 0) (hn : n ≠ 0) (hlt : n < 2 ^ 40)
    (hpositions : positions.shape = [n])
    (hindex : ∀ index < n, IsIndex ops (positions.get index)) :
    ∀ {layers : List (LayerWeights Tensor)} {hidden : Tensor},
      (∀ w ∈ layers, LayerShapes s w) → hidden.shape = [n, s.embedding] →
        ∃ u, layers.foldlM (forwardLayer (cpuReferenceProvider ops) shared positions) hidden =
          .ok u ∧ u.shape = [n, s.embedding]
  | [], hidden, _, hhidden => ⟨hidden, rfl, hhidden⟩
  | w :: layers, hidden, hlayers, hhidden => by
      obtain ⟨hw, hlayers⟩ := List.forall_mem_cons.1 hlayers
      obtain ⟨next, hnext, snext⟩ :=
        typed_forwardLayer hshared hw heven hn hlt hpositions hindex hhidden
      obtain ⟨u, hu, su⟩ := typed_layers hshared heven hn hlt hpositions hindex hlayers snext
      exact ⟨u, bind_eq_ok.2 ⟨next, hnext, hu⟩, su⟩

/-- **The forward pass answers** on every row of tokens of the vocabulary. -/
theorem typed_forward {w : LlamaWeights Tensor} {tokens : Tensor}
    (hw : WeightShapes ops.ieee s w) (heven : s.headDim % 2 = 0) (hn : n ≠ 0) (hlt : n < 2 ^ 40) (htokens : tokens.shape = [n])
    (hrows : ∀ index ∈ tokens.data, IsRow ops.ieee s.vocabulary index) :
    ∃ u, forward (cpuReferenceProvider ops.ieee) w tokens = .ok u ∧
      u.shape = [n, s.vocabulary] := by
  obtain ⟨positions, hpositions, spositions, hdata⟩ := typed_positionIds ops.ieee htokens
  have hindex (index : ℕ) (h : index < n) : IsIndex ops.ieee (positions.get index) := by
    have hget : positions.get index = ops.ieee.ofInt index := by
      rw [Tensor.get, hdata, List.getD_eq_getElem _ _ (by simpa using h), List.getElem_map,
        List.getElem_range]
    rw [hget]
    exact isIndex_ofInt ops (by omega)
  obtain ⟨hidden, hhidden, shidden⟩ := typed_gather hw.embedding htokens hrows hn s.embedding_ne
    (rows_lt hlt s.embedding_lt)
  obtain ⟨last, hlast, slast⟩ := typed_layers hw.shared heven hn hlt spositions hindex hw.layers shidden
  obtain ⟨normed, hnormed, snormed⟩ :=
    typed_rmsNorm slast s.embedding_ne hw.outputNorm hw.shared.epsilon
  obtain ⟨u, hu, su⟩ := typed_matmul snormed hw.output hn s.vocabulary_ne
    (rows_lt hlt s.vocabulary_lt)
  refine ⟨u, ?_, su⟩
  simp only [forward, bind_eq_ok]
  exact ⟨positions, stage_of_kernel hpositions spositions rfl,
    hidden, stage_of_kernel hhidden shidden rfl, last, hlast,
    normed, stage_of_kernel hnormed snormed rfl, stage_of_kernel hu su rfl⟩

/-! ## The width of a head -/

/-- **A layer turns its heads in pairs**: where it answers, their width is even. -/
theorem even_of_forwardLayer {shared : SharedConstants Tensor} {w : LayerWeights Tensor}
    {positions hidden u : Tensor} (hshared : SharedShapes ops s shared) (hw : LayerShapes s w)
    (hn : n ≠ 0) (hlt : n < 2 ^ 40) (hhidden : hidden.shape = [n, s.embedding])
    (h : forwardLayer (cpuReferenceProvider ops) shared positions hidden w = .ok u) :
    s.headDim % 2 = 0 := by
  simp only [forwardLayer, bind_eq_ok, stage_kernel, kernelOf] at h
  obtain ⟨normed, ⟨hnormed, -⟩, q, ⟨hq, -⟩, _, -, _, -, qh, ⟨hqh, -⟩, _, -, _, -, qr, ⟨hqr, -⟩, -⟩ := h
  obtain ⟨_, hnormed', snormed⟩ :=
    typed_rmsNorm hhidden s.embedding_ne hw.attnNorm hshared.epsilon
  obtain rfl := Except.ok.inj (hnormed.symm.trans hnormed')
  obtain ⟨_, hq', sq⟩ := typed_matmul snormed hw.q hn s.embedding_ne (rows_lt hlt s.embedding_lt)
  obtain rfl := Except.ok.inj (hq.symm.trans hq')
  obtain ⟨zero, raws, hdata, hzero, hraws⟩ := hshared.queryShape.data
  obtain ⟨_, hqh', sqh⟩ := typed_reshape sq hshared.queryShape.rank hdata hzero hraws hn
    (by simp [s.heads_ne, s.headDim_ne]) (by rw [List.prod_singleton, List.prod_pair, s.heads_mul])
  obtain rfl := Except.ok.inj (hqh.symm.trans hqh')
  obtain ⟨_, _, _, hshape, -, -, heven, -⟩ := rotaryPosition_eq_ok.1 hqr
  cases sqh.symm.trans hshape
  exact heven

/-- **The forward pass answers only where the width of a head is even.** -/
theorem even_of_forward {w : LlamaWeights Tensor} {tokens u : Tensor}
    (hw : WeightShapes ops s w) (hlayers : w.layers ≠ []) (hn : n ≠ 0) (hlt : n < 2 ^ 40)
    (htokens : tokens.shape = [n])
    (h : forward (cpuReferenceProvider ops) w tokens = .ok u) : s.headDim % 2 = 0 := by
  simp only [forward, bind_eq_ok, stage_kernel, kernelOf] at h
  obtain ⟨positions, -, hidden, ⟨hhidden, -⟩, last, hlast, -⟩ := h
  obtain ⟨_, _, _, htable, hids, -, shidden, -⟩ := gather_eq_ok.1 hhidden
  cases hw.embedding.symm.trans htable
  cases htokens.symm.trans hids
  obtain ⟨layer, layers, heq⟩ := List.exists_cons_of_ne_nil hlayers
  rw [heq, List.foldlM_cons, bind_eq_ok] at hlast
  obtain ⟨_, hlayer, -⟩ := hlast
  exact even_of_forwardLayer hw.shared (hw.layers layer (heq ▸ List.mem_cons_self)) hn hlt shidden
    hlayer

end Forward

/-! ## Execution -/

section Execution

variable {ops : F32Ops} {f16ToF32 : UInt16 → F32} {table : SourceTensorTable}
  {config : LlamaConfig} {vocabulary : UInt64} {s : Sizes} {graph : Graph} {tokenInput : ValueId}
  {w : LlamaWeights PlacedTensor} {ids : List UInt32} {inputs : Values}

/-- A token of the vocabulary is a row of its table. -/
theorem isRow_ofInt (ops : F32Ops) {id rows : ℕ} (hid : id < rows) (hrows : rows < 2 ^ 24) :
    IsRow ops.ieee rows (ops.ieee.ofInt id) := by
  have hnumber := isNumber_ofInt ops (hid.trans hrows)
  exact ⟨hnumber.toIsIndex, hnumber.whole, hnumber.value.symm ▸ hid⟩

/-- The token input is given these ids. -/
def GivesTokens (ops : F32Ops) (tokenInput : ValueId) (ids : List UInt32) (inputs : Values) : Prop :=
  ∃ tokens, inputs[tokenInput.val]? = some tokens ∧ tokens.shape = [ids.length] ∧
    tokens.data = ids.map fun id => ops.ofInt id.toNat

/-- A tensor is given as the loader makes it. -/
def GivesTensor (ops : F32Ops) (inputs : Values) (native : NativeTensor) : Prop :=
  ∃ value tensor, native.graphValue = some value ∧ native.load ops = .ok tensor ∧
    inputs[value.val]? = some tensor

theorem assigned_of_getElem? {id : UInt32} {t : Tensor} (h : inputs[id]? = some t) :
    assigned inputs id = t := by rw [assigned, h, Option.getD_some]

theorem GivesTensor.load_read {p : PlacedTensor} (h : GivesTensor ops inputs p.native) :
    p.value.val ∈ inputs ∧ p.native.load ops = .ok (p.read (assigned inputs)) := by
  obtain ⟨value, t, hvalue, hload, ht⟩ := h
  obtain rfl := Option.some.inj hvalue
  refine ⟨Std.ExtTreeMap.mem_iff_isSome_getElem?.2 (ht ▸ rfl), ?_⟩
  rw [PlacedTensor.read, assigned_of_getElem? ht]
  exact hload

/-- What the loader makes of a tensor, if anything. -/
def loaded (ops : F32Ops) (p : PlacedTensor) : Tensor :=
  (p.native.load ops).toOption.getD (.scalar F32.zero)

/-- A row of numbers for ids. -/
theorem exists_tokens (ops : F32Ops) (hne : ids ≠ []) (hlt : ids.length < 2 ^ 40) :
    ∃ tokens : Tensor, tokens.shape = [ids.length] ∧
      tokens.data = ids.map fun id => ops.ofInt id.toNat :=
  exists_tensor (by simpa using hne) (by rw [List.prod_singleton]; omega)
    (by rw [List.length_map, List.prod_singleton])

/-- **The tensors of a graph that is valid can be given all at once.** -/
theorem exists_weights (ops : F32Ops) (hnodup : (declared graph.inputs).Nodup)
    (hinputs : graph.inputs = ⟨tokenInput, .tensor .i32 1⟩ :: w.toList.map PlacedTensor.decl)
    (hplain : ∀ p ∈ w.toList, Plain p) :
    ∃ weights : Values, ∀ p ∈ w.toList, GivesTensor ops weights p.native ∧
      ∀ tokens, GivesTensor ops (weights.insert tokenInput.val tokens) p.native := by
  rw [hinputs, declared, List.map_cons, List.map_map, List.nodup_cons] at hnodup
  obtain ⟨htoken, hnodup⟩ := hnodup
  refine ⟨w.toList.foldl (fun (values : Values) p => values.insert p.value.val (loaded ops p)) ∅,
    fun p hp => ?_⟩
  obtain ⟨t, ht, -⟩ := (hplain p hp).load ops
  have hfound : (w.toList.foldl (fun (values : Values) p =>
      values.insert p.value.val (loaded ops p)) ∅)[p.value.val]? = some (loaded ops p) :=
    Gpt2BpeTokenizer.getElem?_foldl_insert hnodup (.inl hp)
  have hother : tokenInput.val ≠ p.value.val := fun heq =>
    htoken (List.mem_map.2 ⟨p, hp, heq.symm⟩)
  rw [loaded, ht] at hfound
  refine ⟨⟨p.value, t, rfl, ht, hfound⟩, fun tokens => ⟨p.value, t, rfl, ht, ?_⟩⟩
  rw [Std.ExtTreeMap.getElem?_insert, if_neg (mt Std.compare_eq_iff_eq.1 hother)]
  exact hfound

/-- **A graph that runs the forward pass executes on every prompt, exactly if the width of a head is
even**, and answers a row of logits for each token. -/
theorem RunsForward.executes_iff (h : RunsForward graph tokenInput w) (resolver : TensorResolver)
    (hinputs : graph.inputs = ⟨tokenInput, .tensor .i32 1⟩ :: w.toList.map PlacedTensor.decl)
    (hw : WeightsFromSource ops.ieee f16ToF32 table config vocabulary w)
    (hchecked : config.Checked ops.ieee) (hs : config.Has vocabulary s) (hne : ids ≠ [])
    (hlt : ids.length < 2 ^ 40) (hids : ∀ id ∈ ids, id.toNat < s.vocabulary)
    (htokens : GivesTokens ops.ieee tokenInput ids inputs)
    (htensors : ∀ p ∈ w.toList, GivesTensor ops.ieee inputs p.native) :
    ((∃ outputs, executeWithResolver (cpuReferenceProvider ops.ieee) graph inputs resolver =
      .ok outputs) ↔ s.headDim % 2 = 0) ∧
    ∀ outputs, executeWithResolver (cpuReferenceProvider ops.ieee) graph inputs resolver =
      .ok outputs → ∃ logits, outputs = [logits] ∧ logits.shape = [ids.length, s.vocabulary] := by
  obtain ⟨tokens, htoken, stokens, dtokens⟩ := htokens
  have hassigned := assigned_of_getElem? htoken
  have hn : ids.length ≠ 0 := mt List.length_eq_zero_iff.1 hne
  have hshapes : WeightShapes ops.ieee s (w.map (PlacedTensor.read (assigned inputs))) :=
    hw.shapes hchecked hs fun p hp => (htensors p hp).load_read.2
  have hgiven : ∀ decl ∈ graph.inputs, decl.id.val ∈ inputs := by
    rw [hinputs, List.forall_mem_cons, List.forall_mem_map]
    exact ⟨Std.ExtTreeMap.mem_iff_isSome_getElem?.2 (htoken ▸ rfl), fun p hp =>
      (htensors p hp).load_read.1⟩
  have hfits : ∀ decl ∈ graph.inputs, GraphExecutor.Fits decl (assigned inputs decl.id.val) := by
    rw [hinputs, List.forall_mem_cons, List.forall_mem_map]
    refine ⟨?_, fun p hp => (hw.plain hs p hp).fits (htensors p hp).load_read.2⟩
    rw [hassigned]
    exact congrArg List.length stokens
  have hrows : ∀ index ∈ tokens.data, IsRow ops.ieee s.vocabulary index := by
    rw [dtokens, List.forall_mem_map]
    exact fun id hid => isRow_ofInt ops (hids id hid) s.vocabulary_lt
  have hlayers : (w.map (PlacedTensor.read (assigned inputs))).layers ≠ [] := by
    intro hnil
    have hzero := hw.length_layers
    rw [List.map_eq_nil_iff.1 hnil] at hzero
    exact hchecked.blocks_ne (UInt32.toNat_inj.1 hzero.symm)
  have htyped (heven : s.headDim % 2 = 0) := typed_forward hshapes heven hn hlt stokens hrows
  have hiff (outputs : List Tensor) := h (cpuReferenceProvider ops.ieee) inputs resolver outputs
    hgiven
  rw [hassigned] at hiff
  have heven {outputs : List Tensor} (hrun : executeWithResolver (cpuReferenceProvider ops.ieee)
      graph inputs resolver = .ok outputs) : s.headDim % 2 = 0 := by
    obtain ⟨-, logits, hforward, -⟩ := (hiff outputs).1 hrun
    exact even_of_forward hshapes hlayers hn hlt stokens hforward
  refine ⟨⟨fun ⟨outputs, hrun⟩ => heven hrun, fun heven => ?_⟩, fun outputs hrun => ?_⟩
  · obtain ⟨logits, hforward, -⟩ := htyped heven
    exact ⟨[logits], (hiff _).2 ⟨hfits, logits, hforward, rfl⟩⟩
  · obtain ⟨logits, hforward, slogits⟩ := htyped (heven hrun)
    obtain ⟨-, logits', hforward', rfl⟩ := (hiff outputs).1 hrun
    obtain rfl := Except.ok.inj (hforward.symm.trans hforward')
    exact ⟨logits, rfl, slogits⟩

end Execution

/-! ## Lowered models -/

/-- What a lowering has checked, of the configuration and of the graph. -/
theorem checks_of_lowered {ops : F32Ops} {f16ToF32 : UInt16 → F32} {source : GgufByteSource}
    {model : GgufModel} {sink : Option TensorShardSink} {parts : LoweredLlamaParts}
    (h : (lowerLlamaModelInternal ops f16ToF32 sink source model).run = some (.ok parts)) :
    parts.config.Checked ops ∧ parts.graph.validate = .ok () := by
  obtain ⟨_, -, h⟩ := run_bind_eq_ok.1 h
  obtain ⟨config, hconfig, h⟩ := run_bind_eq_ok.1 h
  iterate 7 obtain ⟨_, -, h⟩ := run_bind_eq_ok.1 h
  obtain ⟨graph, hfinish, h⟩ := run_bind_eq_ok.1 h
  obtain rfl := Except.ok.inj (Option.some.inj h)
  obtain ⟨_, hvalid, hgraph⟩ := bind_eq_ok.1 (run_liftM_eq_ok.1 hfinish)
  obtain rfl := pure_eq_ok.1 hgraph
  exact ⟨LlamaConfig.checked_of_fromModel (run_liftM_eq_ok.1 hconfig), mapError_eq_ok.1 hvalid⟩

/-- The sizes of what was lowered, where they are small. -/
theorem exists_sizes_of_lowered {ops : F32Ops} {parts : LoweredLlamaParts}
    (h : parts.config.Checked ops) (hembedding : parts.config.embeddingLength.toNat < 2 ^ 24)
    (hfeedForward : parts.config.feedForwardLength.toNat < 2 ^ 24)
    (hvocabulary : parts.vocabularySize < 2 ^ 24) (hne : parts.vocabularySize ≠ 0) :
    ∃ s, parts.config.Has (UInt64.ofNat parts.vocabularySize) s ∧
      s.vocabulary = parts.vocabularySize := by
  have hsize : (UInt64.ofNat parts.vocabularySize).toNat = parts.vocabularySize :=
    UInt64.toNat_ofNat_of_lt' (hvocabulary.trans (by norm_num))
  obtain ⟨s, hs⟩ := h.exists_sizes (UInt64.ofNat parts.vocabularySize)
    (fun h0 => hne (by rw [← hsize, h0]; rfl)) hembedding hfeedForward (hsize.symm ▸ hvocabulary)
  exact ⟨s, hs, hs.vocabulary.symm.trans hsize⟩

/-- **A lowered model executes on every prompt, exactly if the width of its heads is even.**  There
are inputs that give it any tokens of the vocabulary, and its tensors as they are loaded; on these
the executor answers a row of logits for each token, and where the width is odd, it answers
nothing. -/
theorem lowered_executes_iff (ops : F32Ops) (f16ToF32 : UInt16 → F32) (source : GgufByteSource)
    (model : GgufModel) (lowered : LoweredLlamaModel) (ids : List UInt32)
    (hlower : (lowerLlamaModelFromSource ops.ieee f16ToF32 source model).run = some (.ok lowered))
    (hembedding : lowered.config.embeddingLength.toNat < 2 ^ 24)
    (hfeedForward : lowered.config.feedForwardLength.toNat < 2 ^ 24)
    (hvocabulary : lowered.vocabularySize < 2 ^ 24) (hne : ids ≠ []) (hlt : ids.length < 2 ^ 40)
    (hids : ∀ id ∈ ids, id.toNat < lowered.vocabularySize) :
    (∃ inputs, GivesTokens ops.ieee lowered.tokenInput ids inputs ∧
      ∀ native ∈ lowered.tensors, GivesTensor ops.ieee inputs native) ∧
    ∀ inputs resolver, GivesTokens ops.ieee lowered.tokenInput ids inputs →
      (∀ native ∈ lowered.tensors, GivesTensor ops.ieee inputs native) →
      ((∃ outputs, executeWithResolver (cpuReferenceProvider ops.ieee) lowered.graph inputs
        resolver = .ok outputs) ↔ lowered.config.headDim.toNat % 2 = 0) ∧
      ∀ outputs, executeWithResolver (cpuReferenceProvider ops.ieee) lowered.graph inputs
        resolver = .ok outputs →
          ∃ logits, outputs = [logits] ∧ logits.shape = [ids.length, lowered.vocabularySize] := by
  obtain ⟨parts, hparts, rfl⟩ := exists_parts hlower
  obtain ⟨w, hw, hinputs, -, htensors, hruns, -⟩ := lowerLlamaModelInternal_runsForward hparts
  obtain ⟨hchecked, hvalid⟩ := checks_of_lowered hparts
  have hpos : parts.vocabularySize ≠ 0 := by
    obtain ⟨id, hid⟩ := List.exists_mem_of_ne_nil _ hne
    exact Nat.ne_zero_of_lt (hids id hid)
  obtain ⟨s, hs, hvoc⟩ :=
    exists_sizes_of_lowered hchecked hembedding hfeedForward hvocabulary hpos
  have hall {inputs : Values} : (∀ native ∈ parts.tensors, GivesTensor ops.ieee inputs native) ↔
      ∀ p ∈ w.toList, GivesTensor ops.ieee inputs p.native := by
    rw [htensors rfl, List.forall_mem_map]
  refine ⟨?_, fun inputs resolver hgives hgiven => ?_⟩
  · obtain ⟨tokens, htokens⟩ := exists_tokens ops.ieee hne hlt
    obtain ⟨weights, hweights⟩ :=
      exists_weights ops.ieee (inScope_of_validate hvalid).1 hinputs (hw.plain hs)
    exact ⟨weights.insert parts.tokenInput.val tokens,
      ⟨tokens, Std.ExtTreeMap.getElem?_insert_self, htokens⟩,
      hall.2 fun p hp => (hweights p hp).2 tokens⟩
  · have h := hruns.executes_iff resolver hinputs hw hchecked hs hne hlt
      (hvoc.symm ▸ hids) hgives (hall.1 hgiven)
    rwa [hvoc, ← hs.headDim] at h

open ForwardSample in
/-- A prompt of three tokens, on the small model: three rows of logits. -/
theorem lowered_executes_iff_sample : ∃ model lowered inputs logits,
    lowering model = some (.ok lowered) ∧
      GivesTokens F32Ops.words.ieee lowered.tokenInput [0, 0, 0] inputs ∧
      executeWithResolver (cpuReferenceProvider F32Ops.words.ieee) lowered.graph inputs
        emptyTensorResolver = .ok [logits] ∧ logits.shape = [3, 1] := by
  obtain ⟨model, lowered, -, hlowered, hembedding, hfeedForward, hheadDim, hvocabulary⟩ :=
    exists_lowered
  obtain ⟨⟨inputs, hgives, hgiven⟩, hruns⟩ := lowered_executes_iff .words (·.toUInt32)
    (SliceGgufSource.source file) model lowered [0, 0, 0] hlowered (by simp [hembedding])
    (by simp [hfeedForward]) (by simp [hvocabulary]) (by simp) (by simp) (by simp [hvocabulary])
  obtain ⟨hiff, hlogits⟩ := hruns inputs emptyTensorResolver hgives hgiven
  obtain ⟨outputs, hrun⟩ := hiff.2 (by rw [hheadDim]; decide)
  obtain ⟨logits, rfl, hshape⟩ := hlogits outputs hrun
  exact ⟨model, lowered, inputs, logits, hlowered, hgives, hrun, by rw [hshape, hvocabulary]; rfl⟩

end NTD97
