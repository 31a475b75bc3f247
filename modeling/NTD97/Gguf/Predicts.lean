import Mathlib
import NTD97.Gguf.Decoded
import NTD97.Gguf.Lower
import NTD97.Gguf.Plan
import NTD97.Gguf.Reader
import NTD97.Gpt2.Built

/-!
# Gguf/Predicts — a model that is lowered has no blocker but the one of every model

    lowered ──▸ every tensor consumed ──▸ its type transcoded ──▸ no unsupported type in the plan

The plan and the lowering look at a model each in its own way.  What carries over is an invariant of
the lowering: a name is consumed only after the tensor of that name has been transcoded.
-/

namespace NTD97

open Guard Wire Slices

/-! ## Invariants of a lowering -/

/-- Every run of `x` that answers keeps `I`. -/
def Preserves {α : Type} (I : Lowering → Prop) (x : Lower α) : Prop :=
  ∀ s, I s → ∀ a s', (x.run s).run = some (.ok (a, s')) → I s'

namespace Preserves

variable {α β γ : Type} {I : Lowering → Prop} {x : Lower α}

theorem pure (a : α) : Preserves I (pure a : Lower α) := by
  intro s hs b s' h
  obtain ⟨-, rfl⟩ := Prod.mk.inj (Except.ok.inj (Option.some.inj h))
  exact hs

theorem bind {f : α → Lower β} (hx : Preserves I x) (hf : ∀ a, Preserves I (f a)) :
    Preserves I (x >>= f) := by
  intro s hs b s' h
  rw [StateT.run_bind] at h
  obtain ⟨⟨a, t⟩, hxa, hfb⟩ := run_bind_eq_ok.1 h
  exact hf a t (hx s hs a t hxa) b s' hfb

/-- What does not touch the state. -/
theorem lift (y : Code GgufError α) : Preserves I (liftM y : Lower α) := by
  intro s hs b s' h
  obtain ⟨a, -, ha⟩ := run_bind_eq_ok.1 h
  obtain ⟨-, rfl⟩ := Prod.mk.inj (Except.ok.inj (Option.some.inj ha))
  exact hs

/-- What does not touch the state, with what is known of its answer. -/
theorem lift_bind {y : Code GgufError α} {f : α → Lower β}
    (hf : ∀ a, y.run = some (.ok a) → Preserves I (f a)) : Preserves I (liftM y >>= f) := by
  intro s hs b s' h
  obtain ⟨⟨a, t⟩, hlift, hfb⟩ := run_bind_eq_ok.1 h
  obtain ⟨a', ha', ht⟩ := run_bind_eq_ok.1 hlift
  obtain ⟨rfl, rfl⟩ := Prod.mk.inj (Except.ok.inj (Option.some.inj ht))
  exact hf a' ha' s hs b s' hfb

theorem modify {f : Lowering → Lowering} (hf : ∀ s, I s → I (f s)) :
    Preserves I (modify f : Lower PUnit) := by
  intro s hs b s' h
  obtain ⟨-, rfl⟩ := Prod.mk.inj (Except.ok.inj (Option.some.inj h))
  exact hf s hs

/-- The builder may change, if the invariant is about what is consumed. -/
theorem build {P : Std.ExtTreeSet String → Prop} (y : GraphBuilder.Building α) :
    Preserves (fun s => P s.consumed) (build y) := by
  intro s hs b s' h
  obtain ⟨⟨value, builder⟩, -, h⟩ := run_bind_eq_ok.1 h
  obtain ⟨-, rfl⟩ := Prod.mk.inj (Except.ok.inj (Option.some.inj h))
  exact hs

theorem foldlM {f : β → γ → Lower β} (h : ∀ b a, Preserves I (f b a)) :
    ∀ (l : List γ) (b : β), Preserves I (l.foldlM f b)
  | [], b => pure b
  | a :: l, b => by
      rw [List.foldlM_cons]
      exact (h b a).bind fun b' => foldlM h l b'

end Preserves

/-! ## What is consumed -/

section Consumed

variable {ops : F32Ops} {f16ToF32 : UInt16 → F32} {sink : Option TensorShardSink}
  {table : SourceTensorTable}

/-- The tensors of these names are of types that are transcoded. -/
def Supported (table : SourceTensorTable) (names : Std.ExtTreeSet String) : Prop :=
  ∀ name ∈ names, ∃ tensor, table.tensors[name]? = some tensor ∧
    (tensorDisposition tensor.ggmlType).unsupportedType = none

/-- A type that has a format is not an unsupported one. -/
theorem unsupportedType_eq_none {code : UInt32} {format : Ggml.Format}
    (h : Ggml.Format.ofCode code.toNat = some format) :
    (tensorDisposition code).unsupportedType = none := by
  unfold tensorDisposition
  split
  case h_9 =>
    unfold Ggml.Format.ofCode at h
    split at h <;> simp_all [← UInt32.toNat_inj]
  all_goals rfl

theorem unsupportedType_of_transcoded {source : GgufByteSource} {model : GgufModel}
    {tensor : GgufTensorInfo} {transpose2d : Bool} {native : TranscodedTensor}
    (h : (transcodeTensorFromSource ops f16ToF32 source model tensor transpose2d).run =
      some (.ok native)) : (tensorDisposition tensor.ggmlType).unsupportedType = none := by
  obtain ⟨format, bytes, hstored, -⟩ := safe_transcodeTensorFromSource.of_answer h
  exact unsupportedType_eq_none hstored.format_eq

/-- **A name is consumed after its tensor has been transcoded.** -/
theorem preserves_add {name : String} {expected : List UInt64} {transpose2d : Bool} :
    Preserves (fun s => Supported table s.consumed)
      (table.add ops f16ToF32 sink name expected transpose2d) := by
  refine Preserves.lift_bind fun tensor htensor => (Preserves.lift _).bind fun _ => ?_
  refine Preserves.lift_bind fun native hnative => ?_
  refine (Preserves.modify ?_).bind fun _ => Preserves.build _
  intro s hs name' hname'
  rcases Std.ExtTreeSet.mem_insert.1 hname' with heq | hmem
  · obtain rfl := Std.LawfulEqCmp.compare_eq_iff_eq.1 heq
    exact ⟨tensor, run_okOr_eq_ok.1 htensor, unsupportedType_of_transcoded hnative⟩
  · exact hs name' hmem

theorem preserves_node {op : TensorOp} {inputs : List ValueId} {rank : UInt8} :
    Preserves (fun s => Supported table s.consumed) (node op inputs rank) := Preserves.build _

theorem preserves_lowerLayer {config : LlamaConfig} {kvWidth : UInt32} {values : LayerValues}
    (hidden : ValueId) (layer : ℕ) :
    Preserves (fun s => Supported table s.consumed)
      (lowerLayer ops f16ToF32 sink table config kvWidth values hidden layer) := by
  unfold lowerLayer
  iterate 9 refine preserves_add.bind fun _ => ?_
  iterate 19 refine preserves_node.bind fun _ => ?_
  exact preserves_node

theorem preserves_lowerGraph {config : LlamaConfig} {vocabulary : UInt64} :
    Preserves (fun s => Supported table s.consumed)
      (lowerGraph ops f16ToF32 sink table config vocabulary) := by
  unfold lowerGraph
  iterate 6 refine (Preserves.build _).bind fun _ => ?_
  refine preserves_add.bind fun _ => preserves_node.bind fun _ => ?_
  refine (Preserves.lift _).bind fun _ => ?_
  refine (Preserves.foldlM preserves_lowerLayer _ _).bind fun _ => ?_
  refine preserves_add.bind fun _ => preserves_node.bind fun _ => preserves_add.bind fun _ => ?_
  exact preserves_node.bind fun _ => Preserves.pure _

end Consumed

/-! ## Tensors of a parsed model -/

/-- A parsed model has tensors with names of their own. -/
theorem nodup_names {bytes : Bytes} {model : GgufModel} (h : parseGguf bytes = .ok model) :
    (model.tensors.map GgufTensorInfo.name).Nodup := by
  obtain ⟨entries, b, rest, hdocument, -⟩ := Gguf.parseGguf_eq_ok.1 h
  exact hdocument.names.1

/-- They are found under their names. -/
theorem getElem?_table {source : GgufByteSource} {model : GgufModel} {tensor : GgufTensorInfo}
    (hnodup : (model.tensors.map GgufTensorInfo.name).Nodup) (hmem : tensor ∈ model.tensors) :
    (SourceTensorTable.new source model).tensors[tensor.name]? = some tensor := by
  have h : (model.tensors.foldl (fun (table : BTreeMap String GgufTensorInfo) tensor =>
      table.insert tensor.name (id tensor)) ∅)[tensor.name]? = some (id tensor) :=
    Gpt2BpeTokenizer.getElem?_foldl_insert hnodup (.inl hmem)
  exact h

theorem rejectUnconsumedModelTensors_eq_ok {model : GgufModel} {consumed : Std.ExtTreeSet String} :
    rejectUnconsumedModelTensors model consumed = .ok () ↔
      ∀ tensor ∈ model.tensors, tensor.name ∈ consumed := by
  simp only [rejectUnconsumedModelTensors, forM_eq_ok, refuse_eq_ok, not_not]

/-! ## The tokenizer -/

theorem forM_throw_eq_ok {o : Option String} {f : String → GgufError} :
    o.toList.forM (fun blocker => (throw (f blocker) : Except GgufError PUnit)) = .ok () ↔
      o = none := by
  cases o with
  | none => exact ⟨fun _ => rfl, fun _ => rfl⟩
  | some blocker => exact ⟨fun h => (nomatch h), fun h => (nomatch h)⟩

/-- A tokenizer that is lowered is not blocked. -/
theorem tokenizerBlocker_eq_none {tokenizer : GgufTokenizer} {native : NativeTokenizerDescriptor}
    (h : lowerTokenizer tokenizer = .ok native) : tokenizerBlocker tokenizer = none := by
  obtain ⟨model, hmodel, -⟩ := bind_eq_ok.1 h
  rw [lowerTokenizerModel] at hmodel
  rw [tokenizerBlocker]
  split at hmodel
  · next hllama =>
    rw [if_pos hllama]
    obtain ⟨_, hblocker, -⟩ := bind_eq_ok.1 hmodel
    exact forM_throw_eq_ok.1 hblocker
  · next hllama =>
    rw [if_neg hllama]
    split at hmodel
    · next hgpt2 =>
      rw [if_pos hgpt2]
      obtain ⟨_, hblocker, -⟩ := bind_eq_ok.1 hmodel
      exact forM_throw_eq_ok.1 hblocker
    · cases hmodel

/-! ## The plan -/

/-- What a lowering that answers has checked. -/
structure LoweringChecks (model : GgufModel) : Prop where
  architecture : model.architecture = .ok "llama"
  tokenizer : ∃ tokenizer, model.tokenizer = .ok tokenizer ∧ tokenizerBlocker tokenizer = none
  tensors : ∀ tensor ∈ model.tensors,
    (tensorDisposition tensor.ggmlType).unsupportedType = none

/-- **A lowering checks what the plan lists.** -/
theorem loweringChecks {ops : F32Ops} {f16ToF32 : UInt16 → F32} {sink : Option TensorShardSink}
    {source : GgufByteSource} {model : GgufModel} {parts : LoweredLlamaParts}
    (hnodup : (model.tensors.map GgufTensorInfo.name).Nodup)
    (h : (lowerLlamaModelInternal ops f16ToF32 sink source model).run = some (.ok parts)) :
    LoweringChecks model := by
  obtain ⟨_, hllama, h⟩ := run_bind_eq_ok.1 h
  obtain ⟨config, -, h⟩ := run_bind_eq_ok.1 h
  obtain ⟨tokenizer, htokenizer, h⟩ := run_bind_eq_ok.1 h
  obtain ⟨native, hnative, h⟩ := run_bind_eq_ok.1 h
  obtain ⟨_, -, h⟩ := run_bind_eq_ok.1 h
  obtain ⟨_, -, h⟩ := run_bind_eq_ok.1 h
  obtain ⟨vocabulary, -, h⟩ := run_bind_eq_ok.1 h
  obtain ⟨⟨⟨tokenInput, logits⟩, state⟩, hgraph, h⟩ := run_bind_eq_ok.1 h
  obtain ⟨_, hconsumed, -⟩ := run_bind_eq_ok.1 h
  obtain ⟨architecture, harchitecture, hllama⟩ := bind_eq_ok.1 (run_liftM_eq_ok.1 hllama)
  obtain rfl := not_not.1 (refuse_eq_ok.1 hllama)
  have hall := rejectUnconsumedModelTensors_eq_ok.1 (run_liftM_eq_ok.1 hconsumed)
  have hsupported : Supported (SourceTensorTable.new source model) state.consumed :=
    preserves_lowerGraph {} (fun name hname => absurd hname Std.ExtTreeSet.not_mem_empty) _ _ hgraph
  exact {
    architecture := harchitecture
    tokenizer := ⟨tokenizer, run_liftM_eq_ok.1 htokenizer,
      tokenizerBlocker_eq_none (run_liftM_eq_ok.1 hnative)⟩
    tensors := fun tensor hmem => by
      obtain ⟨tensor', hfound, hnone⟩ := hsupported _ (hall tensor hmem)
      obtain rfl := Option.some.inj ((getElem?_table hnodup hmem).symm.trans hfound)
      exact hnone }

/-- A model that passes these checks is planned, and nothing but the blocker of every model is
listed. -/
theorem LoweringChecks.plan {model : GgufModel} (h : LoweringChecks model) :
    ∃ plan, GgufConversionPlan.fromModel model = .ok plan ∧
      plan.blockers = [semanticEquivalenceBlocker] := by
  obtain ⟨tokenizer, htokenizer, hblocker⟩ := h.tokenizer
  have hnone : (model.tensors.map fun tensor => tensorDisposition tensor.ggmlType).filterMap
      GgufTensorDisposition.unsupportedType = [] := by
    rw [List.filterMap_eq_nil_iff]
    intro disposition hmem
    obtain ⟨tensor, htensor, rfl⟩ := List.mem_map.1 hmem
    exact h.tensors tensor htensor
  refine ⟨_, bind_eq_ok.2 ⟨tokenizer, htokenizer, bind_eq_ok.2 ⟨_, h.architecture, rfl⟩⟩, ?_⟩
  simp only [hnone, hblocker]
  rfl

/-- **The plan predicts the lowering.**  A parsed model that is lowered, from whatever source, is
planned with no blocker but the one of every model. -/
theorem lowered_plan (ops : F32Ops) (f16ToF32 : UInt16 → F32) (source : GgufByteSource)
    (bytes : Bytes) (model : GgufModel) (lowered : LoweredLlamaModel)
    (hparse : parseGguf bytes = .ok model)
    (hlower : (lowerLlamaModelFromSource ops f16ToF32 source model).run = some (.ok lowered)) :
    ∃ plan, GgufConversionPlan.fromModel model = .ok plan ∧
      plan.blockers = [semanticEquivalenceBlocker] := by
  obtain ⟨parts, hparts, -⟩ := run_bind_eq_ok.1 hlower
  exact (loweringChecks (nodup_names hparse) hparts).plan

namespace PlanSample

/-- One token, one layer, and one element in every dimension. -/
def entries : List (String × GgufValue) := [
  ("general.architecture", .string "llama"),
  ("tokenizer.ggml.model", .string "llama"),
  ("tokenizer.ggml.tokens", .array .string [.string "a"]),
  ("tokenizer.ggml.scores", .array .float32 [.float32 0]),
  ("tokenizer.ggml.token_type", .array .int32 [.int32 1]),
  ("llama.context_length", .uint32 1),
  ("llama.embedding_length", .uint32 1),
  ("llama.block_count", .uint32 1),
  ("llama.feed_forward_length", .uint32 1),
  ("llama.attention.head_count", .uint32 1),
  ("llama.attention.layer_norm_rms_epsilon", .float32 1)]

/-- Weights of single precision; without `output.weight` the embedding is the output too. -/
def tensors : List GgufTensorInfo :=
  ["blk.0.attn_norm.weight", "blk.0.ffn_norm.weight", "output_norm.weight"].map
    (fun name => ⟨name, [1], 0, 0⟩) ++
  ["token_embd.weight", "blk.0.attn_q.weight", "blk.0.attn_k.weight", "blk.0.attn_v.weight",
    "blk.0.attn_output.weight", "blk.0.ffn_gate.weight", "blk.0.ffn_up.weight",
    "blk.0.ffn_down.weight"].map fun name => ⟨name, [1, 1], 0, 0⟩

def head : Bytes := (written (Gguf.putHeader entries tensors)).toOption.getD []

/-- All tensors have the same number, behind the head. -/
def file : Bytes := head ++ List.replicate ((32 - head.length % 32) % 32) 0 ++ [1, 0, 0, 0]

/-- The lowering of a model, out of this file. -/
def lowering (model : GgufModel) : Option (Except GgufError LoweredLlamaModel) :=
  (lowerLlamaModelFromSource .words (·.toUInt32) (SliceGgufSource.source file) model).run

end PlanSample

open PlanSample in
/-- A file whose model is lowered, and planned without a blocker of its own. -/
theorem lowered_plan_sample : ∃ model lowered, parseGguf file = .ok model ∧
    lowering model = some (.ok lowered) ∧
      ∃ plan, GgufConversionPlan.fromModel model = .ok plan ∧
        plan.blockers = [semanticEquivalenceBlocker] := by
  have hrun : (parseGguf file).toOption.any
      (fun model => (lowering model).any fun r => r.toOption.isSome) = true := by
    decide +kernel
  obtain ⟨model, hmodel, hlowered⟩ := (Option.any_eq_true _ _).1 hrun
  obtain ⟨r, hr, hsome⟩ := (Option.any_eq_true _ _).1 hlowered
  obtain ⟨lowered, rfl⟩ := exists_eq_ok hsome
  have hparse : parseGguf file = .ok model := toOption_eq_some hmodel
  exact ⟨model, lowered, hparse, hr, lowered_plan .words (·.toUInt32)
    (SliceGgufSource.source file) file model lowered hparse hr⟩

end NTD97
