import Mathlib
import NTD97.Executor.Following
import NTD97.Gguf.Predicts
import NTD97.Tensor.Kernels

/-!
# Gguf/Forward — the graph of a lowered model computes its forward pass

    model ──lower──▸ graph ──execute──▸ logits
       ╰──────────── forward pass ──────────╯

The forward pass of a LLaMA model is stated on tensors: embed the tokens, go through the layers,
normalise, project.  The lowering places tensors as graph inputs, and appends one node for each
operation; run on any provider, the nodes compute the pass on the tensors that were placed.
-/

namespace NTD97

open Guard Wire Slices Kernel GraphExecutor

/-! ## The forward pass -/

/-- What a layer multiplies and normalises with. -/
structure LayerWeights (ι : Type) where
  attnNorm : ι
  q : ι
  k : ι
  v : ι
  attnOutput : ι
  ffnNorm : ι
  ffnGate : ι
  ffnUp : ι
  ffnDown : ι

/-- What all layers share: a constant of the norms, and the shapes that heads are cut by. -/
structure SharedConstants (ι : Type) where
  epsilon : ι
  queryShape : ι
  kvShape : ι
  flattenShape : ι

structure LlamaWeights (ι : Type) where
  shared : SharedConstants ι
  embedding : ι
  layers : List (LayerWeights ι)
  outputNorm : ι
  output : ι

section Weights

variable {ι κ : Type}

def LayerWeights.map (f : ι → κ) (w : LayerWeights ι) : LayerWeights κ where
  attnNorm := f w.attnNorm
  q := f w.q
  k := f w.k
  v := f w.v
  attnOutput := f w.attnOutput
  ffnNorm := f w.ffnNorm
  ffnGate := f w.ffnGate
  ffnUp := f w.ffnUp
  ffnDown := f w.ffnDown

def SharedConstants.map (f : ι → κ) (c : SharedConstants ι) : SharedConstants κ where
  epsilon := f c.epsilon
  queryShape := f c.queryShape
  kvShape := f c.kvShape
  flattenShape := f c.flattenShape

def LlamaWeights.map (f : ι → κ) (w : LlamaWeights ι) : LlamaWeights κ where
  shared := w.shared.map f
  embedding := f w.embedding
  layers := w.layers.map (LayerWeights.map f)
  outputNorm := f w.outputNorm
  output := f w.output

/-- The tensors of a layer, in the order in which they are placed. -/
def LayerWeights.toList (w : LayerWeights ι) : List ι :=
  [w.attnNorm, w.q, w.k, w.v, w.attnOutput, w.ffnNorm, w.ffnGate, w.ffnUp, w.ffnDown]

def SharedConstants.toList (c : SharedConstants ι) : List ι :=
  [c.epsilon, c.queryShape, c.kvShape, c.flattenShape]

/-- The tensors of a model, in the order in which they are placed. -/
def LlamaWeights.toList (w : LlamaWeights ι) : List ι :=
  w.shared.toList ++ w.embedding :: w.layers.flatMap LayerWeights.toList ++ [w.outputNorm, w.output]

end Weights

section Forward

variable (provider : ExecutionProvider)

/-- One operation: what the provider answers, if it is one tensor of the rank that is asked for. -/
def stage (op : TensorOp) (inputs : List Tensor) (rank : UInt8) : Except TensorError Tensor := do
  let outputs ← provider op inputs
  match outputs with
  | [output] => do
    refuse (output.rank ≠ rank.toNat) .shapeMismatch
    return output
  | _ => throw .shapeMismatch

/-- **One layer**: attention over the heads, then the feed-forward network, each added to what came
in. -/
def forwardLayer (shared : SharedConstants Tensor) (positions hidden : Tensor)
    (w : LayerWeights Tensor) : Except TensorError Tensor := do
  let normed ← stage provider .rmsNorm [hidden, w.attnNorm, shared.epsilon] 2
  let q ← stage provider .matMul [normed, w.q] 2
  let k ← stage provider .matMul [normed, w.k] 2
  let v ← stage provider .matMul [normed, w.v] 2
  let q ← stage provider .reshape [q, shared.queryShape] 3
  let k ← stage provider .reshape [k, shared.kvShape] 3
  let v ← stage provider .reshape [v, shared.kvShape] 3
  let q ← stage provider .rotaryPosition [q, positions] 3
  let k ← stage provider .rotaryPosition [k, positions] 3
  let attention ← stage provider .causalAttention [q, k, v] 3
  let attention ← stage provider .reshape [attention, shared.flattenShape] 2
  let attention ← stage provider .matMul [attention, w.attnOutput] 2
  let residual ← stage provider .add [hidden, attention] 2
  let ffnInput ← stage provider .rmsNorm [residual, w.ffnNorm, shared.epsilon] 2
  let gate ← stage provider .matMul [ffnInput, w.ffnGate] 2
  let gate ← stage provider .silu [gate] 2
  let up ← stage provider .matMul [ffnInput, w.ffnUp] 2
  let gated ← stage provider .mul [gate, up] 2
  let down ← stage provider .matMul [gated, w.ffnDown] 2
  stage provider .add [residual, down] 2

/-- **The forward pass**, from the tokens to the logits. -/
def forward (w : LlamaWeights Tensor) (tokens : Tensor) : Except TensorError Tensor := do
  let positions ← stage provider .positionIds [tokens] 1
  let hidden ← stage provider .gather [w.embedding, tokens] 2
  let hidden ← w.layers.foldlM (forwardLayer provider w.shared positions) hidden
  let hidden ← stage provider .rmsNorm [hidden, w.outputNorm, w.shared.epsilon] 2
  stage provider .matMul [hidden, w.output] 2

variable {provider}

theorem stage_eq_ok {op : TensorOp} {inputs : List Tensor} {rank : UInt8} {t : Tensor} :
    stage provider op inputs rank = .ok t ↔
      provider op inputs = .ok [t] ∧ t.rank = rank.toNat := by
  rw [stage, bind_eq_ok]
  constructor
  · rintro ⟨outputs, houtputs, h⟩
    split at h
    · obtain ⟨_, hrank, h⟩ := bind_eq_ok.1 h
      obtain rfl := pure_eq_ok.1 h
      exact ⟨houtputs, not_not.1 (refuse_eq_ok.1 hrank)⟩
    · cases h
  · rintro ⟨houtputs, hrank⟩
    exact ⟨[t], houtputs, bind_eq_ok.2 ⟨(), refuse_eq_ok.2 (not_not.2 hrank), rfl⟩⟩

theorem stage_kernel {ops : F32Ops} {op : TensorOp} {inputs : List Tensor} {rank : UInt8} {t : Tensor} :
    stage (cpuReferenceProvider ops) op inputs rank = .ok t ↔
      kernelOf ops op inputs = .ok t ∧ t.rank = rank.toNat := by
  rw [stage_eq_ok, cpuReferenceProvider_eq_ok]

end Forward

/-! ## What the builder does -/

/-- A tensor that the builder has placed: where it comes from, its ids, and what is stored. -/
structure PlacedTensor where
  name : String
  tensorId : UInt32
  value : ValueId
  dtype : DType
  shape : List UInt64
  payload : Bytes

namespace PlacedTensor

variable (self : PlacedTensor)

def decl : ValueDecl :=
  ⟨self.value, GraphBuilder.typeOfRank self.dtype (UInt8.ofNat self.shape.length)⟩

def binding : LlamaTensorBinding := ⟨self.name, self.tensorId, self.value⟩

def native : NativeTensor where
  descriptor := {
    id := self.tensorId, dtype := self.dtype, shape := self.shape
    byteLen := UInt64.ofNat self.payload.length }
  graphValue := some self.value
  quantization := .none
  payload := self.payload

/-- The value of the tensor is one that can be bound, and its rank fits a byte. -/
structure Sound (placed : PlacedTensor) : Prop where
  bindable : placed.value.val ≠ noGraphBinding
  rank_lt : placed.shape.length < 2 ^ 8

end PlacedTensor

namespace GraphBuilder

/-- From one builder to another, these tensors are placed, and these nodes appended. -/
structure Grows (sink : Option TensorShardSink) (placed : List PlacedTensor) (nodes : List Node)
    (before after : GraphBuilder) : Prop where
  sound : ∀ p ∈ placed, p.Sound
  next_eq : after.nextTensor.toNat = before.nextTensor.toNat + placed.length
  ids_eq : placed.map (fun p => p.tensorId.toNat) =
    List.range' before.nextTensor.toNat placed.length
  inputs_eq : after.inputs = before.inputs ++ placed.map PlacedTensor.decl
  nodes_eq : after.nodes = before.nodes ++ nodes
  bindings_eq : after.bindings = before.bindings ++ placed.map PlacedTensor.binding
  tensors_eq : sink = none → after.tensors = before.tensors ++ placed.map PlacedTensor.native

namespace Grows

variable {sink : Option TensorShardSink} {placed placed' : List PlacedTensor}
  {nodes nodes' : List Node} {before middle after : GraphBuilder}

theorem refl : Grows sink [] [] before before :=
  ⟨fun _ h => (nomatch h), rfl, rfl, (List.append_nil _).symm, (List.append_nil _).symm,
    (List.append_nil _).symm, fun _ => (List.append_nil _).symm⟩

theorem trans (h : Grows sink placed nodes before middle)
    (h' : Grows sink placed' nodes' middle after) :
    Grows sink (placed ++ placed') (nodes ++ nodes') before after where
  sound := List.forall_mem_append.2 ⟨h.sound, h'.sound⟩
  next_eq := by rw [h'.next_eq, h.next_eq, List.length_append, Nat.add_assoc]
  ids_eq := by
    rw [List.map_append, h.ids_eq, h'.ids_eq, h.next_eq, List.length_append]
    exact List.range'_append_1
  inputs_eq := by rw [h'.inputs_eq, h.inputs_eq, List.map_append, List.append_assoc]
  nodes_eq := by rw [h'.nodes_eq, h.nodes_eq, List.append_assoc]
  bindings_eq := by rw [h'.bindings_eq, h.bindings_eq, List.map_append, List.append_assoc]
  tensors_eq hnone := by
    rw [h'.tensors_eq hnone, h.tensors_eq hnone, List.map_append, List.append_assoc]

end Grows

variable {before after : GraphBuilder} {sink : Option TensorShardSink} {value : ValueId}

theorem run_refuse_eq_ok {c : Prop} [Decidable c] {e : GgufError} :
    (refuse c e : Building Unit).run before = .ok ((), after) ↔ ¬ c ∧ before = after := by
  rw [refuse]
  split
  · next h =>
    refine ⟨fun hthrow => ?_, fun h' => absurd h h'.1⟩
    cases hthrow
  · next h => exact ⟨fun hpure => ⟨h, (Prod.mk.inj (Except.ok.inj hpure)).2⟩, fun h' => h'.2 ▸ rfl⟩

theorem run_okOr_eq_ok {α : Type} {o : Option α} {e : GgufError} {a : α} :
    (okOr o e : Building α).run before = .ok (a, after) ↔ o = some a ∧ before = after := by
  cases o with
  | none => exact ⟨fun hthrow => (nomatch hthrow), fun h => (nomatch h.1)⟩
  | some b =>
    refine ⟨fun hpure => ?_, fun h => ?_⟩
    · obtain ⟨rfl, rfl⟩ := Prod.mk.inj (Except.ok.inj hpure)
      exact ⟨rfl, rfl⟩
    · obtain ⟨hb, rfl⟩ := h
      rw [Option.some.inj hb]
      rfl

theorem run_addNode {op : TensorOp} {inputs : List ValueId} {dtype : DType} {rank : UInt8}
    (h : (addNode op inputs dtype rank).run before = .ok (value, after)) :
    ∃ id, Grows sink [] [⟨id, .tensor op, inputs, [⟨value, typeOfRank dtype rank⟩]⟩]
      before after := by
  simp only [addNode, allocateValue, bind_assoc, pure_bind, StateT.run_bind, StateT.run_get,
    StateT.run_monadLift, monadLift_self, StateT.run_set, StateT.run_pure, bind_eq_ok, pure_eq_ok,
    Prod.mk.injEq] at h
  obtain ⟨_, -, _, -, rfl, rfl⟩ := h
  exact ⟨⟨before.nextNode⟩, fun _ h => absurd h List.not_mem_nil, rfl, rfl,
    (List.append_nil _).symm, rfl, (List.append_nil _).symm, fun _ => (List.append_nil _).symm⟩

/-- A number that has a next one. -/
theorem checkedNext_eq_ok {n next : UInt32} (h : checkedNext n = .ok next) :
    next.toNat = n.toNat + 1 ∧ n ≠ noGraphBinding := by
  rw [checkedNext, okOr_eq_ok] at h
  split at h
  · next hlt =>
    obtain rfl := Option.some.inj h
    refine ⟨?_, ?_⟩
    · rw [UInt32.toNat_add]
      exact Nat.mod_eq_of_lt hlt
    · rintro rfl
      exact absurd hlt (by decide)
  · cases h

theorem run_keepTensor {tensor : NativeTensor}
    (h : (keepTensor sink tensor).run before = .ok ((), after)) :
    after.nextTensor = before.nextTensor ∧ after.inputs = before.inputs ∧
      after.nodes = before.nodes ∧ after.bindings = before.bindings ∧
        (sink = none → after.tensors = before.tensors ++ [tensor]) := by
  cases sink with
  | none =>
    obtain ⟨-, rfl⟩ := Prod.mk.inj (Except.ok.inj h)
    exact ⟨rfl, rfl, rfl, rfl, fun _ => rfl⟩
  | some store =>
    obtain ⟨⟨shard, s⟩, hstore, hset⟩ := bind_eq_ok.1 h
    obtain ⟨-, rfl⟩ := Prod.mk.inj (Except.ok.inj hset)
    obtain ⟨_, -, hstate⟩ := bind_eq_ok.1 hstore
    obtain ⟨-, rfl⟩ := Prod.mk.inj (Except.ok.inj hstate)
    exact ⟨rfl, rfl, rfl, rfl, fun h => nomatch h⟩

theorem run_addNativeTensor {name : String} {dtype : DType} {shape : List UInt64} {payload : Bytes}
    (h : (addNativeTensor sink name dtype shape payload).run before = .ok (value, after)) :
    ∃ id, Grows sink [⟨name, id, value, dtype, shape, payload⟩] [] before after := by
  simp only [addNativeTensor, allocateValue, bind_assoc, pure_bind, StateT.run_bind, StateT.run_get,
    StateT.run_monadLift, monadLift_self, StateT.run_set, StateT.run_modify, StateT.run_pure,
    bind_eq_ok, pure_eq_ok, exists_unit, run_refuse_eq_ok, Prod.exists, Prod.mk.injEq] at h
  obtain ⟨_, hvalue, _, ⟨hrank, rfl⟩, _, hnext, byteLen, hlen, kept, hkeep, rfl, rfl⟩ := h
  obtain ⟨hid, hinputs, hnodes, hbindings, htensors⟩ := run_keepTensor hkeep
  refine ⟨before.nextTensor, ?_, ?_, rfl, hinputs, ?_, ?_, fun hnone => ?_⟩
  · rw [List.forall_mem_singleton]
    exact ⟨(checkedNext_eq_ok hvalue).2, not_le.1 hrank⟩
  · exact (congrArg UInt32.toNat hid).trans (checkedNext_eq_ok hnext).1
  · exact hnodes.trans (List.append_nil _).symm
  · rw [hbindings]
    rfl
  · have hbyteLen : byteLen = UInt64.ofNat payload.length := by
      rw [← lenU64_eq_ok.1 hlen, UInt64.ofNat_toNat]
    rw [htensors hnone, hbyteLen]
    rfl

end GraphBuilder

/-! ## Nodes and what they compute -/

/-- **Nodes compute `y`**: under an assignment that follows them, they are solved exactly if `y`
answers, and `value` carries the answer. -/
def Computes (provider : ExecutionProvider) (assignment : UInt32 → Tensor) (nodes : List Node)
    (y : Except TensorError Tensor) (value : ValueId) : Prop :=
  (∀ node ∈ nodes, Follows provider assignment node) →
    ((∀ node ∈ nodes, NodeSolved provider assignment node) ↔ y = .ok (assignment value.val)) ∧
      ∀ t, y = .ok t → assignment value.val = t

namespace Computes

variable {provider : ExecutionProvider} {assignment : UInt32 → Tensor} {nodes nodes' : List Node}
  {y : Except TensorError Tensor} {value value' : ValueId}

theorem nil : Computes provider assignment [] (pure (assignment value.val)) value :=
  fun _ => ⟨⟨fun _ => rfl, fun _ _ h => (nomatch h)⟩, fun _ h => Except.ok.inj h⟩

theorem fits_typeOfRank {dtype : DType} {rank : UInt8} {t : Tensor} :
    GraphExecutor.Fits ⟨value, GraphBuilder.typeOfRank dtype rank⟩ t ↔ t.rank = rank.toNat := by
  rw [GraphExecutor.Fits, GraphBuilder.typeOfRank]
  split
  · next h =>
    split at h
    · next hzero => rw [hzero]; rfl
    · cases h
  · next h =>
    split at h
    · cases h
    · cases h
      exact Iff.rfl
  all_goals
    next h => split at h <;> cases h

theorem node {id : NodeId} {op : TensorOp} {inputs : List ValueId} {dtype : DType} {rank : UInt8} :
    Computes provider assignment
      [⟨id, .tensor op, inputs, [⟨value, GraphBuilder.typeOfRank dtype rank⟩]⟩]
      (stage provider op (inputs.map fun value => assignment value.val) rank) value := by
  intro hfollow
  rw [List.forall_mem_singleton] at hfollow ⊢
  refine ⟨?_, fun t ht => ?_⟩
  · rw [stage_eq_ok]
    constructor
    · rintro ⟨op', hop, hanswer, hfits⟩
      obtain rfl := OpKind.tensor.inj hop
      exact ⟨hanswer, fits_typeOfRank.1 (hfits _ List.mem_cons_self)⟩
    · rintro ⟨hanswer, hrank⟩
      exact ⟨op, rfl, hanswer, List.forall_mem_singleton.2 (fits_typeOfRank.2 hrank)⟩
  · exact List.singleton_inj.1 (hfollow op [t] rfl (stage_eq_ok.1 ht).1 rfl)

theorem bind {g : Tensor → Except TensorError Tensor}
    (h : Computes provider assignment nodes y value)
    (hg : Computes provider assignment nodes' (g (assignment value.val)) value') :
    Computes provider assignment (nodes ++ nodes') (y >>= g) value' := by
  intro hfollow
  rw [List.forall_mem_append] at hfollow ⊢
  obtain ⟨hsolved, hvalue⟩ := h hfollow.1
  obtain ⟨hsolved', hvalue'⟩ := hg hfollow.2
  refine ⟨?_, fun t ht => ?_⟩
  · rw [hsolved, hsolved', bind_eq_ok]
    constructor
    · exact fun h => ⟨_, h⟩
    · rintro ⟨a, ha, hga⟩
      obtain rfl := hvalue a ha
      exact ⟨ha, hga⟩
  · obtain ⟨a, ha, hga⟩ := bind_eq_ok.1 ht
    obtain rfl := hvalue a ha
    exact hvalue' t hga

end Computes

/-! ## The lowering, step by step -/

theorem run_build_eq_ok {α : Type} {x : GraphBuilder.Building α} {s s' : Lowering} {a : α}
    (h : ((build x).run s).run = some (.ok (a, s'))) :
    ∃ builder, x.run s.builder = .ok (a, builder) ∧ s' = { s with builder } := by
  obtain ⟨⟨_, builder⟩, hx, h⟩ := run_bind_eq_ok.1 h
  obtain ⟨rfl, rfl⟩ := Prod.mk.inj (Except.ok.inj (Option.some.inj h))
  exact ⟨builder, run_liftM_eq_ok.1 hx, rfl⟩

theorem run_lower_bind {α β : Type} {x : Lower α} {f : α → Lower β} {s s' : Lowering} {b : β} :
    ((x >>= f).run s).run = some (.ok (b, s')) ↔ ∃ a t, (x.run s).run = some (.ok (a, t)) ∧
      ((f a).run t).run = some (.ok (b, s')) := by
  rw [StateT.run_bind, run_bind_eq_ok, Prod.exists]

/-- A step that does not touch the state, and the rest. -/
theorem run_lift_bind {α β : Type} {y : Code GgufError α} {f : α → Lower β} {s s' : Lowering} {b : β}
    (h : (((liftM y : Lower α) >>= f).run s).run = some (.ok (b, s'))) :
    ∃ a, y.run = some (.ok a) ∧ ((f a).run s).run = some (.ok (b, s')) := by
  obtain ⟨a, t, hlift, hf⟩ := run_lower_bind.1 h
  obtain ⟨a', ha, ht⟩ := run_bind_eq_ok.1 hlift
  obtain ⟨rfl, rfl⟩ := Prod.mk.inj (Except.ok.inj (Option.some.inj ht))
  exact ⟨a', ha, hf⟩

/-- **The computation appends nodes that compute `y`**, and places nothing. -/
def Appends (sink : Option TensorShardSink) (x : Lower ValueId)
    (y : ExecutionProvider → (UInt32 → Tensor) → Except TensorError Tensor) : Prop :=
  ∀ s value s', (x.run s).run = some (.ok (value, s')) → ∃ nodes,
    GraphBuilder.Grows sink [] nodes s.builder s'.builder ∧
      ∀ provider assignment, Computes provider assignment nodes (y provider assignment) value

namespace Appends

variable {sink : Option TensorShardSink}

theorem addNode (op : TensorOp) (inputs : List ValueId) (dtype : DType) (rank : UInt8) :
    Appends sink (build (GraphBuilder.addNode op inputs dtype rank)) fun provider assignment =>
      stage provider op (inputs.map fun value => assignment value.val) rank := by
  intro s value s' h
  obtain ⟨builder, hbuild, rfl⟩ := run_build_eq_ok h
  obtain ⟨id, hgrows⟩ := GraphBuilder.run_addNode hbuild
  exact ⟨_, hgrows, fun _ _ => Computes.node⟩

theorem node (op : TensorOp) (inputs : List ValueId) (rank : UInt8) :
    Appends sink (NTD97.node op inputs rank) fun provider assignment =>
      stage provider op (inputs.map fun value => assignment value.val) rank :=
  addNode op inputs .f32 rank

theorem bind {x : Lower ValueId} {f : ValueId → Lower ValueId}
    {y : ExecutionProvider → (UInt32 → Tensor) → Except TensorError Tensor}
    {g : ExecutionProvider → (UInt32 → Tensor) → Tensor → Except TensorError Tensor}
    (hx : Appends sink x y)
    (hf : ∀ value, Appends sink (f value) fun provider assignment =>
      g provider assignment (assignment value.val)) :
    Appends sink (x >>= f) fun provider assignment =>
      y provider assignment >>= g provider assignment := by
  intro s value s' h
  obtain ⟨first, t, hfirst, hrest⟩ := run_lower_bind.1 h
  obtain ⟨nodes, hgrows, hcomputes⟩ := hx s first t hfirst
  obtain ⟨nodes', hgrows', hcomputes'⟩ := hf first t value s' hrest
  exact ⟨nodes ++ nodes', hgrows.trans hgrows', fun provider assignment =>
    (hcomputes provider assignment).bind (hcomputes' provider assignment)⟩

/-- What a run of such a computation has appended. -/
theorem elim (sink : Option TensorShardSink)
    (y : ExecutionProvider → (UInt32 → Tensor) → Except TensorError Tensor)
    {x : Lower ValueId} {s s' : Lowering} {value : ValueId}
    (h : (x.run s).run = some (.ok (value, s'))) (hx : Appends sink x y) : ∃ nodes,
      GraphBuilder.Grows sink [] nodes s.builder s'.builder ∧
        ∀ provider assignment, Computes provider assignment nodes (y provider assignment) value :=
  hx s value s' h

end Appends

section Layers

variable {ops : F32Ops} {f16ToF32 : UInt16 → F32} {sink : Option TensorShardSink}
  {table : SourceTensorTable}

/-- **The tensor of this name, transcoded**, from a source where it has the dimensions that are
expected. -/
structure FromSource (ops : F32Ops) (f16ToF32 : UInt16 → F32) (table : SourceTensorTable)
    (name : String) (expected : List UInt64) (transpose2d : Bool) (placed : PlacedTensor) :
    Prop where
  name_eq : placed.name = name
  transcoded : ∃ tensor, table.tensors[name]? = some tensor ∧ tensor.dimensions = expected ∧
    (transcodeTensorFromSource ops f16ToF32 table.source table.model tensor transpose2d).run =
      some (.ok ⟨placed.dtype, placed.shape, placed.payload⟩)

theorem run_add {name : String} {expected : List UInt64} {transpose2d : Bool} {s s' : Lowering}
    {value : ValueId}
    (h : ((table.add ops f16ToF32 sink name expected transpose2d).run s).run =
      some (.ok (value, s'))) :
    ∃ placed, placed.value = value ∧
      FromSource ops f16ToF32 table name expected transpose2d placed ∧
        GraphBuilder.Grows sink [placed] [] s.builder s'.builder := by
  obtain ⟨tensor, htensor, h⟩ := run_lift_bind h
  obtain ⟨_, hdims, h⟩ := run_lift_bind h
  obtain ⟨native, hnative, h⟩ := run_lift_bind h
  obtain ⟨_, t, hmodify, h⟩ := run_lower_bind.1 h
  obtain ⟨-, rfl⟩ := Prod.mk.inj (Except.ok.inj (Option.some.inj hmodify))
  obtain ⟨builder, hbuild, rfl⟩ := run_build_eq_ok h
  obtain ⟨id, hgrows⟩ := GraphBuilder.run_addNativeTensor hbuild
  refine ⟨⟨name, id, value, native.dtype, native.shape, native.payload⟩, rfl, ?_, hgrows⟩
  have hexpected : tensor.dimensions = expected := by
    by_contra hne
    rw [refuse, if_pos hne] at hdims
    cases Option.some.inj hdims
  exact ⟨rfl, tensor, run_okOr_eq_ok.1 htensor, hexpected, hnative⟩

/-- The tensors of a layer come from the source. -/
structure LayerFromSource (ops : F32Ops) (f16ToF32 : UInt16 → F32) (table : SourceTensorTable)
    (config : LlamaConfig) (kvWidth : UInt32) (layer : ℕ) (w : LayerWeights PlacedTensor) :
    Prop where
  attnNorm : FromSource ops f16ToF32 table s!"blk.{layer}.attn_norm.weight"
    [config.embeddingLength.toUInt64] false w.attnNorm
  q : FromSource ops f16ToF32 table s!"blk.{layer}.attn_q.weight"
    [config.embeddingLength.toUInt64, config.embeddingLength.toUInt64] true w.q
  k : FromSource ops f16ToF32 table s!"blk.{layer}.attn_k.weight"
    [config.embeddingLength.toUInt64, kvWidth.toUInt64] true w.k
  v : FromSource ops f16ToF32 table s!"blk.{layer}.attn_v.weight"
    [config.embeddingLength.toUInt64, kvWidth.toUInt64] true w.v
  attnOutput : FromSource ops f16ToF32 table s!"blk.{layer}.attn_output.weight"
    [config.embeddingLength.toUInt64, config.embeddingLength.toUInt64] true w.attnOutput
  ffnNorm : FromSource ops f16ToF32 table s!"blk.{layer}.ffn_norm.weight"
    [config.embeddingLength.toUInt64] false w.ffnNorm
  ffnGate : FromSource ops f16ToF32 table s!"blk.{layer}.ffn_gate.weight"
    [config.embeddingLength.toUInt64, config.feedForwardLength.toUInt64] true w.ffnGate
  ffnUp : FromSource ops f16ToF32 table s!"blk.{layer}.ffn_up.weight"
    [config.embeddingLength.toUInt64, config.feedForwardLength.toUInt64] true w.ffnUp
  ffnDown : FromSource ops f16ToF32 table s!"blk.{layer}.ffn_down.weight"
    [config.feedForwardLength.toUInt64, config.embeddingLength.toUInt64] true w.ffnDown

/-- What an assignment gives to the values that the layers share. -/
def LayerValues.shared (values : LayerValues) (assignment : UInt32 → Tensor) :
    SharedConstants Tensor where
  epsilon := assignment values.epsilon.val
  queryShape := assignment values.queryShape.val
  kvShape := assignment values.kvShape.val
  flattenShape := assignment values.flattenShape.val

/-- The tensor that an assignment gives to one that was placed. -/
def PlacedTensor.read (assignment : UInt32 → Tensor) (placed : PlacedTensor) : Tensor :=
  assignment placed.value.val

variable {config : LlamaConfig} {kvWidth : UInt32} {values : LayerValues}

/-- **A layer is lowered to its forward pass.** -/
theorem run_lowerLayer {hidden value : ValueId} {layer : ℕ} {s s' : Lowering}
    (h : ((lowerLayer ops f16ToF32 sink table config kvWidth values hidden layer).run s).run =
      some (.ok (value, s'))) :
    ∃ w nodes, LayerFromSource ops f16ToF32 table config kvWidth layer w ∧
      GraphBuilder.Grows sink w.toList nodes s.builder s'.builder ∧
      ∀ provider assignment, Computes provider assignment nodes
        (forwardLayer provider (values.shared assignment) (assignment values.positions.val)
          (assignment hidden.val) (w.map (PlacedTensor.read assignment))) value := by
  obtain ⟨_, s₁, h₁, h⟩ := run_lower_bind.1 h
  obtain ⟨attnNorm, rfl, hattnNorm, hgrows₁⟩ := run_add h₁
  obtain ⟨_, s₂, h₂, h⟩ := run_lower_bind.1 h
  obtain ⟨q, rfl, hq, hgrows₂⟩ := run_add h₂
  obtain ⟨_, s₃, h₃, h⟩ := run_lower_bind.1 h
  obtain ⟨k, rfl, hk, hgrows₃⟩ := run_add h₃
  obtain ⟨_, s₄, h₄, h⟩ := run_lower_bind.1 h
  obtain ⟨v, rfl, hv, hgrows₄⟩ := run_add h₄
  obtain ⟨_, s₅, h₅, h⟩ := run_lower_bind.1 h
  obtain ⟨attnOutput, rfl, hattnOutput, hgrows₅⟩ := run_add h₅
  obtain ⟨_, s₆, h₆, h⟩ := run_lower_bind.1 h
  obtain ⟨ffnNorm, rfl, hffnNorm, hgrows₆⟩ := run_add h₆
  obtain ⟨_, s₇, h₇, h⟩ := run_lower_bind.1 h
  obtain ⟨ffnGate, rfl, hffnGate, hgrows₇⟩ := run_add h₇
  obtain ⟨_, s₈, h₈, h⟩ := run_lower_bind.1 h
  obtain ⟨ffnUp, rfl, hffnUp, hgrows₈⟩ := run_add h₈
  obtain ⟨_, s₉, h₉, h⟩ := run_lower_bind.1 h
  obtain ⟨ffnDown, rfl, hffnDown, hgrows₉⟩ := run_add h₉
  obtain ⟨nodes, hgrows, hcomputes⟩ := Appends.elim sink (fun provider assignment =>
    forwardLayer provider (values.shared assignment) (assignment values.positions.val)
      (assignment hidden.val) (LayerWeights.map (PlacedTensor.read assignment)
        ⟨attnNorm, q, k, v, attnOutput, ffnNorm, ffnGate, ffnUp, ffnDown⟩)) h <| by
    unfold forwardLayer
    iterate 19 refine (Appends.node _ _ _).bind fun _ => ?_
    exact Appends.node _ _ _
  refine ⟨⟨attnNorm, q, k, v, attnOutput, ffnNorm, ffnGate, ffnUp, ffnDown⟩, nodes,
    ⟨hattnNorm, hq, hk, hv, hattnOutput, hffnNorm, hffnGate, hffnUp, hffnDown⟩, ?_, hcomputes⟩
  exact ((((((((hgrows₁.trans hgrows₂).trans hgrows₃).trans hgrows₄).trans hgrows₅).trans
    hgrows₆).trans hgrows₇).trans hgrows₈).trans hgrows₉).trans hgrows

/-- **The layers, one after the other**, from the layer `start` on. -/
theorem run_layers : ∀ {n start : ℕ} {hidden value : ValueId} {s s' : Lowering},
    (((List.range' start n).foldlM
      (lowerLayer ops f16ToF32 sink table config kvWidth values) hidden).run s).run =
        some (.ok (value, s')) →
      ∃ (ws : List (LayerWeights PlacedTensor)) (nodes : List Node), ws.length = n ∧
        (∀ i w, ws[i]? = some w →
          LayerFromSource ops f16ToF32 table config kvWidth (start + i) w) ∧
        GraphBuilder.Grows sink (ws.flatMap LayerWeights.toList) nodes s.builder s'.builder ∧
        ∀ provider assignment, Computes provider assignment nodes
          ((ws.map (LayerWeights.map (PlacedTensor.read assignment))).foldlM
            (forwardLayer provider (values.shared assignment) (assignment values.positions.val))
            (assignment hidden.val)) value
  | 0, start, hidden, value, s, s', h => by
      obtain ⟨rfl, rfl⟩ := Prod.mk.inj (Except.ok.inj (Option.some.inj h))
      exact ⟨[], [], rfl, fun _ _ h => (nomatch h), .refl, fun _ _ => Computes.nil⟩
  | n + 1, start, hidden, value, s, s', h => by
      rw [List.range'_succ, List.foldlM_cons] at h
      obtain ⟨next, t, hfirst, hrest⟩ := run_lower_bind.1 h
      obtain ⟨w, nodes, hw, hgrows, hcomputes⟩ := run_lowerLayer hfirst
      obtain ⟨ws, nodes', hlength, hws, hgrows', hcomputes'⟩ := run_layers hrest
      refine ⟨w :: ws, nodes ++ nodes', congrArg (· + 1) hlength, fun i w' hw' => ?_,
        hgrows.trans hgrows', fun provider assignment => ?_⟩
      · cases i with
        | zero => exact Option.some.inj hw' ▸ hw
        | succ i => exact Nat.add_right_comm start 1 i ▸ hws i w' hw'
      · rw [List.map_cons, List.foldlM_cons]
        exact (hcomputes provider assignment).bind (hcomputes' provider assignment)

end Layers

/-! ## The whole model -/

/-- **A constant of the graph**: numbers of single precision, as they are. -/
structure IsConstant (name : String) (shape : List UInt64) (numbers : List F32)
    (placed : PlacedTensor) : Prop where
  name_eq : placed.name = name
  dtype_eq : placed.dtype = .f32
  shape_eq : placed.shape = shape
  payload_eq : placed.payload = numbers.flatMap fun value => leBytes 4 value.toNat

section Model

variable {ops : F32Ops} {f16ToF32 : UInt16 → F32} {sink : Option TensorShardSink}
  {table : SourceTensorTable} {config : LlamaConfig}

theorem run_addExternalInput {dtype : DType} {rank : UInt8} {before after : GraphBuilder}
    {value : ValueId}
    (h : (GraphBuilder.addExternalInput dtype rank).run before = .ok (value, after)) :
    after.inputs = before.inputs ++ [⟨value, .tensor dtype rank⟩] ∧ after.nodes = before.nodes ∧
      after.bindings = before.bindings ∧ after.tensors = before.tensors := by
  simp only [GraphBuilder.addExternalInput, GraphBuilder.allocateValue, bind_assoc, pure_bind,
    StateT.run_bind, StateT.run_get, StateT.run_monadLift, monadLift_self, StateT.run_set,
    StateT.run_modify, StateT.run_pure, bind_eq_ok, pure_eq_ok, Prod.mk.injEq] at h
  obtain ⟨_, -, rfl, rfl⟩ := h
  exact ⟨rfl, rfl, rfl, rfl⟩

/-- A step of the builder, and the rest. -/
theorem run_build_bind {α β : Type} {x : GraphBuilder.Building α} {f : α → Lower β}
    {s s' : Lowering} {b : β} (h : ((build x >>= f).run s).run = some (.ok (b, s'))) :
    ∃ a builder, x.run s.builder = .ok (a, builder) ∧
      ((f a).run { s with builder }).run = some (.ok (b, s')) := by
  obtain ⟨a, t, hx, hf⟩ := run_lower_bind.1 h
  obtain ⟨builder, hbuild, rfl⟩ := run_build_eq_ok hx
  exact ⟨a, builder, hbuild, hf⟩

theorem run_addConstantF32Scalar {before after : GraphBuilder} {number : F32} {value : ValueId}
    (h : (GraphBuilder.addConstantF32Scalar ops sink number).run before = .ok (value, after)) :
    ∃ placed, placed.value = value ∧
      IsConstant "ntd97.constant.scalar" [] [number] placed ∧
        GraphBuilder.Grows sink [placed] [] before after := by
  obtain ⟨⟨_, t⟩, hrefuse, h⟩ := bind_eq_ok.1 h
  obtain ⟨-, rfl⟩ := GraphBuilder.run_refuse_eq_ok.1 hrefuse
  obtain ⟨id, hgrows⟩ := GraphBuilder.run_addNativeTensor h
  exact ⟨_, rfl, ⟨rfl, rfl, rfl, (List.flatMap_singleton ..).symm⟩, hgrows⟩

theorem run_addConstantF32Vector {before after : GraphBuilder} {numbers : List F32}
    {value : ValueId}
    (h : (GraphBuilder.addConstantF32Vector ops sink numbers).run before = .ok (value, after)) :
    ∃ placed, placed.value = value ∧
      IsConstant "ntd97.constant.vector" [UInt64.ofNat numbers.length] numbers placed ∧
        GraphBuilder.Grows sink [placed] [] before after := by
  simp only [GraphBuilder.addConstantF32Vector, StateT.run_bind, bind_eq_ok, Prod.exists,
    exists_unit, GraphBuilder.run_refuse_eq_ok, GraphBuilder.run_okOr_eq_ok] at h
  obtain ⟨_, ⟨-, rfl⟩, _, _, ⟨-, rfl⟩, _, _, hlift, h⟩ := h
  obtain ⟨len, hlen, hpure⟩ := bind_eq_ok.1 hlift
  obtain ⟨rfl, rfl⟩ := Prod.mk.inj (Except.ok.inj hpure)
  obtain ⟨id, hgrows⟩ := GraphBuilder.run_addNativeTensor h
  have hshape : len = UInt64.ofNat numbers.length := by
    rw [← lenU64_eq_ok.1 hlen, UInt64.ofNat_toNat]
  exact ⟨_, rfl, ⟨rfl, rfl, congrArg ([·]) hshape, rfl⟩, hgrows⟩

/-- The width of the keys and values of all heads. -/
def LlamaConfig.kvWidth (config : LlamaConfig) : UInt32 :=
  UInt32.ofNat (config.headDim.toNat * config.headCountKv.toNat)

/-- **The tensors of a model**: constants made from its configuration, and the tensors of its source
under the names of a LLaMA model. -/
structure WeightsFromSource (ops : F32Ops) (f16ToF32 : UInt16 → F32) (table : SourceTensorTable)
    (config : LlamaConfig) (vocabulary : UInt64) (w : LlamaWeights PlacedTensor) : Prop where
  epsilon : IsConstant "ntd97.constant.scalar" [] [config.rmsEpsilon] w.shared.epsilon
  queryShape : IsConstant "ntd97.constant.vector" [3]
    [F32.zero, ops.ofInt config.headCount.toNat, ops.ofInt config.headDim.toNat] w.shared.queryShape
  kvShape : IsConstant "ntd97.constant.vector" [3]
    [F32.zero, ops.ofInt config.headCountKv.toNat, ops.ofInt config.headDim.toNat] w.shared.kvShape
  flattenShape : IsConstant "ntd97.constant.vector" [2]
    [F32.zero, ops.ofInt config.embeddingLength.toNat] w.shared.flattenShape
  embedding : FromSource ops f16ToF32 table "token_embd.weight"
    [config.embeddingLength.toUInt64, vocabulary] false w.embedding
  kvWidth_lt : config.headDim.toNat * config.headCountKv.toNat < 2 ^ 32
  length_layers : w.layers.length = config.blockCount.toNat
  layers : ∀ layer weights, w.layers[layer]? = some weights →
    LayerFromSource ops f16ToF32 table config config.kvWidth layer weights
  outputNorm : FromSource ops f16ToF32 table "output_norm.weight"
    [config.embeddingLength.toUInt64] false w.outputNorm
  output : FromSource ops f16ToF32 table
    (if "output.weight" ∈ table.tensors then "output.weight" else "token_embd.weight")
    [config.embeddingLength.toUInt64, vocabulary] true w.output

/-- **A model is lowered to its forward pass**: the tokens are its first input, the tensors follow,
and the nodes compute the logits. -/
structure Lowered (sink : Option TensorShardSink) (tokenInput logits : ValueId)
    (w : LlamaWeights PlacedTensor) (builder : GraphBuilder) : Prop where
  sound : ∀ p ∈ w.toList, p.Sound
  ids_nodup : (w.toList.map PlacedTensor.tensorId).Nodup
  computed : ∃ node ∈ builder.nodes, logits.val ∈ declared node.outputs
  inputs_eq : builder.inputs =
    ⟨tokenInput, .tensor .i32 1⟩ :: w.toList.map PlacedTensor.decl
  bindings_eq : builder.bindings = w.toList.map PlacedTensor.binding
  tensors_eq : sink = none → builder.tensors = w.toList.map PlacedTensor.native
  computes : ∀ provider assignment, Computes provider assignment builder.nodes
    (forward provider (w.map (PlacedTensor.read assignment)) (assignment tokenInput.val)) logits

theorem run_lowerGraph {vocabulary : UInt64} {tokenInput logits : ValueId} {s' : Lowering}
    (h : ((lowerGraph ops f16ToF32 sink table config vocabulary).run {}).run =
      some (.ok ((tokenInput, logits), s'))) :
    ∃ w, WeightsFromSource ops f16ToF32 table config vocabulary w ∧
      Lowered sink tokenInput logits w s'.builder := by
  obtain ⟨_, b₀, h₀, h⟩ := run_build_bind h
  obtain ⟨hinputs, hnodes, hbindings, htensors⟩ := run_addExternalInput h₀
  obtain ⟨positions, s₁, h₁, h⟩ := run_lower_bind.1 h
  obtain ⟨index, hgrows₁, hindex⟩ := Appends.elim sink _ h₁ (Appends.addNode _ _ _ _)
  obtain ⟨_, b₂, h₂, h⟩ := run_build_bind h
  obtain ⟨epsilon, rfl, hepsilon, hgrows₂⟩ := run_addConstantF32Scalar h₂
  obtain ⟨_, b₃, h₃, h⟩ := run_build_bind h
  obtain ⟨queryShape, rfl, hqueryShape, hgrows₃⟩ := run_addConstantF32Vector h₃
  obtain ⟨_, b₄, h₄, h⟩ := run_build_bind h
  obtain ⟨kvShape, rfl, hkvShape, hgrows₄⟩ := run_addConstantF32Vector h₄
  obtain ⟨_, b₅, h₅, h⟩ := run_build_bind h
  obtain ⟨flattenShape, rfl, hflattenShape, hgrows₅⟩ := run_addConstantF32Vector h₅
  obtain ⟨_, s₆, h₆, h⟩ := run_lower_bind.1 h
  obtain ⟨embedding, rfl, hembedding, hgrows₆⟩ := run_add h₆
  obtain ⟨hidden, s₇, h₇, h⟩ := run_lower_bind.1 h
  obtain ⟨gather, hgrows₇, hgather⟩ := Appends.elim sink _ h₇ (Appends.node _ _ _)
  obtain ⟨_, hkv, h⟩ := run_lift_bind h
  obtain ⟨last, s₈, h₈, h⟩ := run_lower_bind.1 h
  rw [List.range_eq_range'] at h₈
  obtain ⟨layers, nodes, hlength, hlayers, hgrows₈, hcomputes⟩ := run_layers h₈
  obtain ⟨_, s₉, h₉, h⟩ := run_lower_bind.1 h
  obtain ⟨outputNorm, rfl, houtputNorm, hgrows₉⟩ := run_add h₉
  obtain ⟨normed, s₁₀, h₁₀, h⟩ := run_lower_bind.1 h
  obtain ⟨norm, hgrows₁₀, hnorm⟩ := Appends.elim sink _ h₁₀ (Appends.node _ _ _)
  obtain ⟨_, s₁₁, h₁₁, h⟩ := run_lower_bind.1 h
  obtain ⟨output, rfl, houtput, hgrows₁₁⟩ := run_add h₁₁
  obtain ⟨_, s₁₂, h₁₂, h⟩ := run_lower_bind.1 h
  obtain ⟨builder, hproject, rfl⟩ := run_build_eq_ok h₁₂
  obtain ⟨id, hgrows₁₂⟩ := GraphBuilder.run_addNode hproject
  obtain ⟨heq, rfl⟩ := Prod.mk.inj (Except.ok.inj (Option.some.inj h))
  obtain ⟨rfl, rfl⟩ := Prod.mk.inj heq
  have hgrows := (((((((((((hgrows₁.trans hgrows₂).trans hgrows₃).trans hgrows₄).trans
    hgrows₅).trans hgrows₆).trans hgrows₇).trans hgrows₈).trans hgrows₉).trans hgrows₁₀).trans
    hgrows₁₁).trans hgrows₁₂)
  refine ⟨⟨⟨epsilon, queryShape, kvShape, flattenShape⟩, embedding, layers, outputNorm, output⟩, {
    epsilon := hepsilon
    queryShape := hqueryShape
    kvShape := hkvShape
    flattenShape := hflattenShape
    embedding := hembedding
    kvWidth_lt := ?_
    length_layers := hlength
    layers := fun layer w hw => Nat.zero_add layer ▸ hlayers layer w hw
    outputNorm := houtputNorm
    output := houtput }, ?_⟩
  · by_contra hlt
    rw [refuse, if_pos (not_lt.1 hlt)] at hkv
    cases Option.some.inj hkv
  · have hplaced : ([] : List PlacedTensor) ++ [epsilon] ++ [queryShape] ++ [kvShape] ++
        [flattenShape] ++ [embedding] ++ [] ++ layers.flatMap LayerWeights.toList ++ [outputNorm] ++
          [] ++ [output] ++ [] = LlamaWeights.toList
            ⟨⟨epsilon, queryShape, kvShape, flattenShape⟩, embedding, layers, outputNorm, output⟩ := by
      simp [LlamaWeights.toList, SharedConstants.toList]
    rw [hplaced] at hgrows
    have hids : (LlamaWeights.toList ⟨⟨epsilon, queryShape, kvShape, flattenShape⟩, embedding,
        layers, outputNorm, output⟩).map (fun p => p.tensorId.toNat) = _ := hgrows.ids_eq
    refine ⟨hgrows.sound, ?_, ?_, ?_, ?_, fun hnone => ?_, fun provider assignment => ?_⟩
    · refine List.Nodup.of_map UInt32.toNat ?_
      rw [List.map_map]
      exact hids ▸ List.nodup_range'
    · rw [hgrows.nodes_eq]
      exact ⟨_, List.mem_append_right _ (List.mem_append_right _ (List.mem_singleton_self _)),
        List.mem_singleton_self _⟩
    · rw [hgrows.inputs_eq, hinputs]
      rfl
    · rw [hgrows.bindings_eq, hbindings]
      rfl
    · rw [hgrows.tensors_eq hnone, htensors]
      rfl
    · rw [hgrows.nodes_eq, hnodes]
      simp only [List.append_nil, List.append_assoc, List.nil_append]
      exact (hindex provider assignment).bind <| (hgather provider assignment).bind <|
        (hcomputes provider assignment).bind <| (hnorm provider assignment).bind Computes.node

end Model

/-! ## Execution -/

theorem LayerWeights.map_congr {ι κ : Type} {f g : ι → κ} {w : LayerWeights ι}
    (h : ∀ p ∈ w.toList, f p = g p) : w.map f = w.map g := by
  simp only [LayerWeights.toList, List.forall_mem_cons] at h
  obtain ⟨h₁, h₂, h₃, h₄, h₅, h₆, h₇, h₈, h₉, -⟩ := h
  rw [LayerWeights.map, LayerWeights.map, h₁, h₂, h₃, h₄, h₅, h₆, h₇, h₈, h₉]

theorem LlamaWeights.map_congr {ι κ : Type} {f g : ι → κ} {w : LlamaWeights ι}
    (h : ∀ p ∈ w.toList, f p = g p) : w.map f = w.map g := by
  simp only [LlamaWeights.toList, SharedConstants.toList, List.forall_mem_append,
    List.forall_mem_cons] at h
  obtain ⟨⟨⟨h₁, h₂, h₃, h₄, -⟩, hembedding, hlayers⟩, houtputNorm, houtput, -⟩ := h
  have hmap : w.layers.map (LayerWeights.map f) = w.layers.map (LayerWeights.map g) :=
    List.map_congr_left fun layer hlayer =>
      LayerWeights.map_congr fun p hp => hlayers p (List.mem_flatMap.2 ⟨layer, hlayer, hp⟩)
  rw [LlamaWeights.map, LlamaWeights.map, SharedConstants.map, SharedConstants.map, h₁, h₂, h₃, h₄,
    hembedding, hmap, houtputNorm, houtput]

/-- **The executor runs the forward pass** on a graph: where every graph input is given, it answers
the logits that the pass computes from them, and answers nothing where the pass does not. -/
def RunsForward (graph : Graph) (tokenInput : ValueId) (w : LlamaWeights PlacedTensor) : Prop :=
  ∀ provider inputs resolver outputs, (∀ decl ∈ graph.inputs, decl.id.val ∈ inputs) →
    (executeWithResolver provider graph inputs resolver = .ok outputs ↔
      (∀ decl ∈ graph.inputs, GraphExecutor.Fits decl (assigned inputs decl.id.val)) ∧
        ∃ logits, forward provider (w.map (PlacedTensor.read (assigned inputs)))
            (assigned inputs tokenInput.val) = .ok logits ∧ outputs = [logits])

/-- **Every tensor has its place** in a graph: its own id, a value that can be bound, and no output
of the graph. -/
structure WellPlaced (graph : Graph) (w : LlamaWeights PlacedTensor) : Prop where
  valid : graph.validate = .ok ()
  sound : ∀ p ∈ w.toList, p.Sound
  ids_nodup : (w.toList.map PlacedTensor.tensorId).Nodup
  computed : ∀ value ∈ graph.outputs, value.val ∉ declared graph.inputs

section Parts

variable {ops : F32Ops} {f16ToF32 : UInt16 → F32} {sink : Option TensorShardSink}
  {source : GgufByteSource} {model : GgufModel}

theorem Lowered.runsForward {tokenInput logits : ValueId} {w : LlamaWeights PlacedTensor}
    {builder : GraphBuilder} {graph : Graph} (h : Lowered sink tokenInput logits w builder)
    (hfinish : builder.finish [logits] = .ok graph) :
    graph.inputs = ⟨tokenInput, .tensor .i32 1⟩ :: w.toList.map PlacedTensor.decl ∧
      RunsForward graph tokenInput w := by
  obtain ⟨_, hvalid, hgraph⟩ := bind_eq_ok.1 hfinish
  obtain rfl := pure_eq_ok.1 hgraph
  refine ⟨h.inputs_eq, fun provider inputs resolver outputs hgiven => ?_⟩
  refine executeWithResolver_eq_ok_iff (fun outputs => ∃ logits,
    forward provider (w.map (PlacedTensor.read (assigned inputs)))
      (assigned inputs tokenInput.val) = .ok logits ∧ outputs = [logits])
    (mapError_eq_ok.1 hvalid) hgiven fun assignment hsame hfollow => ?_
  have htokens : assignment tokenInput.val = assigned inputs tokenInput.val :=
    hsame _ (h.inputs_eq ▸ List.mem_cons_self)
  have hweights : w.map (PlacedTensor.read assignment) =
      w.map (PlacedTensor.read (assigned inputs)) :=
    LlamaWeights.map_congr fun p hp => hsame p.decl
      (h.inputs_eq ▸ List.mem_cons_of_mem _ (List.mem_map_of_mem hp))
  obtain ⟨hsolved, hvalue⟩ := h.computes provider assignment hfollow
  rw [hweights, htokens] at hsolved hvalue
  rw [hsolved]
  constructor
  · exact fun hboth => ⟨_, hboth⟩
  · rintro ⟨t, ht, rfl⟩
    rw [ht, ← hvalue t ht]
    exact ⟨rfl, rfl⟩

theorem Lowered.wellPlaced {tokenInput logits : ValueId} {w : LlamaWeights PlacedTensor}
    {builder : GraphBuilder} {graph : Graph} (h : Lowered sink tokenInput logits w builder)
    (hfinish : builder.finish [logits] = .ok graph) : WellPlaced graph w := by
  obtain ⟨_, hvalid, hgraph⟩ := bind_eq_ok.1 hfinish
  obtain rfl := pure_eq_ok.1 hgraph
  refine ⟨mapError_eq_ok.1 hvalid, h.sound, h.ids_nodup, ?_⟩
  obtain ⟨node, hnode, hlogits⟩ := h.computed
  obtain ⟨-, hscope, -⟩ := inScope_of_validate (mapError_eq_ok.1 hvalid)
  rw [List.forall_mem_singleton]
  exact fun hinput => hscope.not_mem hnode hlogits (SortedMap.mem_insertAll.2 (.inr hinput))

theorem lowerLlamaModelInternal_runsForward {parts : LoweredLlamaParts}
    (h : (lowerLlamaModelInternal ops f16ToF32 sink source model).run = some (.ok parts)) :
    ∃ w, WeightsFromSource ops f16ToF32 (SourceTensorTable.new source model) parts.config
        (UInt64.ofNat parts.vocabularySize) w ∧
      parts.graph.inputs =
        ⟨parts.tokenInput, .tensor .i32 1⟩ :: w.toList.map PlacedTensor.decl ∧
      parts.bindings = w.toList.map PlacedTensor.binding ∧
      (sink = none → parts.tensors = w.toList.map PlacedTensor.native) ∧
      RunsForward parts.graph parts.tokenInput w ∧ WellPlaced parts.graph w := by
  obtain ⟨_, -, h⟩ := run_bind_eq_ok.1 h
  obtain ⟨config, -, h⟩ := run_bind_eq_ok.1 h
  obtain ⟨sourceTokenizer, -, h⟩ := run_bind_eq_ok.1 h
  obtain ⟨tokenizer, -, h⟩ := run_bind_eq_ok.1 h
  obtain ⟨_, -, h⟩ := run_bind_eq_ok.1 h
  obtain ⟨_, -, h⟩ := run_bind_eq_ok.1 h
  obtain ⟨vocabulary, hvocabulary, h⟩ := run_bind_eq_ok.1 h
  obtain ⟨⟨⟨tokenInput, logits⟩, state⟩, hlower, h⟩ := run_bind_eq_ok.1 h
  obtain ⟨_, -, h⟩ := run_bind_eq_ok.1 h
  obtain ⟨graph, hfinish, h⟩ := run_bind_eq_ok.1 h
  obtain rfl := Except.ok.inj (Option.some.inj h)
  obtain ⟨w, hw, hlowered⟩ := run_lowerGraph hlower
  obtain ⟨hinputs, hruns⟩ := hlowered.runsForward (run_liftM_eq_ok.1 hfinish)
  have hsize : vocabulary = UInt64.ofNat tokenizer.tokens.length := by
    rw [← lenU64_eq_ok.1 (run_liftM_eq_ok.1 hvocabulary), UInt64.ofNat_toNat]
  exact ⟨w, hsize ▸ hw, hinputs, hlowered.bindings_eq, hlowered.tensors_eq, hruns,
    hlowered.wellPlaced (run_liftM_eq_ok.1 hfinish)⟩

end Parts

/-- What a lowering in memory keeps of its parts. -/
theorem exists_parts {ops : F32Ops} {f16ToF32 : UInt16 → F32} {source : GgufByteSource}
    {model : GgufModel} {lowered : LoweredLlamaModel}
    (h : (lowerLlamaModelFromSource ops f16ToF32 source model).run = some (.ok lowered)) :
    ∃ parts, (lowerLlamaModelInternal ops f16ToF32 none source model).run = some (.ok parts) ∧
      lowered = {
        config := parts.config
        graph := parts.graph
        tensors := parts.tensors
        tokenizer := parts.tokenizer
        tokenInput := parts.tokenInput
        distributionOutput := parts.distributionOutput
        vocabularySize := parts.vocabularySize
        bindings := parts.bindings } := by
  obtain ⟨parts, hparts, h⟩ := run_bind_eq_ok.1 h
  obtain ⟨_, -, h⟩ := run_bind_eq_ok.1 h
  exact ⟨parts, hparts, (Except.ok.inj (Option.some.inj h)).symm⟩

/-- **A lowered model executes its forward pass**, whatever the provider.  Its graph inputs are the
tokens and the tensors of the source, each transcoded and bound under its name, and the executor
answers the logits that the forward pass computes from what is given for them. -/
theorem lowered_runsForward (ops : F32Ops) (f16ToF32 : UInt16 → F32) (source : GgufByteSource)
    (model : GgufModel) (lowered : LoweredLlamaModel)
    (h : (lowerLlamaModelFromSource ops f16ToF32 source model).run = some (.ok lowered)) :
    ∃ w, WeightsFromSource ops f16ToF32 (SourceTensorTable.new source model) lowered.config
        (UInt64.ofNat lowered.vocabularySize) w ∧
      lowered.graph.inputs =
        ⟨lowered.tokenInput, .tensor .i32 1⟩ :: w.toList.map PlacedTensor.decl ∧
      lowered.bindings = w.toList.map PlacedTensor.binding ∧
      lowered.tensors = w.toList.map PlacedTensor.native ∧
      RunsForward lowered.graph lowered.tokenInput w := by
  obtain ⟨parts, hparts, rfl⟩ := exists_parts h
  obtain ⟨w, hw, hinputs, hbindings, htensors, hruns, -⟩ :=
    lowerLlamaModelInternal_runsForward hparts
  exact ⟨w, hw, hinputs, hbindings, htensors rfl, hruns⟩

namespace ForwardSample

/-- One token, one layer, and one head of two elements. -/
def entries : List (String × GgufValue) := PlanSample.entries.map fun entry =>
  if entry.1 = "llama.embedding_length" then (entry.1, .uint32 2) else entry

/-- Weights of single precision; without `output.weight` the embedding is the output too. -/
def tensors : List GgufTensorInfo :=
  ["blk.0.attn_norm.weight", "blk.0.ffn_norm.weight", "output_norm.weight"].map
    (fun name => ⟨name, [2], 0, 0⟩) ++
  ["blk.0.attn_q.weight", "blk.0.attn_k.weight", "blk.0.attn_v.weight",
    "blk.0.attn_output.weight"].map (fun name => ⟨name, [2, 2], 0, 0⟩) ++
  ["token_embd.weight", "blk.0.ffn_gate.weight", "blk.0.ffn_up.weight"].map
    (fun name => ⟨name, [2, 1], 0, 0⟩) ++ [⟨"blk.0.ffn_down.weight", [1, 2], 0, 0⟩]

def head : Bytes := (written (Gguf.putHeader entries tensors)).toOption.getD []

/-- All tensors have the same numbers, behind the head. -/
def file : Bytes := head ++ List.replicate ((32 - head.length % 32) % 32) 0 ++ List.replicate 16 0

def lowering (model : GgufModel) : Option (Except GgufError LoweredLlamaModel) :=
  (lowerLlamaModelFromSource F32Ops.words.ieee (·.toUInt32) (SliceGgufSource.source file) model).run

/-- The sizes of the sample. -/
def IsSample (lowered : LoweredLlamaModel) : Prop :=
  lowered.config.embeddingLength = 2 ∧ lowered.config.feedForwardLength = 1 ∧
    lowered.config.headDim = 2 ∧ lowered.vocabularySize = 1

instance (lowered : LoweredLlamaModel) : Decidable (IsSample lowered) :=
  inferInstanceAs (Decidable (_ ∧ _))

theorem exists_lowered : ∃ model lowered, parseGguf file = .ok model ∧
    lowering model = some (.ok lowered) ∧ IsSample lowered := by
  have hrun : (parseGguf file).toOption.any (fun model => (lowering model).any fun r =>
      r.toOption.any fun lowered => decide (IsSample lowered)) = true := by
    decide +kernel
  obtain ⟨model, hmodel, hlowered⟩ := (Option.any_eq_true _ _).1 hrun
  obtain ⟨r, hr, hsample⟩ := (Option.any_eq_true _ _).1 hlowered
  obtain ⟨lowered, hok, hsample⟩ := (Option.any_eq_true _ _).1 hsample
  obtain rfl := toOption_eq_some hok
  exact ⟨model, lowered, toOption_eq_some hmodel, hr, of_decide_eq_true hsample⟩

end ForwardSample

open ForwardSample in
/-- A small model, lowered to its forward pass. -/
theorem lowered_runsForward_sample : ∃ model lowered w,
    parseGguf file = .ok model ∧ lowering model = some (.ok lowered) ∧
      lowered.graph.inputs =
        ⟨lowered.tokenInput, .tensor .i32 1⟩ :: w.toList.map PlacedTensor.decl ∧
      RunsForward lowered.graph lowered.tokenInput w := by
  obtain ⟨model, lowered, hmodel, hlowered, -⟩ := exists_lowered
  obtain ⟨w, -, hinputs, -, -, hruns⟩ := lowered_runsForward F32Ops.words.ieee (·.toUInt32)
    (SliceGgufSource.source file) model lowered hlowered
  exact ⟨model, lowered, w, hmodel, hlowered, hinputs, hruns⟩

end NTD97
