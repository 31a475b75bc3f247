import Mathlib
import NTD97.Activation
import NTD97.Executor

/-!
# Activation/Resolver — tensors on demand, out of a shard store

    graph value ──▸ shard ──store──▸ bytes ──decode──▸ native tensor ──load──▸ tensor

A resolver that is made of an activation reads the shard of a graph value when it is asked for it,
and checks again what the activation has checked.
-/

namespace NTD97

open Guard Wire

namespace FileTensorShardStore

def readVerified (store : FileTensorShardStore) (reference : TensorShardRef) :
    Except GgufError Bytes := store.readHashVerified reference.hash reference.logicalLen

end FileTensorShardStore

/-- What the loader is told of the quants of a tensor. -/
def quantizationParams : QuantizationMetadata → QuantizationParams
  | .none => .none
  | .symmetricI8 scaleBits => .symmetricI8 scaleBits
  | .affineI8 scaleBits zeroPoint => .affineI8 scaleBits zeroPoint

/-- The tensor that the loader makes of a native one. -/
def NativeTensor.load (ops : F32Ops) (native : NativeTensor) : Except TensorLoadError Tensor :=
  TensorLoader.load ops native.descriptor.dtype native.descriptor.shape
    (quantizationParams native.quantization) native.payload

structure FileBackedTensorResolver where
  store : FileTensorShardStore
  tensorShards : BTreeMap UInt32 TensorShardRef

namespace FileBackedTensorResolver

def fromActivation (store : FileTensorShardStore) (activation : ThinGenerativeActivation) :
    FileBackedTensorResolver := ⟨store, activation.tensorShards⟩

variable (ops : F32Ops) (self : FileBackedTensorResolver)

/-- The tensor of a shard that is bound to a value. -/
def resolveShard (value : ValueId) (reference : TensorShardRef) :
    Except TensorResolveError Tensor := do
  let bytes ← (self.store.readVerified reference).mapError fun _ => .invalid
  let native ← (decodeNativeTensor .current bytes).mapError fun _ => .invalid
  refuse (native.descriptor ≠ reference.descriptor ∨ native.graphValue ≠ some value) .invalid
  (native.load ops).mapError fun _ => .invalid

def resolve : TensorResolver := fun value =>
  match self.tensorShards[value.val]? with
  | none => return none
  | some reference => do
    let tensor ← self.resolveShard ops value reference
    return some tensor

variable {ops self} {value : ValueId} {t : Tensor}

theorem resolveShard_eq_ok {reference : TensorShardRef} :
    self.resolveShard ops value reference = .ok t ↔ ∃ bytes native,
      self.store.readHashVerified reference.hash reference.logicalLen = .ok bytes ∧
      decodeNativeTensor .current bytes = .ok native ∧
      native.descriptor = reference.descriptor ∧ native.graphValue = some value ∧
      native.load ops = .ok t := by
  simp only [resolveShard, FileTensorShardStore.readVerified, bind_eq_ok, exists_unit,
    mapError_eq_ok, refuse_eq_ok, not_or, not_not, and_assoc, exists_and_left]

/-- **What a resolver supplies** for a value: the tensor of its shard. -/
theorem resolve_eq_some : self.resolve ops value = .ok (some t) ↔ ∃ reference,
    self.tensorShards[value.val]? = some reference ∧
      self.resolveShard ops value reference = .ok t := by
  rw [resolve]
  cases self.tensorShards[value.val]? with
  | none => exact ⟨fun h => (nomatch h), fun h => (nomatch h.choose_spec.1)⟩
  | some reference =>
    constructor
    · intro h
      obtain ⟨u, hu, h⟩ := bind_eq_ok.1 h
      obtain rfl := Option.some.inj (pure_eq_ok.1 h)
      exact ⟨reference, rfl, hu⟩
    · rintro ⟨_, hreference, h⟩
      obtain rfl := Option.some.inj hreference
      exact bind_eq_ok.2 ⟨t, h, rfl⟩

end FileBackedTensorResolver

end NTD97
