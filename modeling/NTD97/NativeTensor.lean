import Mathlib
import NTD97.Capsule.Hash
import NTD97.Descriptors
import NTD97.GraphCodec

/-!
# NativeTensor — the NTP97 bytes of a tensor

    magic ▪ 80 ▪ version ▪ id ▪ binding ▪ types ▪ counts ▪ quantization ▪ hash ▪ shape ▪ payload

A shard holds one tensor.  The hash is that of the tensor's descriptor, as a table of its own under
the IR version of the build; a reader writes that table again, under its own version, and compares.
-/

namespace NTD97

open Guard Wire

/-- The letters `NTP97` and a zero byte. -/
def nativeTensorMagic : Bytes := [78, 84, 80, 57, 55, 0]

/-- The value that stands for a tensor that is not bound. -/
def noGraphBinding : UInt32 := 0xFFFFFFFF

/-- How the elements of a payload stand for numbers. -/
inductive QuantizationMetadata where
  | none
  | symmetricI8 (scaleBits : UInt32)
  | affineI8 (scaleBits : UInt32) (zeroPoint : Int32)
  deriving DecidableEq

/-- A tensor with its bytes, and the value of the graph that it is bound to. -/
structure NativeTensor where
  descriptor : TensorDescriptor
  graphValue : Option ValueId
  quantization : QuantizationMetadata
  payload : Bytes
  deriving DecidableEq

/-- Why a tensor is not written or not read, or a program not assembled. -/
inductive NativeTensorError where
  | descriptor (e : DescriptorError)
  | graph (e : IrCodecError)
  | truncated
  | invalidMagic
  | invalidHeader
  | unsupportedVersion (major minor : UInt16)
  | invalidDType (raw : UInt8)
  | invalidQuantization
  | invalidShape
  | payloadLengthMismatch (expected actual : UInt64)
  | descriptorIntegrityMismatch
  | nonCanonicalEncoding
  | missingGraph
  | multipleGraphs
  | missingDescriptorTable
  | multipleDescriptorTables
  | duplicateTensorId (id : UInt32)
  | duplicateGraphBinding (value : ValueId)
  | missingTensorShard (id : UInt32)
  | unknownTensorShard (id : UInt32)
  | tensorDescriptorMismatch (id : UInt32)
  | graphBindingMissing (value : ValueId)
  | graphBindingTypeMismatch (value : ValueId)
  | missingExternalContent (hash : Digest)
  | externalLengthMismatch (expected actual : UInt64)
  | externalIntegrityMismatch (hash : Digest)
  | unknownTensorChunk
  | overflow
  deriving DecidableEq

/-- Shards hold no texts, so no text can be invalid. -/
instance : WireError NativeTensorError where
  truncated := .truncated
  overflow := .overflow
  invalidUtf8 := .invalidHeader

namespace NativeTensor

/-- Writing a shard. -/
abbrev Encoder := Put NativeTensorError Unit

/-- Reading a shard. -/
abbrev Decoder := Get NativeTensorError

/-- The length of the fixed part, and the version `0.1`. -/
def headerLen : ℕ := 80
def nativeTensorMajor : UInt16 := 0
def nativeTensorMinor : UInt16 := 1

/-! ## What a tensor must satisfy

The payload has the length that type, shape and quantization ask for. -/

/-- The product of the dimensions, checked at each step. -/
def elementCount (shape : List UInt64) : Except NativeTensorError UInt64 :=
  shape.foldlM (fun count dimension => okOr (checkedMul64 count dimension) .invalidShape) 1

/-- The bytes of one element. -/
def dtypeWidth : DType → UInt64
  | .f32 | .i32 => 4
  | .f16 | .bf16 => 2
  | .i64 => 8
  | .i8 | .u8 | .bool => 1

/-- A scale is finite and positive. -/
def validateScale (scaleBits : UInt32) : Except NativeTensorError Unit :=
  refuse (¬ (f32IsFinite scaleBits ∧ f32IsPositive scaleBits)) .invalidQuantization

/-- The zero points of eight bits. -/
def InI8 (zeroPoint : Int32) : Prop := -128 ≤ zeroPoint ∧ zeroPoint ≤ 127

instance (zeroPoint : Int32) : Decidable (InI8 zeroPoint) := inferInstanceAs (Decidable (_ ∧ _))

/-- Only eight-bit elements are quantized. -/
def validateQuantizedI8 (dtype : DType) (scaleBits : UInt32) (zeroPoint : Int32) :
    Except NativeTensorError Unit := do
  refuse (dtype ≠ .i8 ∨ ¬ InI8 zeroPoint) .invalidQuantization
  validateScale scaleBits

/-- The length the payload must have. -/
def expectedLen (dtype : DType) (elements : UInt64) :
    QuantizationMetadata → Except NativeTensorError UInt64
  | .none => okOr (checkedMul64 elements (dtypeWidth dtype)) .overflow
  | .symmetricI8 scaleBits => do
    validateQuantizedI8 dtype scaleBits 0
    return elements
  | .affineI8 scaleBits zeroPoint => do
    validateQuantizedI8 dtype scaleBits zeroPoint
    return elements

/-- The stated and the expected length are those of the payload. -/
def validateTensor (tensor : NativeTensor) : Except NativeTensorError Unit := do
  let elements ← elementCount tensor.descriptor.shape
  let actual ← lenU64 tensor.payload.length
  refuse (actual ≠ tensor.descriptor.byteLen)
    (.payloadLengthMismatch tensor.descriptor.byteLen actual)
  let expected ← expectedLen tensor.descriptor.dtype elements tensor.quantization
  refuse (actual ≠ expected) (.payloadLengthMismatch expected actual)

/-! ## The fields of a shard

The fixed part has the counts; shape and payload follow. -/

/-- The fields of a shard as they stand in the file. -/
structure Shard where
  minor : UInt16
  id : UInt32
  graphValue : UInt32
  dtype : DType
  quantTag : UInt8
  elementCount : UInt64
  scaleBits : UInt32
  zeroPoint : Int32
  descriptorHash : Digest
  shape : List UInt64
  payload : Bytes

/-- The fields in the order of the file. -/
def encodeShard (s : Shard) : Encoder := do
  tell nativeTensorMagic
  pushU16 80
  pushU16 nativeTensorMajor
  pushU16 s.minor
  pushU32 s.id
  pushU32 s.graphValue
  pushU8 (dtypeTag s.dtype)
  pushU8 s.quantTag
  pushRank s.shape.length
  pushU8 0
  pushU64 s.elementCount
  pushUsize s.payload.length
  pushU32 s.scaleBits
  pushI32 s.zeroPoint
  tell s.descriptorHash.bytes
  s.shape.forM pushU64
  tell s.payload

/-- The element type with this code. -/
def decodeDtype (tag : UInt8) : Except NativeTensorError DType :=
  okOr (dtypeOf tag) (.invalidDType tag)

/-- A byte that names an element type. -/
def dtype : Decoder DType := do
  let tag ← u8
  decodeDtype tag

/-- A shape with as many elements as the fixed part says. -/
def countedShape (encodedElementCount : UInt64) (shape : List UInt64) :
    Except NativeTensorError (List UInt64) := do
  let elements ← elementCount shape
  refuse (elements ≠ encodedElementCount) .invalidShape
  return shape

/-- A shape of `rank` dimensions. -/
def shape (rank : ℕ) (encodedElementCount : UInt64) : Decoder (List UInt64) := do
  let shape ← getN u64 rank
  countedShape encodedElementCount shape

/-- The fields of a shard, before the descriptor is compared. -/
def shard : Decoder Shard := do
  let magic ← take 6
  refuse (magic ≠ nativeTensorMagic) .invalidMagic
  let len ← u16
  refuse (len ≠ 80) .invalidHeader
  let major ← u16
  let minor ← u16
  refuse (major ≠ nativeTensorMajor ∨ nativeTensorMinor < minor) (.unsupportedVersion major minor)
  let id ← u32
  let graphValue ← u32
  let dtype ← dtype
  let quantTag ← u8
  let rank ← rank
  let reserved ← u8
  refuse (reserved ≠ 0) .nonCanonicalEncoding
  let elementCount ← u64
  let payloadLen ← usize
  let scaleBits ← u32
  let zeroPoint ← i32
  let descriptorHash ← block 32
  let shape ← shape rank elementCount
  let payload ← take payloadLen
  return {
    minor, id, graphValue, dtype, quantTag, elementCount, scaleBits, zeroPoint, descriptorHash
    shape, payload }

/-- Tag, scale and zero point. -/
def encodeQuantization : QuantizationMetadata → Except NativeTensorError (UInt8 × UInt32 × Int32)
  | .none => return (0, 0, 0)
  | .symmetricI8 scaleBits => do
    validateScale scaleBits
    return (1, scaleBits, 0)
  | .affineI8 scaleBits zeroPoint => do
    validateScale scaleBits
    refuse (¬ InI8 zeroPoint) .invalidQuantization
    return (2, scaleBits, zeroPoint)

/-- Fields that the tag does not use must be zero. -/
def decodeQuantization (tag : UInt8) (scaleBits : UInt32) (zeroPoint : Int32) :
    Except NativeTensorError QuantizationMetadata :=
  if tag = 0 ∧ scaleBits = 0 ∧ zeroPoint = 0 then return .none
  else if tag = 1 ∧ zeroPoint = 0 then do
    validateScale scaleBits
    return .symmetricI8 scaleBits
  else if tag = 2 ∧ InI8 zeroPoint then do
    validateScale scaleBits
    return .affineI8 scaleBits zeroPoint
  else throw .invalidQuantization

end NativeTensor

open NativeTensor

/-- `encode_native_tensor`, of a build with the version `ir`. -/
def encodeNativeTensor (ir : IrVersion) (tensor : NativeTensor) :
    Except NativeTensorError Bytes := do
  validateTensor tensor
  let descriptorBytes ← (encodeTensorDescriptors ir [tensor.descriptor]).mapError .descriptor
  let _ ← lenU8 (ε := NativeTensorError) tensor.descriptor.shape.length
  let elementCount ← elementCount tensor.descriptor.shape
  let (quantTag, scaleBits, zeroPoint) ← encodeQuantization tensor.quantization
  refuse (2 ^ 64 ≤ NativeTensor.headerLen + tensor.descriptor.shape.length * 8 +
    tensor.payload.length) .overflow
  written (encodeShard {
    minor := nativeTensorMinor
    id := tensor.descriptor.id
    graphValue := (tensor.graphValue.map ValueId.val).getD noGraphBinding
    dtype := tensor.descriptor.dtype
    quantTag, elementCount, scaleBits, zeroPoint
    descriptorHash := sha256 descriptorBytes
    shape := tensor.descriptor.shape
    payload := tensor.payload })

/-- `decode_native_tensor`: the descriptor's hash is computed again under `ir`. -/
def decodeNativeTensor (ir : IrVersion) (bytes : Bytes) : Except NativeTensorError NativeTensor := do
  let s ← readAll shard .nonCanonicalEncoding bytes
  let quantization ← decodeQuantization s.quantTag s.scaleBits s.zeroPoint
  let tensor : NativeTensor := {
    descriptor := {
      id := s.id, dtype := s.dtype, shape := s.shape, byteLen := UInt64.ofNat s.payload.length }
    graphValue := if s.graphValue ≠ noGraphBinding then some ⟨s.graphValue⟩ else none
    quantization
    payload := s.payload }
  validateTensor tensor
  let canonicalDescriptor ←
    (encodeTensorDescriptors ir [tensor.descriptor]).mapError .descriptor
  refuse (sha256 canonicalDescriptor ≠ s.descriptorHash) .descriptorIntegrityMismatch
  return tensor

namespace NativeTensor

open Descriptors (table inverse_table emits_encodeTable encodeDescriptor)

/-! ## The law of the shard

A shard is read back whatever its descriptor's hash. -/

/-- The code of an element type is read back. -/
theorem codec_dtype : Codec (fun d => pushU8 (dtypeTag d)) dtype :=
  inverse_coded fun n d => by rw [decodeDtype, okOr_eq_ok, dtypeOf_eq_some]

/-- A counted shape is the shape itself. -/
theorem countedShape_eq_ok {encoded : UInt64} {shape shape' : List UInt64} :
    countedShape encoded shape = .ok shape' ↔ elementCount shape = .ok encoded ∧ shape = shape' := by
  simp only [countedShape, bind_eq_ok, exists_unit, refuse_eq_ok, pure_eq_ok, not_not]
  constructor
  · rintro ⟨_, hcount, rfl, rfl⟩
    exact ⟨hcount, rfl⟩
  · rintro ⟨hcount, rfl⟩
    exact ⟨encoded, hcount, rfl, rfl⟩

/-- A shape is read back, given rank and count. -/
theorem inverse_shape (rank : ℕ) (encoded : UInt64) :
    Inverse (fun l : List UInt64 => l.length = rank ∧ elementCount l = .ok encoded)
      (fun l => l.forM pushU64) (shape rank encoded) := by
  refine (inverse_getN inverse_u64 rank).resolve id ?_ ?_
  · rintro l ⟨hlen, hcount⟩
    exact ⟨⟨fun _ _ => trivial, hlen⟩, countedShape_eq_ok.2 ⟨hcount, rfl⟩⟩
  · rintro l l' ⟨-, hlen⟩ h
    obtain ⟨hcount, rfl⟩ := countedShape_eq_ok.1 h
    exact ⟨⟨hlen, hcount⟩, rfl⟩

/-- **A shard is read back** for every minor version that the build knows. -/
theorem inverse_shard :
    Inverse (fun s : Shard => s.minor ≤ nativeTensorMinor ∧
      elementCount s.shape = .ok s.elementCount) encodeShard shard := by
  refine (inverse_take 6).checked (fun _ => nativeTensorMagic) (fun _ _ => ⟨rfl, not_not.2 rfl⟩)
    fun _ _ hmagic => ?_
  refine inverse_u16.checked (fun _ => 80) (fun _ _ => ⟨trivial, not_not.2 rfl⟩)
    fun _ _ hlen => ?_
  refine inverse_u16.field (fun _ => nativeTensorMajor) (fun _ _ => trivial) fun _ _ => ?_
  refine inverse_u16.checked Shard.minor ?_ fun _ _ hversion => ?_
  · rintro s ⟨⟨⟨⟨hminor, -⟩, -⟩, -⟩, rfl⟩
    exact ⟨trivial, not_or.2 ⟨not_not.2 rfl, UInt16.not_lt.2 hminor⟩⟩
  refine inverse_u32.field Shard.id (fun _ _ => trivial) fun _ _ => ?_
  refine inverse_u32.field Shard.graphValue (fun _ _ => trivial) fun _ _ => ?_
  refine codec_dtype.field Shard.dtype (fun _ _ => trivial) fun _ _ => ?_
  refine inverse_u8.field Shard.quantTag (fun _ _ => trivial) fun _ _ => ?_
  refine inverse_rank.field (fun s : Shard => s.shape.length) (fun _ _ => trivial) fun _ _ => ?_
  refine inverse_u8.checked (fun _ => 0) (fun _ _ => ⟨trivial, not_not.2 rfl⟩)
    fun _ _ hreserved => ?_
  refine inverse_u64.field Shard.elementCount (fun _ _ => trivial) fun _ _ => ?_
  refine inverse_usize.field (fun s : Shard => s.payload.length) (fun _ _ => trivial) fun _ _ => ?_
  refine inverse_u32.field Shard.scaleBits (fun _ _ => trivial) fun _ _ => ?_
  refine inverse_i32.field Shard.zeroPoint (fun _ _ => trivial) fun _ _ => ?_
  refine (inverse_block 32).field Shard.descriptorHash (fun _ _ => trivial) fun _ _ => ?_
  refine (inverse_shape _ _).field Shard.shape ?_ fun _ hshape => ?_
  · rintro s ⟨⟨⟨⟨⟨⟨⟨⟨⟨⟨⟨⟨⟨⟨⟨⟨-, hcount⟩, -⟩, -⟩, -⟩, -⟩, -⟩, -⟩, -⟩, -⟩, hrank⟩, -⟩, rfl⟩, -⟩, -⟩,
    -⟩, -⟩
    exact ⟨hrank, hcount⟩
  refine (inverse_take _).last Shard.payload ?_ ?_
  · rintro ⟨⟩ ⟨⟨⟨⟨⟨⟨⟨⟨⟨⟨⟨⟨⟨⟨⟨⟨-, -⟩, -⟩, -⟩, rfl⟩, rfl⟩, rfl⟩, rfl⟩, rfl⟩, -⟩, -⟩, rfl⟩,
    hpayload⟩, rfl⟩, rfl⟩, rfl⟩, rfl⟩
    exact ⟨hpayload, rfl⟩
  · intro payload hpayload
    obtain ⟨hmajor, hminor⟩ := not_or.1 hversion
    exact ⟨⟨⟨⟨⟨⟨⟨⟨⟨⟨⟨⟨⟨⟨⟨⟨⟨⟨UInt16.not_lt.1 hminor, hshape.2⟩, (not_not.1 hmagic).symm⟩,
      (not_not.1 hlen).symm⟩, (not_not.1 hmajor).symm⟩, rfl⟩, rfl⟩, rfl⟩, rfl⟩, rfl⟩, hshape.1⟩,
      (not_not.1 hreserved).symm⟩, rfl⟩, hpayload⟩, rfl⟩, rfl⟩, rfl⟩, rfl⟩, rfl⟩

/-! ## Writing, then reading

The fields of a shard are those of its tensor, but for the binding that stands for none. -/

/-- The fields of a tensor's shard. -/
def shardOf (tensor : NativeTensor) (elementCount : UInt64) (code : UInt8 × UInt32 × Int32)
    (descriptorHash : Digest) : Shard where
  minor := nativeTensorMinor
  id := tensor.descriptor.id
  graphValue := (tensor.graphValue.map ValueId.val).getD noGraphBinding
  dtype := tensor.descriptor.dtype
  quantTag := code.1
  elementCount := elementCount
  scaleBits := code.2.1
  zeroPoint := code.2.2
  descriptorHash := descriptorHash
  shape := tensor.descriptor.shape
  payload := tensor.payload

/-- The table of one descriptor that a build of version `ir` hashes. -/
def descriptorBytes (ir : IrVersion) (descriptor : TensorDescriptor) : Bytes :=
  (encodeTensorDescriptors ir [descriptor]).toOption.getD []

/-- What a binding is read as. -/
def readBinding (graphValue : Option ValueId) : Option ValueId :=
  if (graphValue.map ValueId.val).getD noGraphBinding ≠ noGraphBinding then
    some ⟨(graphValue.map ValueId.val).getD noGraphBinding⟩
  else none

/-- A binding is read back if it is not the largest id. -/
theorem readBinding_eq_iff {graphValue : Option ValueId} :
    readBinding graphValue = graphValue ↔ graphValue ≠ some ⟨noGraphBinding⟩ := by
  obtain _ | ⟨⟨v⟩⟩ := graphValue
  · simp [readBinding]
  · by_cases hv : v = noGraphBinding
    · simp [readBinding, hv]
    · simp [readBinding, hv]

/-- The quantization is read back. -/
theorem decodeQuantization_of_encode {quantization : QuantizationMetadata}
    {code : UInt8 × UInt32 × Int32} (h : encodeQuantization quantization = .ok code) :
    decodeQuantization code.1 code.2.1 code.2.2 = .ok quantization := by
  cases quantization with
  | none =>
    obtain rfl := pure_eq_ok.1 h
    rfl
  | symmetricI8 scaleBits =>
    simp only [encodeQuantization, bind_eq_ok, exists_unit, pure_eq_ok] at h
    obtain ⟨hscale, rfl⟩ := h
    have hone : ¬ ((1 : UInt8) = 0 ∧ scaleBits = 0 ∧ (0 : Int32) = 0) :=
      fun h => absurd h.1 (by decide)
    rw [decodeQuantization, if_neg hone, if_pos ⟨rfl, rfl⟩, hscale]
    rfl
  | affineI8 scaleBits zeroPoint =>
    simp only [encodeQuantization, bind_eq_ok, exists_unit, refuse_eq_ok, pure_eq_ok, not_not] at h
    obtain ⟨hscale, hzero, rfl⟩ := h
    have hzero' : ¬ ((2 : UInt8) = 0 ∧ scaleBits = 0 ∧ zeroPoint = 0) :=
      fun h => absurd h.1 (by decide)
    have hone : ¬ ((2 : UInt8) = 1 ∧ zeroPoint = 0) := fun h => absurd h.1 (by decide)
    rw [decodeQuantization, if_neg hzero', if_neg hone, if_pos ⟨rfl, hzero⟩, hscale]
    rfl

section Shard

variable {ir ir' : IrVersion} {tensor tensor' : NativeTensor} {descriptor : TensorDescriptor}
  {b d : Bytes}

/-- Whether a descriptor can be written does not depend on the version. -/
theorem encodeTensorDescriptors_any (h : encodeTensorDescriptors ir [descriptor] = .ok d) :
    encodeTensorDescriptors ir' [descriptor] = .ok (descriptorBytes ir' descriptor) := by
  obtain ⟨rest, hrest, -⟩ := emits_encodeTable.1 (written_eq_ok.1 h)
  have hany : encodeTensorDescriptors ir' [descriptor] = .ok _ :=
    written_eq_ok.2 (emits_encodeTable.2 ⟨rest, hrest, rfl⟩)
  rw [descriptorBytes, hany]
  rfl

/-- A rank that was written fits in a byte. -/
theorem lenU8_of_encode (h : encodeTensorDescriptors ir [descriptor] = .ok d) :
    ∃ rank, lenU8 (ε := NativeTensorError) descriptor.shape.length = .ok rank := by
  obtain ⟨rest, hrest, -⟩ := emits_encodeTable.1 (written_eq_ok.1 h)
  obtain ⟨count, -, hlist⟩ := emits_lift_bind.1 hrest
  obtain ⟨b₁, -, b₂, hrecords, -⟩ := emits_bind.1 hlist
  obtain ⟨record, hrecord, -⟩ := emits_bind.1 hrecords
  simp only [encodeDescriptor, pushRank, emits_bind, emits_lift_bind] at hrecord
  obtain ⟨_, -, _, ⟨_, -, _, ⟨_, ⟨rank, hrank, -⟩, -⟩, -⟩, -⟩ := hrecord
  exact ⟨rank, lenU8_eq_ok.2 (lenU8_eq_ok.1 hrank)⟩

/-- **What is written for a tensor**: the shard of its fields. -/
theorem encodeNativeTensor_eq_ok : encodeNativeTensor ir tensor = .ok b ↔
    validateTensor tensor = .ok () ∧
    encodeTensorDescriptors ir [tensor.descriptor] = .ok (descriptorBytes ir tensor.descriptor) ∧
    headerLen + tensor.descriptor.shape.length * 8 + tensor.payload.length < 2 ^ 64 ∧
    ∃ elements code, elementCount tensor.descriptor.shape = .ok elements ∧
      encodeQuantization tensor.quantization = .ok code ∧
      Emits (encodeShard (shardOf tensor elements code
        (sha256 (descriptorBytes ir tensor.descriptor)))) b := by
  simp only [encodeNativeTensor, bind_eq_ok, exists_unit, refuse_eq_ok, mapError_eq_ok,
    written_eq_ok, not_le]
  constructor
  · rintro ⟨hvalid, d, hd, rank, -, elements, helements, code, hcode, hfits, hb⟩
    have hd' : encodeTensorDescriptors ir [tensor.descriptor] =
        .ok (descriptorBytes ir tensor.descriptor) := encodeTensorDescriptors_any hd
    obtain rfl := Except.ok.inj (hd.symm.trans hd')
    exact ⟨hvalid, hd', hfits, elements, code, helements, hcode, hb⟩
  · rintro ⟨hvalid, hd, hfits, elements, code, helements, hcode, hb⟩
    obtain ⟨rank, hrank⟩ := lenU8_of_encode hd
    exact ⟨hvalid, _, hd, rank, hrank, elements, helements, code, hcode, hfits, hb⟩

/-- A valid tensor has the payload its descriptor announces. -/
theorem byteLen_eq (h : validateTensor tensor = .ok ()) :
    UInt64.ofNat tensor.payload.length = tensor.descriptor.byteLen := by
  simp only [validateTensor, bind_eq_ok, exists_unit, refuse_eq_ok, not_not, lenU64_eq_ok] at h
  obtain ⟨_, -, actual, hactual, rfl, -⟩ := h
  rw [← hactual, UInt64.ofNat_toNat]

/-- **Reading what another build wrote**: the hashes of the descriptor are compared, and a binding
to the largest id is lost. -/
theorem decodeNativeTensor_of_encode (h : encodeNativeTensor ir tensor = .ok b) :
    decodeNativeTensor ir' b = .ok tensor' ↔
      sha256 (descriptorBytes ir' tensor.descriptor) =
        sha256 (descriptorBytes ir tensor.descriptor) ∧
      { tensor with graphValue := readBinding tensor.graphValue } = tensor' := by
  obtain ⟨hvalid, hd, -, elements, code, helements, hcode, hb⟩ := encodeNativeTensor_eq_ok.1 h
  have hread : readAll shard .nonCanonicalEncoding b = .ok (shardOf tensor elements code
      (sha256 (descriptorBytes ir tensor.descriptor))) :=
    inverse_shard.readAll_eq_ok.2 ⟨⟨UInt16.le_refl _, helements⟩, written_eq_ok.2 hb⟩
  have hdescriptor : (⟨tensor.descriptor.id, tensor.descriptor.dtype, tensor.descriptor.shape,
      UInt64.ofNat tensor.payload.length⟩ : TensorDescriptor) = tensor.descriptor := by
    rw [byteLen_eq hvalid]
  have hvalid' : validateTensor { tensor with graphValue := readBinding tensor.graphValue } =
      .ok () := hvalid
  simp only [decodeNativeTensor, hread, bind_eq_ok, Except.ok.injEq, exists_eq_left', shardOf,
    decodeQuantization_of_encode hcode, hdescriptor, exists_unit, refuse_eq_ok, mapError_eq_ok,
    not_not, pure_eq_ok, encodeTensorDescriptors_any hd]
  exact ⟨fun h => h.2, fun h => ⟨hvalid', h⟩⟩

/-- A tensor is read back as it was if its binding is. -/
theorem readBinding_tensor_eq_iff : { tensor with graphValue := readBinding tensor.graphValue } =
    tensor ↔ tensor.graphValue ≠ some ⟨noGraphBinding⟩ := by
  rw [← readBinding_eq_iff]
  constructor
  · intro h
    exact congrArg NativeTensor.graphValue h
  · intro h
    rw [h]

/-- Different minors make different tables. -/
theorem descriptorBytes_ne {major minor minor' : UInt16} (hle : minor ≤ minor')
    (hne : minor ≠ minor')
    (h : encodeTensorDescriptors ir [descriptor] = .ok d) :
    descriptorBytes ⟨major, minor⟩ descriptor ≠ descriptorBytes ⟨major, minor'⟩ descriptor := by
  intro heq
  have hread : ∀ {m}, m ≤ minor' → readAll (table ⟨major, minor'⟩) .nonCanonicalEncoding
      (descriptorBytes ⟨major, m⟩ descriptor) = .ok (⟨major, m⟩, [descriptor]) := fun hm =>
    (inverse_table ⟨major, minor'⟩).readAll_eq_ok.2 ⟨⟨rfl, hm⟩, encodeTensorDescriptors_any h⟩
  have hversions := (hread hle).symm.trans ((congrArg _ heq).trans (hread (UInt16.le_refl _)))
  obtain ⟨-, rfl⟩ := IrVersion.mk.inj (Prod.mk.inj (Except.ok.inj hversions)).1
  exact hne rfl

end Shard

end NativeTensor

/-! ## What a shard is read as

The smallest tensor, bound or not, as its file. -/

namespace TensorSample

/-- One byte, bound or not. -/
def tensor (graphValue : Option ValueId) : NativeTensor where
  descriptor := { id := 1, dtype := .u8, shape := [1], byteLen := 1 }
  graphValue := graphValue
  quantization := .none
  payload := [7]

/-- The file of the tensor under a binding. -/
def file (ir : IrVersion) (graphValue : Option ValueId) : Bytes :=
  (encodeNativeTensor ir (tensor graphValue)).toOption.getD []

/-- The tensor is written as its file. -/
theorem encode_tensor (ir : IrVersion) (graphValue : Option ValueId) :
    encodeNativeTensor ir (tensor graphValue) = .ok (file ir graphValue) := by
  rfl

end TensorSample

open TensorSample

/-- **Losslessness of NTP97.**  A written tensor is read back exactly if it is not bound to the value
whose id stands for no binding. -/
theorem ntp97_lossless_iff (ir : IrVersion) (t : NativeTensor) (b : Bytes)
    (h : encodeNativeTensor ir t = .ok b) :
    decodeNativeTensor ir b = .ok t ↔ t.graphValue ≠ some ⟨noGraphBinding⟩ := by
  rw [decodeNativeTensor_of_encode h, readBinding_tensor_eq_iff, eq_self, true_and]

theorem ntp97_lossless_iff_bound :
    decodeNativeTensor .current (file .current (some ⟨3⟩)) = .ok (tensor (some ⟨3⟩)) :=
  (ntp97_lossless_iff .current (tensor (some ⟨3⟩)) _ (encode_tensor ..)).2 (by decide)

theorem not_lossless_largest : ¬ ∀ t b, encodeNativeTensor .current t = .ok b →
    decodeNativeTensor .current b = .ok t := by
  intro h
  have hread := h (tensor (some ⟨noGraphBinding⟩)) _ (encode_tensor ..)
  obtain ⟨-, htensor⟩ := (decodeNativeTensor_of_encode (encode_tensor ..)).1 hread
  exact readBinding_tensor_eq_iff.1 htensor rfl

/-- **Readability of NTP97 across minor versions.**  A later build reads a tensor exactly if, beside
that, its minor version is the writer's or the two tables of the descriptor collide. -/
theorem ntp97_readable_iff (major m m' : UInt16) (hle : m ≤ m') (t : NativeTensor) (b : Bytes)
    (h : encodeNativeTensor ⟨major, m⟩ t = .ok b) :
    decodeNativeTensor ⟨major, m'⟩ b = .ok t ↔ t.graphValue ≠ some ⟨noGraphBinding⟩ ∧
      (m = m' ∨ Collides (descriptorBytes ⟨major, m'⟩ t.descriptor)
        (descriptorBytes ⟨major, m⟩ t.descriptor)) := by
  rw [decodeNativeTensor_of_encode h, readBinding_tensor_eq_iff, and_comm]
  refine and_congr_right fun _ => ⟨fun hhash => ?_, ?_⟩
  · by_cases hm : m = m'
    · exact .inl hm
    · have hd := (encodeNativeTensor_eq_ok.1 h).2.1
      exact .inr ⟨(descriptorBytes_ne hle hm hd).symm, hhash⟩
  · rintro (rfl | hcollides)
    · rfl
    · exact hcollides.2

theorem ntp97_readable_iff_same :
    decodeNativeTensor ⟨0, 5⟩ (file ⟨0, 5⟩ (some ⟨3⟩)) = .ok (tensor (some ⟨3⟩)) :=
  (ntp97_readable_iff 0 5 5 (by decide) (tensor (some ⟨3⟩)) _ (encode_tensor ..)).2
    ⟨by decide, .inl rfl⟩

theorem not_readable_later : ¬ ∀ major m m' t b, m ≤ m' →
    encodeNativeTensor ⟨major, m⟩ t = .ok b → decodeNativeTensor ⟨major, m'⟩ b = .ok t := by
  intro h
  have hread := h 0 4 5 (tensor none) _ (by decide) (encode_tensor ..)
  obtain ⟨hhash, -⟩ := (decodeNativeTensor_of_encode (encode_tensor ..)).1 hread
  have hne : sha256 (descriptorBytes ⟨0, 5⟩ (tensor none).descriptor) ≠
      sha256 (descriptorBytes ⟨0, 4⟩ (tensor none).descriptor) := by
    decide +kernel
  exact hne hhash

end NTD97
