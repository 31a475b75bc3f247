import Mathlib
import NTD97.Graph
import NTD97.Lib.Wire

/-!
# Descriptors — tensor tables and descriptor frames

    NTS97    magic ▪ 16 ▪ version of the IR ▪ count ▪ records
    NDF97    magic ▪ 32 ▪ kind ▪ version ▪ two lengths ▪ format ▪ payload

The table is written under the IR version of the build that writes it, and read by the builds whose
version can read it; that version is an argument here.
-/

namespace NTD97

open Guard Wire

/-- The letters `NTS97` and a zero byte. -/
def tensorDescriptorMagic : Bytes := [78, 84, 83, 57, 55, 0]
/-- The letters `NDF97` and a zero byte. -/
def descriptorFrameMagic : Bytes := [78, 68, 70, 57, 55, 0]

/-- A tensor by its id, without its bytes. -/
structure TensorDescriptor where
  id : UInt32
  dtype : DType
  shape : List UInt64
  byteLen : UInt64
  deriving DecidableEq

/-- What a frame describes. -/
inductive DescriptorFrameKind where
  | tokenizer
  | codec
  deriving DecidableEq

/-- A payload and the name of the format it is in. -/
structure DescriptorFrame where
  kind : DescriptorFrameKind
  format : String
  payload : Bytes
  deriving DecidableEq

/-- Why a table or a frame is not written or not read. -/
inductive DescriptorError where
  | truncated
  | invalidMagic
  | invalidHeader
  | invalidKind (raw : UInt8)
  | invalidDType (raw : UInt8)
  | invalidUtf8
  | unsupportedVersion (major minor : UInt16)
  | nonCanonicalEncoding
  | overflow
  deriving DecidableEq

instance : WireError DescriptorError where
  truncated := .truncated
  overflow := .overflow
  invalidUtf8 := .invalidUtf8

namespace Descriptors

/-- The version of the frames; the tables carry that of the graph language. -/
def descriptorMajor : UInt16 := 0
def descriptorMinor : UInt16 := 1

/-- Writing a table or a frame. -/
abbrev Encoder := Put DescriptorError Unit

/-- Reading a table or a frame. -/
abbrev Decoder := Get DescriptorError

/-! ## Tensor tables

A record is read only if its reserved bytes are zero. -/

/-- The element type with this code. -/
def decodeDtype (tag : UInt8) : Except DescriptorError DType :=
  okOr (dtypeOf tag) (.invalidDType tag)

/-- A byte that names an element type. -/
def dtype : Decoder DType := do
  let tag ← u8
  decodeDtype tag

/-- The shape comes last; its rank stands in front, in one byte. -/
def encodeDescriptor (descriptor : TensorDescriptor) : Encoder := do
  pushU32 descriptor.id
  pushU8 (dtypeTag descriptor.dtype)
  pushRank descriptor.shape.length
  pushU16 0
  pushU64 descriptor.byteLen
  descriptor.shape.forM pushU64

/-- One record of a table. -/
def descriptor : Decoder TensorDescriptor := do
  let id ← u32
  let dtype ← dtype
  let rank ← rank
  let reserved ← u16
  refuse (reserved ≠ 0) .nonCanonicalEncoding
  let byteLen ← u64
  let shape ← getN u64 rank
  return { id, dtype, shape, byteLen }

/-- A table and the version it was written under. -/
def encodeTable (table : IrVersion × List TensorDescriptor) : Encoder := do
  tell tensorDescriptorMagic
  pushU16 16
  pushU16 table.1.major
  pushU16 table.1.minor
  pushList encodeDescriptor table.2

/-- A table of a version that the build `ir` can read. -/
def table (ir : IrVersion) : Decoder (IrVersion × List TensorDescriptor) := do
  let magic ← take 6
  refuse (magic ≠ tensorDescriptorMagic) .invalidMagic
  let len ← u16
  refuse (len ≠ 16) .invalidHeader
  let major ← u16
  let minor ← u16
  refuse (¬ ir.canRead ⟨major, minor⟩) (.unsupportedVersion major minor)
  let descriptors ← getList descriptor
  return (⟨major, minor⟩, descriptors)

/-- The code of an element type is read back. -/
theorem codec_dtype : Codec (fun d => pushU8 (dtypeTag d)) dtype :=
  inverse_coded fun n d => by rw [decodeDtype, okOr_eq_ok, dtypeOf_eq_some]

/-- A record is read back. -/
theorem codec_descriptor : Codec encodeDescriptor descriptor := by
  refine inverse_u32.field TensorDescriptor.id (fun _ _ => trivial) fun _ _ => ?_
  refine codec_dtype.field TensorDescriptor.dtype (fun _ _ => trivial) fun _ _ => ?_
  refine inverse_rank.field (fun d : TensorDescriptor => d.shape.length) (fun _ _ => trivial)
    fun _ _ => ?_
  refine inverse_u16.checked (fun _ => 0) (fun _ _ => ⟨trivial, not_not.2 rfl⟩)
    fun reserved _ hreserved => ?_
  refine inverse_u64.field TensorDescriptor.byteLen (fun _ _ => trivial) fun _ _ => ?_
  refine (inverse_getN inverse_u64 _).last TensorDescriptor.shape ?_ ?_
  · rintro ⟨⟩ ⟨⟨⟨⟨⟨-, rfl⟩, rfl⟩, hrank⟩, -⟩, rfl⟩
    exact ⟨⟨fun _ _ => trivial, hrank⟩, rfl⟩
  · intro shape hshape
    exact ⟨⟨⟨⟨⟨⟨trivial, rfl⟩, rfl⟩, hshape.2⟩, (not_not.1 hreserved).symm⟩, rfl⟩, rfl⟩

/-- **A table is read back** by a build that can read its version. -/
theorem inverse_table (ir : IrVersion) :
    Inverse (fun t : IrVersion × List TensorDescriptor => ir.canRead t.1) encodeTable (table ir) := by
  refine (inverse_take 6).checked (fun _ => tensorDescriptorMagic)
    (fun _ _ => ⟨rfl, not_not.2 rfl⟩) fun _ _ hmagic => ?_
  refine inverse_u16.checked (fun _ => 16) (fun _ _ => ⟨trivial, not_not.2 rfl⟩)
    fun _ _ hlen => ?_
  refine inverse_u16.field (fun t : IrVersion × List TensorDescriptor => t.1.major)
    (fun _ _ => trivial) fun _ _ => ?_
  refine inverse_u16.checked (fun t : IrVersion × List TensorDescriptor => t.1.minor) ?_
    fun _ _ hread => ?_
  · rintro t ⟨⟨⟨hread, -⟩, -⟩, rfl⟩
    exact ⟨trivial, not_not.2 hread⟩
  refine (codec_list codec_descriptor).last Prod.snd ?_ ?_
  · rintro ⟨⟨_, _⟩, _⟩ ⟨⟨-, rfl⟩, rfl⟩
    exact ⟨trivial, rfl⟩
  · intro descriptors _
    exact ⟨⟨⟨⟨⟨not_not.1 hread, (not_not.1 hmagic).symm⟩, (not_not.1 hlen).symm⟩, rfl⟩, rfl⟩, rfl⟩

/-- The version stands in the header, and nothing else depends on it. -/
theorem emits_encodeTable {ir : IrVersion} {descriptors : List TensorDescriptor} {b : Bytes} :
    Emits (encodeTable (ir, descriptors)) b ↔
      ∃ rest, Emits (pushList encodeDescriptor descriptors) rest ∧ b = tensorDescriptorMagic ++
        (leBytes 2 16 ++ (leBytes 2 ir.major.toNat ++ (leBytes 2 ir.minor.toNat ++ rest))) := by
  simp only [encodeTable, pushU16, emits_bind, emits_tell, exists_eq_left']
  constructor
  · rintro ⟨_, ⟨_, ⟨_, ⟨rest, hrest, rfl⟩, rfl⟩, rfl⟩, rfl⟩
    exact ⟨rest, hrest, rfl⟩
  · rintro ⟨rest, hrest, rfl⟩
    exact ⟨_, ⟨_, ⟨_, ⟨rest, hrest, rfl⟩, rfl⟩, rfl⟩, rfl⟩

/-! ## Descriptor frames

The lengths of format and payload stand in the fixed part, so nothing in a frame is delimited. -/

/-- The byte of a frame's kind. -/
def kindByte : DescriptorFrameKind → UInt8
  | .tokenizer => 1
  | .codec => 2

/-- The kind of a frame by its byte. -/
def kindOf : UInt8 → Except DescriptorError DescriptorFrameKind
  | 1 => .ok .tokenizer
  | 2 => .ok .codec
  | other => .error (.invalidKind other)

/-- A byte that names a kind. -/
def frameKind : Decoder DescriptorFrameKind := do
  let raw ← u8
  kindOf raw

/-- A frame and the minor version it was written under. -/
def encodeFrame (frame : UInt16 × DescriptorFrame) : Encoder := do
  tell descriptorFrameMagic
  pushU16 32
  pushU8 (kindByte frame.2.kind)
  pushU8 0
  pushU16 descriptorMajor
  pushU16 frame.1
  pushU16 0
  pushCount (utf8 frame.2.format).length
  pushUsize frame.2.payload.length
  pushU32 0
  tell (utf8 frame.2.format)
  tell frame.2.payload

/-- A format's name is a text. -/
def formatOf (b : Bytes) : Except DescriptorError String := okOr (ofUtf8 b) .invalidUtf8

/-- A name of `len` bytes. -/
def format (len : ℕ) : Decoder String := do
  let b ← take len
  formatOf b

/-- A frame together with the minor version it states. -/
def frame : Decoder (UInt16 × DescriptorFrame) := do
  let magic ← take 6
  refuse (magic ≠ descriptorFrameMagic) .invalidMagic
  let len ← u16
  refuse (len ≠ 32) .invalidHeader
  let kind ← frameKind
  let reserved ← u8
  refuse (reserved ≠ 0) .nonCanonicalEncoding
  let major ← u16
  let minor ← u16
  refuse (major ≠ descriptorMajor ∨ descriptorMinor < minor) (.unsupportedVersion major minor)
  let reserved ← u16
  refuse (reserved ≠ 0) .nonCanonicalEncoding
  let formatLen ← count
  let payloadLen ← usize
  let reserved ← u32
  refuse (reserved ≠ 0) .nonCanonicalEncoding
  let format ← format formatLen
  let payload ← take payloadLen
  return (minor, { kind, format, payload })

/-- The kind is read back. -/
theorem codec_frameKind : Codec (fun k => pushU8 (kindByte k)) frameKind := by
  refine inverse_coded fun n k => ⟨fun h => ?_, ?_⟩
  · unfold kindOf at h
    split at h <;> cases h <;> rfl
  · rintro rfl
    cases k <;> rfl

/-- The name is read back, given its length. -/
theorem inverse_format (n : ℕ) :
    Inverse (fun s => (utf8 s).length = n) (fun s => tell (utf8 s)) (format n) := by
  refine (inverse_take n).resolve utf8 (fun s hlen => ⟨hlen, ?_⟩) fun b s hlen h => ?_
  · exact okOr_eq_ok.2 (ofUtf8_eq_some.2 rfl)
  · obtain rfl := ofUtf8_eq_some.1 (okOr_eq_ok.1 h)
    exact ⟨hlen, rfl⟩

/-- **A frame is read back** for every minor version that the build knows. -/
theorem inverse_frame :
    Inverse (fun f : UInt16 × DescriptorFrame => f.1 ≤ descriptorMinor) encodeFrame frame := by
  refine (inverse_take 6).checked (fun _ => descriptorFrameMagic) (fun _ _ => ⟨rfl, not_not.2 rfl⟩)
    fun _ _ hmagic => ?_
  refine inverse_u16.checked (fun _ => 32) (fun _ _ => ⟨trivial, not_not.2 rfl⟩)
    fun _ _ hlen => ?_
  refine codec_frameKind.field (fun f : UInt16 × DescriptorFrame => f.2.kind) (fun _ _ => trivial)
    fun _ _ => ?_
  refine inverse_u8.checked (fun _ => 0) (fun _ _ => ⟨trivial, not_not.2 rfl⟩) fun _ _ h₁ => ?_
  refine inverse_u16.field (fun _ => descriptorMajor) (fun _ _ => trivial) fun major _ => ?_
  refine inverse_u16.checked Prod.fst ?_ fun minor _ hversion => ?_
  · rintro f ⟨⟨⟨⟨⟨hminor, -⟩, -⟩, -⟩, -⟩, rfl⟩
    exact ⟨trivial, not_or.2 ⟨not_not.2 rfl, UInt16.not_lt.2 hminor⟩⟩
  refine inverse_u16.checked (fun _ => 0) (fun _ _ => ⟨trivial, not_not.2 rfl⟩) fun _ _ h₂ => ?_
  refine inverse_count.field (fun f : UInt16 × DescriptorFrame => (utf8 f.2.format).length)
    (fun _ _ => trivial) fun _ _ => ?_
  refine inverse_usize.field (fun f : UInt16 × DescriptorFrame => f.2.payload.length)
    (fun _ _ => trivial) fun _ _ => ?_
  refine inverse_u32.checked (fun _ => 0) (fun _ _ => ⟨trivial, not_not.2 rfl⟩) fun _ _ h₃ => ?_
  refine (inverse_format _).field (fun f : UInt16 × DescriptorFrame => f.2.format) ?_
    fun _ hformat => ?_
  · rintro f ⟨⟨⟨-, hformat⟩, -⟩, -⟩
    exact hformat
  refine (inverse_take _).last (fun f : UInt16 × DescriptorFrame => f.2.payload) ?_ ?_
  · rintro ⟨_, ⟨⟩⟩ ⟨⟨⟨⟨⟨⟨⟨⟨⟨-, rfl⟩, -⟩, -⟩, rfl⟩, -⟩, -⟩, hpayload⟩, -⟩, rfl⟩
    exact ⟨hpayload, rfl⟩
  · intro payload hpayload
    obtain ⟨hmajor, hminor⟩ := not_or.1 hversion
    exact ⟨⟨⟨⟨⟨⟨⟨⟨⟨⟨⟨⟨UInt16.not_lt.1 hminor, (not_not.1 hmagic).symm⟩, (not_not.1 hlen).symm⟩, rfl⟩,
      (not_not.1 h₁).symm⟩, (not_not.1 hmajor).symm⟩, rfl⟩, (not_not.1 h₂).symm⟩, hformat⟩, hpayload⟩,
      (not_not.1 h₃).symm⟩, rfl⟩, rfl⟩

/-- The version a frame states. -/
def frameVersion (b : Bytes) : UInt16 × UInt16 := versionAt b 10

/-- The version stands at offset `10`. -/
theorem frameVersion_of_emits {frame : UInt16 × DescriptorFrame} {b : Bytes}
    (h : Emits (encodeFrame frame) b) : frameVersion b = (descriptorMajor, frame.1) := by
  simp only [encodeFrame, pushU8, pushU16, emits_bind, emits_tell, exists_eq_left'] at h
  obtain ⟨_, ⟨_, ⟨_, ⟨_, ⟨_, ⟨_, ⟨rest, -, rfl⟩, rfl⟩, rfl⟩, rfl⟩, rfl⟩, rfl⟩, rfl⟩ := h
  have hlen : (descriptorFrameMagic ++ (leBytes 2 (32 : UInt16).toNat ++
      (leBytes 1 (kindByte frame.2.kind).toNat ++ leBytes 1 (0 : UInt8).toNat))).length = 10 := by
    simp only [List.length_append, length_leBytes]
    rfl
  have hversion := versionAt_append (b := rest) hlen descriptorMajor frame.1
  simp only [List.append_assoc] at hversion
  exact hversion

end Descriptors

open Descriptors

/-- `encode_tensor_descriptors`, of a build with the version `ir`. -/
def encodeTensorDescriptors (ir : IrVersion) (descriptors : List TensorDescriptor) :
    Except DescriptorError Bytes :=
  written (encodeTable (ir, descriptors))

/-- `decode_tensor_descriptors`, of a build with the version `ir`. -/
def decodeTensorDescriptors (ir : IrVersion) (bytes : Bytes) :
    Except DescriptorError (List TensorDescriptor) := do
  let (_, descriptors) ← readAll (table ir) .nonCanonicalEncoding bytes
  return descriptors

/-- `encode_descriptor_frame` writes the current version. -/
def encodeDescriptorFrame (frame : DescriptorFrame) : Except DescriptorError Bytes :=
  written (encodeFrame (descriptorMinor, frame))

/-- `decode_descriptor_frame` drops the minor version it read. -/
def decodeDescriptorFrame (bytes : Bytes) : Except DescriptorError DescriptorFrame := do
  let (_, frame) ← readAll frame .nonCanonicalEncoding bytes
  return frame

/-- A frame is read from the encodings of all versions up to the current one. -/
theorem decodeDescriptorFrame_eq_ok {b : Bytes} {f : DescriptorFrame} :
    decodeDescriptorFrame b = .ok f ↔
      ∃ minor, minor ≤ descriptorMinor ∧ Emits (encodeFrame (minor, f)) b := by
  simp only [decodeDescriptorFrame, bind_eq_ok, pure_eq_ok, inverse_frame.readAll_eq_ok,
    written_eq_ok, Prod.exists]
  constructor
  · rintro ⟨minor, f, ⟨hminor, hb⟩, rfl⟩
    exact ⟨minor, hminor, hb⟩
  · rintro ⟨minor, hminor, hb⟩
    exact ⟨minor, f, ⟨hminor, hb⟩, rfl⟩

/-- **Frames of the current version** are written as they are read. -/
theorem encodeDescriptorFrame_eq_ok {b : Bytes} {f : DescriptorFrame} :
    encodeDescriptorFrame f = .ok b ↔ decodeDescriptorFrame b = .ok f ∧
      frameVersion b = (descriptorMajor, descriptorMinor) := by
  rw [encodeDescriptorFrame, written_eq_ok, decodeDescriptorFrame_eq_ok]
  constructor
  · intro hb
    exact ⟨⟨descriptorMinor, UInt16.le_refl _, hb⟩, frameVersion_of_emits hb⟩
  · rintro ⟨⟨minor, -, hb⟩, hversion⟩
    rw [frameVersion_of_emits hb] at hversion
    obtain rfl : minor = descriptorMinor := (Prod.mk.inj hversion).2
    exact hb

end NTD97
