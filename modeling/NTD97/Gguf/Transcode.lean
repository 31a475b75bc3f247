import Mathlib
import NTD97.Gguf
import NTD97.Lib.Slices
import NTD97.Tensor

/-!
# Gguf/Transcode — native tensors out of GGUF files

    info ──ggmlTensorByteLen──▸ bytes of the source ──decode──▸ values ──transpose──▸ payload

Numbers are kept as they are stored, quants are worked out to single precision, and a tensor of two
dimensions is transposed on demand.  The conversion from half precision is a parameter, like the
rest of the arithmetic.  `usize` has 64 bits.
-/

namespace NTD97

open Guard Wire Slices

/-! ## Sources -/

/-- Where the bytes of a file come from; a read answers with as many as were asked for. -/
structure GgufByteSource where
  byteLen : Except GgufError UInt64
  readExactAt (offset : UInt64) (len : ℕ) : Except GgufError Bytes
  length_of_read {offset : UInt64} {len : ℕ} {bytes : Bytes} :
    readExactAt offset len = .ok bytes → bytes.length = len

theorem length_take_drop {b : Bytes} {offset stop len : ℕ} (hstop : offset + len = stop)
    (hle : stop ≤ b.length) : ((b.drop offset).take len).length = len := by
  rw [List.length_take, List.length_drop]
  omega

namespace SliceGgufSource

def readExactAt (file : Bytes) (offset : UInt64) (len : ℕ) : Except GgufError Bytes := do
  let stop ← okOr (checkedAddUsize offset.toNat len) .overflow
  refuse (file.length < stop) .truncated
  return (file.drop offset.toNat).take len

def source (file : Bytes) : GgufByteSource where
  byteLen := lenU64 file.length
  readExactAt := readExactAt file
  length_of_read {offset len bytes} h := by
    simp only [readExactAt, bind_eq_ok, exists_unit, okOr_eq_ok, refuse_eq_ok, not_lt, pure_eq_ok,
      checkedAddUsize, Option.ite_none_right_eq_some, Option.some.injEq] at h
    obtain ⟨stop, ⟨-, hstop⟩, hle, rfl⟩ := h
    exact length_take_drop hstop hle

end SliceGgufSource

/-- The length is that of the file when it was opened; by the time of a read it may be shorter. -/
structure FileGgufSource where
  file : Bytes
  byteLen : UInt64

namespace FileGgufSource

def readExactAt (self : FileGgufSource) (offset : UInt64) (len : ℕ) : Except GgufError Bytes := do
  let len64 : UInt64 ← lenU64 len
  let stop ← okOr (checkedAdd64 offset len64) .overflow
  refuse (self.byteLen < stop) .truncated
  refuse (self.file.length < offset.toNat + len) (.io "failed to fill whole buffer")
  return (self.file.drop offset.toNat).take len

def source (self : FileGgufSource) : GgufByteSource where
  byteLen := .ok self.byteLen
  readExactAt := self.readExactAt
  length_of_read {offset len bytes} h := by
    simp only [readExactAt, bind_eq_ok, exists_unit, refuse_eq_ok, not_lt, pure_eq_ok] at h
    obtain ⟨-, -, -, -, -, hle, rfl⟩ := h
    exact length_take_drop rfl hle

end FileGgufSource

/-! ## Layouts -/

structure TranscodedTensor where
  dtype : DType
  shape : List UInt64
  payload : Bytes
  deriving DecidableEq

structure GgmlLayout where
  blockElements : UInt64
  blockBytes : UInt64

def ggmlTypeSupported : UInt32 → Bool
  | 0 | 1 | 2 | 8 | 12 | 13 | 14 | 30 => true
  | _ => false

def ggmlLayout : UInt32 → Except GgufError GgmlLayout
  | 0 => return ⟨1, 4⟩
  | 1 | 30 => return ⟨1, 2⟩
  | 2 => return ⟨32, 18⟩
  | 8 => return ⟨32, 34⟩
  | 12 => return ⟨256, 144⟩
  | 13 => return ⟨256, 176⟩
  | 14 => return ⟨256, 210⟩
  | other => throw (.unsupportedTensorType other)

/-- The product of dimensions, in 64 bits. -/
def product64 (dimensions : List UInt64) : Except GgufError UInt64 :=
  dimensions.foldlM (fun product dimension => okOr (checkedMul64 product dimension) .overflow) 1

def ggmlTensorByteLen (tensor : GgufTensorInfo) : Except GgufError UInt64 := do
  let layout ← ggmlLayout tensor.ggmlType
  let first ← okOr tensor.dimensions.head? .invalidTensor
  refuse (first = 0 ∨ first % layout.blockElements ≠ 0) .invalidTensor
  let rows ← product64 (tensor.dimensions.drop 1)
  let blocksPerRow := first / layout.blockElements
  okOr ((checkedMul64 rows blocksPerRow).bind (checkedMul64 · layout.blockBytes)) .overflow

def elementCount (tensor : GgufTensorInfo) : Except GgufError UInt64 := product64 tensor.dimensions

def ggufTensorBytesFromSource (source : GgufByteSource) (model : GgufModel)
    (tensor : GgufTensorInfo) : Except GgufError Bytes := do
  let fileLen ← source.byteLen
  refuse (fileLen ≠ model.fileLen) .invalidTensor
  let len ← ggmlTensorByteLen tensor
  let start ← okOr (checkedAdd64 model.dataOffset tensor.dataOffset) .overflow
  let stop ← okOr (checkedAdd64 start len) .overflow
  refuse (fileLen < stop) .truncated
  source.readExactAt start len.toNat

def nativeShape (tensor : GgufTensorInfo) (transpose2d : Bool) : Except GgufError (List UInt64) :=
  match tensor.dimensions with
  | [width] =>
    if 0 < width ∧ transpose2d = false then return [width] else throw .invalidTensor
  | [ne0, ne1] =>
    if 0 < ne0 ∧ 0 < ne1 then return if transpose2d then [ne0, ne1] else [ne1, ne0]
    else throw .invalidTensor
  | _ => throw .invalidTensor

/-! ## Transposition -/

/-- One element on its way, `width` bytes wide. -/
def moveElement (bytes : Bytes) (rows cols width row col : ℕ) (output : Bytes) :
    Code GgufError Bytes := do
  let rowStart ← okOr (checkedMulUsize row cols) .overflow
  let sourceElement ← okOr (checkedAddUsize rowStart col) .overflow
  let colStart ← okOr (checkedMulUsize col rows) .overflow
  let targetElement ← okOr (checkedAddUsize colStart row) .overflow
  let source ← okOr (checkedMulUsize sourceElement width) .overflow
  let target ← okOr (checkedMulUsize targetElement width) .overflow
  let chunk ← Slices.slice bytes source (source + width)
  copy output target (target + width) chunk

def transposeElements (bytes : Bytes) (rows cols width : ℕ) : Code GgufError Bytes := do
  let elements ← okOr (checkedMulUsize rows cols) .overflow
  let expected ← okOr (checkedMulUsize elements width) .overflow
  refuse (bytes.length ≠ expected) .invalidTensor
  (List.range rows).foldlM (fun output row => (List.range cols).foldlM
    (fun output col => moveElement bytes rows cols width row col output) output)
    (List.replicate expected 0)

/-- One value on its way; a place in bounds is a machine word. -/
def moveValue (values : List F32) (rows cols row col : ℕ) (output : List F32) :
    Code GgufError (List F32) := do
  let value ← index values (row * cols + col)
  set output (col * rows + row) value

def transposeValues (values : List F32) (rows cols : ℕ) : Code GgufError (List F32) := do
  let elements ← okOr (checkedMulUsize rows cols) .overflow
  refuse (values.length ≠ elements) .invalidTensor
  (List.range rows).foldlM (fun output row => (List.range cols).foldlM
    (fun output col => moveValue values rows cols row col output) output)
    (List.replicate elements F32.zero)

/-- The elements in the order of the result. -/
def orderElements (tensor : GgufTensorInfo) (bytes : Bytes) (elementWidth : ℕ) :
    Bool → Code GgufError Bytes
  | true => do
    let rows ← index tensor.dimensions 1
    let cols ← index tensor.dimensions 0
    transposeElements bytes rows.toNat cols.toNat elementWidth
  | false => pure bytes

/-- The values in the order of the result. -/
def orderValues (tensor : GgufTensorInfo) (values : List F32) : Bool → Code GgufError (List F32)
  | true => do
    let rows ← index tensor.dimensions 1
    let cols ← index tensor.dimensions 0
    transposeValues values rows.toNat cols.toNat
  | false => pure values

def transcodeUnquantized (tensor : GgufTensorInfo) (bytes : Bytes) (dtype : DType)
    (elementWidth : ℕ) (transpose2d : Bool) : Code GgufError TranscodedTensor := do
  let shape ← liftM (nativeShape tensor transpose2d)
  let payload ← orderElements tensor bytes elementWidth transpose2d
  return { dtype, shape, payload }

/-! ## Blocks -/

section Decode

variable (ops : F32Ops) (f16ToF32 : UInt16 → F32)

/-- The number of half precision at a place of a block. -/
def halfAt (block : Bytes) (i : ℕ) : Code GgufError F32 := do
  let low ← index block i
  let high ← index block (i + 1)
  return f16ToF32 (UInt16.ofNat (ofLe [low, high]))

/-- `f32::from(byte)` -/
def ofByte (byte : UInt8) : F32 := ops.ofInt byte.toNat

/-- `f32::from(byte as i8)` -/
def ofI8 (byte : UInt8) : F32 := ops.ofInt byte.toInt8.toInt

/-- `byte & 0x0f` -/
def lowNibble (byte : UInt8) : UInt8 := byte &&& 0x0f

/-- `byte >> 4` -/
def highNibble (byte : UInt8) : UInt8 := byte >>> 4

/-- `low | (high << 4)` -/
def withHigh (low high : UInt8) : UInt8 := low ||| (high <<< 4)

def scaleMinK4 (index : ℕ) (packed : Bytes) : Code GgufError (UInt8 × UInt8) := do
  refuse (packed.length ≠ 12 ∨ 8 ≤ index) .invalidTensor
  let here ← Slices.index packed index
  let next ← Slices.index packed (index + 4)
  if index < 4 then return (here &&& 0x3f, next &&& 0x3f)
  let before ← Slices.index packed (index - 4)
  return (withHigh (lowNibble next) (before >>> 6), withHigh (highNibble next) (here >>> 6))

def q8_0Block (output : List F32) (block : Bytes) : Code GgufError (List F32) := do
  let scale ← halfAt f16ToF32 block 0
  refuse (ops.isFinite scale = false) .invalidTensor
  let quants ← Slices.slice block 2 34
  return output ++ quants.map fun value => ops.mul scale (ofI8 ops value)

def q4_0Block (output : List F32) (block : Bytes) : Code GgufError (List F32) := do
  let scale ← halfAt f16ToF32 block 0
  refuse (ops.isFinite scale = false) .invalidTensor
  let quants ← Slices.slice block 2 18
  return output ++
    quants.map (fun packed => ops.mul scale (ops.ofInt ((lowNibble packed).toNat - 8))) ++
    quants.map fun packed => ops.mul scale (ops.ofInt ((highNibble packed).toNat - 8))

/-- The scales and minimums of a group of sixty-four quants. -/
def groupScales (d dmin : F32) (scales : Bytes) (scaleIndex : ℕ) :
    Code GgufError (F32 × F32 × F32 × F32) := do
  let (scale1, min1) ← scaleMinK4 scaleIndex scales
  let (scale2, min2) ← scaleMinK4 (scaleIndex + 1) scales
  return (ops.mul d (ofByte ops scale1), ops.mul dmin (ofByte ops min1),
    ops.mul d (ofByte ops scale2), ops.mul dmin (ofByte ops min2))

def q4KGroup (d dmin : F32) (scales qs : Bytes) (state : List F32 × ℕ) (group : ℕ) :
    Code GgufError (List F32 × ℕ) := do
  let (output, scaleIndex) := state
  let (d1, m1, d2, m2) ← groupScales ops d dmin scales scaleIndex
  let q ← Slices.slice qs (group * 32) (group * 32 + 32)
  return (output ++
    q.map (fun value => ops.sub (ops.mul d1 (ofByte ops (lowNibble value))) m1) ++
    q.map (fun value => ops.sub (ops.mul d2 (ofByte ops (highNibble value))) m2), scaleIndex + 2)

def q4KBlock (output : List F32) (block : Bytes) : Code GgufError (List F32) := do
  let d ← halfAt f16ToF32 block 0
  let dmin ← halfAt f16ToF32 block 2
  refuse (ops.isFinite d = false ∨ ops.isFinite dmin = false) .invalidTensor
  let scales ← Slices.slice block 4 16
  let qs ← Slices.slice block 16 144
  let (output, _) ← (List.range 4).foldlM (q4KGroup ops d dmin scales qs) (output, 0)
  return output

structure Q5KState where
  output : List F32
  scaleIndex : ℕ
  highLowMask : UInt8
  highHighMask : UInt8

/-- The fifth bit of a quant, in its place. -/
def highBit (highBits mask : UInt8) : UInt8 := if highBits &&& mask ≠ 0 then 16 else 0

def q5KGroup (d dmin : F32) (scales qh qs : Bytes) (state : Q5KState) (group : ℕ) :
    Code GgufError Q5KState := do
  let (d1, m1, d2, m2) ← groupScales ops d dmin scales state.scaleIndex
  let q ← Slices.slice qs (group * 32) (group * 32 + 32)
  return {
    output := state.output ++
      (q.zip qh).map (fun (low, highBits) => ops.sub
        (ops.mul d1 (ofByte ops (lowNibble low + highBit highBits state.highLowMask))) m1) ++
      (q.zip qh).map fun (low, highBits) => ops.sub
        (ops.mul d2 (ofByte ops (highNibble low + highBit highBits state.highHighMask))) m2
    scaleIndex := state.scaleIndex + 2
    highLowMask := state.highLowMask <<< 2
    highHighMask := state.highHighMask <<< 2 }

def q5KBlock (output : List F32) (block : Bytes) : Code GgufError (List F32) := do
  let d ← halfAt f16ToF32 block 0
  let dmin ← halfAt f16ToF32 block 2
  refuse (ops.isFinite d = false ∨ ops.isFinite dmin = false) .invalidTensor
  let scales ← Slices.slice block 4 16
  let qh ← Slices.slice block 16 48
  let qs ← Slices.slice block 48 176
  let state ← (List.range 4).foldlM (q5KGroup ops d dmin scales qh qs)
    { output, scaleIndex := 0, highLowMask := 1, highHighMask := 2 }
  return state.output

/-- One of the four values of a lane: its place, its scale, and its six bits. -/
def q6KValue (d : F32) (scales : Bytes) (place scale : ℕ) (bits : UInt8) (values : List F32) :
    Code GgufError (List F32) := do
  let s ← index scales scale
  set values place (ops.mul (ops.mul d (ofI8 ops s)) (ops.ofInt ((bits.toNat : ℤ) - 32)))

def q6KLane (d : F32) (ql qh scales : Bytes) (half lane : ℕ) (values : List F32) :
    Code GgufError (List F32) := do
  let qlBase := half * 64
  let scaleBase := half * 8 + lane / 16
  let place := half * 128 + lane
  let high ← index qh (half * 32 + lane)
  let low1 ← index ql (qlBase + lane)
  let low2 ← index ql (qlBase + lane + 32)
  let values ← q6KValue ops d scales place scaleBase
    (withHigh (lowNibble low1) (high &&& 0x03)) values
  let values ← q6KValue ops d scales (place + 32) (scaleBase + 2)
    (withHigh (lowNibble low2) ((high >>> 2) &&& 0x03)) values
  let values ← q6KValue ops d scales (place + 64) (scaleBase + 4)
    (withHigh (highNibble low1) ((high >>> 4) &&& 0x03)) values
  q6KValue ops d scales (place + 96) (scaleBase + 6)
    (withHigh (highNibble low2) ((high >>> 6) &&& 0x03)) values

def q6KBlock (output : List F32) (block : Bytes) : Code GgufError (List F32) := do
  let ql ← Slices.slice block 0 128
  let qh ← Slices.slice block 128 192
  let scales ← Slices.slice block 192 208
  let d ← halfAt f16ToF32 block 208
  refuse (ops.isFinite d = false) .invalidTensor
  let values ← (List.range 2).foldlM (fun values half => (List.range 32).foldlM
    (fun values lane => q6KLane ops d ql qh scales half lane values) values)
    (List.replicate 256 F32.zero)
  return output ++ values

/-! ## Tensors -/

def validateQuantizedPayload (tensor : GgufTensorInfo) (bytes : Bytes) :
    Except GgufError Unit := do
  let expected ← ggmlTensorByteLen tensor
  refuse (bytes.length ≠ expected.toNat) .invalidTensor

/-- What the decoders share: one block after the other, as many elements as the tensor has. -/
def decodeBlocks (width : ℕ) (block : List F32 → Bytes → Code GgufError (List F32))
    (tensor : GgufTensorInfo) (bytes : Bytes) : Code GgufError (List F32) := do
  liftM (validateQuantizedPayload tensor bytes)
  let capacity ← liftM (elementCount tensor)
  let output ← (chunksExact width bytes).foldlM block []
  refuse (output.length ≠ capacity.toNat) .invalidTensor
  return output

/-- The decoders of the larger blocks refuse what is not finite themselves. -/
def decodeFinite (width : ℕ) (block : List F32 → Bytes → Code GgufError (List F32))
    (tensor : GgufTensorInfo) (bytes : Bytes) : Code GgufError (List F32) := do
  let output ← decodeBlocks width block tensor bytes
  refuse (∃ value ∈ output, ops.isFinite value = false) .invalidTensor
  return output

def decodeQ8_0 := decodeBlocks 34 (q8_0Block ops f16ToF32)
def decodeQ4_0 := decodeBlocks 18 (q4_0Block ops f16ToF32)
def decodeQ4K := decodeFinite ops 144 (q4KBlock ops f16ToF32)
def decodeQ5K := decodeFinite ops 176 (q5KBlock ops f16ToF32)
def decodeQ6K := decodeFinite ops 210 (q6KBlock ops f16ToF32)

/-- The bytes of a value, if it is finite. -/
def pushValue (payload : Bytes) (value : F32) : Except GgufError Bytes := do
  refuse (ops.isFinite value = false) .invalidTensor
  return payload ++ leBytes 4 value.toNat

def transcodeDequantized (tensor : GgufTensorInfo) (values : List F32) (transpose2d : Bool) :
    Code GgufError TranscodedTensor := do
  let shape ← liftM (nativeShape tensor transpose2d)
  let values ← orderValues tensor values transpose2d
  let _ ← okOr (checkedMulUsize values.length 4) .overflow
  let payload ← liftM (values.foldlM (pushValue ops) [])
  return { dtype := .f32, shape, payload }

def transcodeTensorPayload (tensor : GgufTensorInfo) (bytes : Bytes) (transpose2d : Bool) :
    Code GgufError TranscodedTensor :=
  match tensor.ggmlType with
  | 0 => transcodeUnquantized tensor bytes .f32 4 transpose2d
  | 1 => transcodeUnquantized tensor bytes .f16 2 transpose2d
  | 30 => transcodeUnquantized tensor bytes .bf16 2 transpose2d
  | 2 => do transcodeDequantized ops tensor (← decodeQ4_0 ops f16ToF32 tensor bytes) transpose2d
  | 8 => do transcodeDequantized ops tensor (← decodeQ8_0 ops f16ToF32 tensor bytes) transpose2d
  | 12 => do transcodeDequantized ops tensor (← decodeQ4K ops f16ToF32 tensor bytes) transpose2d
  | 13 => do transcodeDequantized ops tensor (← decodeQ5K ops f16ToF32 tensor bytes) transpose2d
  | 14 => do transcodeDequantized ops tensor (← decodeQ6K ops f16ToF32 tensor bytes) transpose2d
  | other => throw (.unsupportedTensorType other)

def transcodeTensorFromSource (source : GgufByteSource) (model : GgufModel)
    (tensor : GgufTensorInfo) (transpose2d : Bool) : Code GgufError TranscodedTensor := do
  refuse (tensor.dimensions = [] ∨ 2 < tensor.dimensions.length) .invalidTensor
  refuse (transpose2d = true ∧ tensor.dimensions.length ≠ 2) .invalidTensor
  let bytes ← liftM (ggufTensorBytesFromSource source model tensor)
  transcodeTensorPayload ops f16ToF32 tensor bytes transpose2d

end Decode

end NTD97
