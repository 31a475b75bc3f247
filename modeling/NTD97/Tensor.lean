import Mathlib
import NTD97.Floats
import NTD97.Graph
import NTD97.Lib.Guard
import NTD97.Lib.Wire

/-!
# Tensor — tensors and the reference kernels

    shape ▪ data, row by row        one output for each kernel

A tensor has as many elements as its shape says, so a kernel may index what its checks let through.
`usize` has 64 bits.
-/

namespace NTD97

open Guard Wire

/-- `usize::checked_mul`. -/
def checkedMulUsize (a b : ℕ) : Option ℕ := if a * b < 2 ^ 64 then some (a * b) else none

/-- `usize::checked_add`. -/
def checkedAddUsize (a b : ℕ) : Option ℕ := if a + b < 2 ^ 64 then some (a + b) else none

/-- Why an operation refuses its inputs. -/
inductive TensorError where
  | invalidShape
  | elementCountMismatch (expected actual : ℕ)
  | arity (expected actual : ℕ)
  | shapeMismatch
  | unsupportedOp (op : TensorOp)
  | invalidIndex
  | noProvider
  deriving DecidableEq

/-- The product of the dimensions, checked at each step. -/
def elementCountUsize (shape : List ℕ) : Except TensorError ℕ :=
  shape.foldlM (fun count dimension => okOr (checkedMulUsize count dimension) .invalidShape) 1

/-- A tensor has as many elements as its shape asks for. -/
structure Tensor where
  shape : List ℕ
  data : List F32
  sized : elementCountUsize shape = .ok data.length
  deriving DecidableEq

namespace Tensor

/-- `Tensor::new`: the number of elements is compared with the shape. -/
def new (shape : List ℕ) (data : List F32) : Except TensorError Tensor :=
  match h : elementCountUsize shape with
  | .error e => .error e
  | .ok expected =>
    if hlen : data.length = expected then .ok ⟨shape, data, hlen ▸ h⟩
    else .error (.elementCountMismatch expected data.length)

/-- A tensor of rank `0`. -/
def scalar (value : F32) : Tensor := ⟨[], [value], rfl⟩

def rank (self : Tensor) : ℕ := self.shape.length

/-- The element at an index that a check has let through. -/
def get (self : Tensor) (index : ℕ) : F32 := self.data.getD index F32.zero

end Tensor

/-- `chunks_exact`: what is left over is dropped. -/
def chunksExact {α : Type} (width : ℕ) (l : List α) : List (List α) :=
  (List.range (l.length / width)).map fun i => (l.drop (i * width)).take width

namespace Kernel

variable (ops : F32Ops)

/-- Two tensors of one shape, element by element. -/
def elementwiseBinary (op : F32 → F32 → F32) : List Tensor → Except TensorError Tensor
  | [lhs, rhs] => do
    refuse (lhs.shape ≠ rhs.shape) .shapeMismatch
    Tensor.new lhs.shape (lhs.data.zipWith op rhs.data)
  | inputs => throw (.arity 2 inputs.length)

/-- One element of a product, `k` the inner dimension and `n` the width of the right side. -/
def dotProduct (lhs rhs : Tensor) (k n row col : ℕ) : F32 :=
  (List.range k).foldl
    (fun sum inner => ops.add sum (ops.mul (lhs.get (row * k + inner)) (rhs.get (inner * n + col))))
    F32.zero

/-- The product of two matrices, each element summed from the left. -/
def matmul : List Tensor → Except TensorError Tensor
  | [lhs, rhs] =>
    match lhs.shape, rhs.shape with
    | [m, k], [k', n] => do
      refuse (k ≠ k') .shapeMismatch
      let _ ← okOr (checkedMulUsize m n) .invalidShape
      Tensor.new [m, n] ((List.range m).flatMap fun row =>
        (List.range n).map fun col => dotProduct ops lhs rhs k n row col)
    | _, _ => throw .shapeMismatch
  | inputs => throw (.arity 2 inputs.length)

/-- A row over the root of its mean square, times the weights if there are any. -/
def normalizeRow (width : ℕ) (weight : Option Tensor) (epsilon : F32) (row : List F32) : List F32 :=
  let meanSquare := ops.div (ops.sum (row.map fun value => ops.mul value value)) (ops.ofInt width)
  let invRms := ops.div F32.one (ops.sqrt (ops.add meanSquare epsilon))
  row.mapIdx fun index value =>
    ops.mul (ops.mul value invRms) ((weight.map (·.get index)).getD F32.one)

/-- The constant below the root: a positive number, if one is given. -/
def epsilonOf : Option Tensor → Except TensorError F32
  | none => return F32.defaultEpsilon
  | some epsilon => do
    refuse (epsilon.rank ≠ 0 ∨ epsilon.data.length ≠ 1) .shapeMismatch
    let value := epsilon.get 0
    refuse (¬ ops.isFinite value ∨ ops.le value F32.zero) .invalidShape
    return value

/-- `rms_norm` of the rows of a tensor. -/
def rmsNormWith (input : Tensor) (weight epsilon : Option Tensor) : Except TensorError Tensor := do
  let width ← okOr input.shape.getLast? .invalidShape
  refuse (width = 0) .invalidShape
  refuse (∃ tensor ∈ weight, tensor.shape ≠ [width]) .shapeMismatch
  let value ← epsilonOf ops epsilon
  Tensor.new input.shape ((chunksExact width input.data).flatMap (normalizeRow ops width weight value))

/-- Weight and epsilon may be absent. -/
def rmsNorm : List Tensor → Except TensorError Tensor
  | [input] => rmsNormWith ops input none none
  | [input, weight] => rmsNormWith ops input (some weight) none
  | [input, weight, epsilon] => rmsNormWith ops input (some weight) (some epsilon)
  | inputs => throw (.arity 3 inputs.length)

/-- The exponentials of a row below its largest element, over their sum. -/
def softmaxRow (row : List F32) : List F32 :=
  let largest := row.foldl ops.max F32.negInfinity
  let exp := row.map fun value => ops.exp (ops.sub value largest)
  exp.map fun value => ops.div value (ops.sum exp)

/-- `softmax` of the rows of a tensor. -/
def softmax : List Tensor → Except TensorError Tensor
  | [input] => do
    let width ← okOr input.shape.getLast? .invalidShape
    refuse (width = 0) .invalidShape
    Tensor.new input.shape ((chunksExact width input.data).flatMap (softmaxRow ops))
  | inputs => throw (.arity 1 inputs.length)

/-- The row that an index names; the index is a number that must be whole. -/
def gatherRow (table : Tensor) (rows width : ℕ) (rawIndex : F32) : Except TensorError (List F32) := do
  refuse (¬ ops.isFinite rawIndex ∨ ops.lt rawIndex F32.zero ∨ ¬ ops.isWhole rawIndex) .invalidIndex
  let row := ops.toUsize rawIndex
  refuse (rows ≤ row) .invalidIndex
  let start ← okOr (checkedMulUsize row width) .invalidShape
  let stop ← okOr (checkedAddUsize start width) .invalidShape
  return (table.data.drop start).take (stop - start)

/-- `gather`: rows of a table by their indices. -/
def gather : List Tensor → Except TensorError Tensor
  | [table, indices] =>
    match table.shape, indices.shape with
    | [rows, width], [_] => do
      let _ ← okOr (checkedMulUsize indices.data.length width) .invalidShape
      let data ← indices.data.mapM (gatherRow ops table rows width)
      Tensor.new [indices.data.length, width] data.flatten
    | _, _ => throw .shapeMismatch
  | inputs => throw (.arity 2 inputs.length)

/-- One pair of a head, turned by its angle at a position. -/
def rotatePair (input : Tensor) (width base : ℕ) (position : F32) (pair : ℕ) : List F32 :=
  let even := pair * 2
  let exponent := ops.div (ops.neg (ops.ofInt even)) (ops.ofInt width)
  let theta := ops.mul position (ops.powf F32.tenThousand exponent)
  let left := input.get (base + even)
  let right := input.get (base + even + 1)
  [ops.sub (ops.mul left (ops.cos theta)) (ops.mul right (ops.sin theta)),
    ops.add (ops.mul left (ops.sin theta)) (ops.mul right (ops.cos theta))]

/-- All heads at one position. -/
def rotateRow (input positions : Tensor) (heads width positionIndex : ℕ) :
    Except TensorError (List F32) := do
  let position := positions.get positionIndex
  refuse (¬ ops.isFinite position ∨ ops.lt position F32.zero) .invalidIndex
  return (List.range heads).flatMap fun head => (List.range (width / 2)).flatMap
    (rotatePair ops input width ((positionIndex * heads + head) * width) position)

/-- `rotary_position`: pairs of neighbours are turned by an angle that grows with the position. -/
def rotaryPosition : List Tensor → Except TensorError Tensor
  | [input, positions] =>
    match input.shape, positions.shape with
    | [sequence, heads, width], [_] => do
      refuse (positions.data.length ≠ sequence ∨ width = 0 ∨ width % 2 ≠ 0) .shapeMismatch
      let data ← (List.range sequence).mapM (rotateRow ops input positions heads width)
      Tensor.new [sequence, heads, width] data.flatten
    | _, _ => throw .shapeMismatch
  | inputs => throw (.arity 2 inputs.length)

/-- How a query fits a key. -/
def score (query key : Tensor) (width queryBase keyBase : ℕ) : F32 :=
  let dot := (List.range width).foldl (fun dot offset =>
    ops.add dot (ops.mul (query.get (queryBase + offset)) (key.get (keyBase + offset)))) F32.zero
  ops.div dot (ops.sqrt (ops.ofInt width))

/-- What one head attends to at a position: the keys up to that position. -/
def attendHead (query key value : Tensor) (queryHeads kvHeads width queryPosition queryHead : ℕ) :
    List F32 :=
  let kvHead := queryHead / (queryHeads / kvHeads)
  let queryBase := (queryPosition * queryHeads + queryHead) * width
  let keyBase := fun keyPosition => (keyPosition * kvHeads + kvHead) * width
  let weights := softmaxRow ops ((List.range (queryPosition + 1)).map fun keyPosition =>
    score ops query key width queryBase (keyBase keyPosition))
  (List.range width).map fun offset =>
    (List.range (queryPosition + 1)).foldl (fun output keyPosition =>
      ops.add output (ops.mul (value.get (keyBase keyPosition + offset))
        (weights.getD keyPosition F32.zero))) F32.zero

/-- `causal_attention`: several query heads may share one head of keys and values. -/
def causalAttention : List Tensor → Except TensorError Tensor
  | [query, key, value] =>
    match query.shape, key.shape, value.shape with
    | [sequence, queryHeads, width], [sequence', kvHeads, width'], [_, _, _] => do
      refuse (key.shape ≠ value.shape ∨ sequence ≠ sequence' ∨ width ≠ width') .shapeMismatch
      refuse (width = 0 ∨ kvHeads = 0 ∨ queryHeads = 0 ∨ queryHeads % kvHeads ≠ 0) .shapeMismatch
      Tensor.new [sequence, queryHeads, width] ((List.range sequence).flatMap fun queryPosition =>
        (List.range queryHeads).flatMap
          (attendHead ops query key value queryHeads kvHeads width queryPosition))
    | _, _, _ => throw .shapeMismatch
  | inputs => throw (.arity 3 inputs.length)

/-- Each element times its sigmoid. -/
def silu : List Tensor → Except TensorError Tensor
  | [input] => Tensor.new input.shape (input.data.map fun value =>
      ops.div value (ops.add F32.one (ops.exp (ops.neg value))))
  | inputs => throw (.arity 1 inputs.length)

/-- The dimensions read so far, the place of the one to infer, and the product of the others. -/
structure ReshapeState where
  shape : List ℕ
  inferred : Option ℕ
  knownProduct : ℕ

/-- One entry of the new shape: `-1` is inferred, `0` is taken over. -/
def reshapeDimension (input : Tensor) (state : ReshapeState) (entry : F32 × ℕ) :
    Except TensorError ReshapeState := do
  let (raw, index) := entry
  refuse (¬ ops.isFinite raw ∨ ¬ ops.isWhole raw) .invalidShape
  if ops.eq raw F32.negOne then do
    refuse state.inferred.isSome .invalidShape
    return { state with shape := state.shape ++ [1], inferred := some index }
  else do
    let dimension ← if ops.eq raw F32.zero then okOr input.shape[index]? .invalidShape
      else if ops.lt F32.zero raw then pure (ops.toUsize raw)
      else throw .invalidShape
    refuse (dimension = 0) .invalidShape
    let knownProduct ← okOr (checkedMulUsize state.knownProduct dimension) .invalidShape
    return { state with shape := state.shape ++ [dimension], knownProduct }

/-- `reshape`: the elements stay, the shape is another one with as many. -/
def reshape : List Tensor → Except TensorError Tensor
  | [input, shapeSpec] => do
    refuse (shapeSpec.rank ≠ 1 ∨ shapeSpec.data = []) .shapeMismatch
    let state ← shapeSpec.data.zipIdx.foldlM (reshapeDimension ops input) ⟨[], none, 1⟩
    match state.inferred with
    | some index => do
      refuse (state.knownProduct = 0 ∨ input.data.length % state.knownProduct ≠ 0) .shapeMismatch
      let dimension := input.data.length / state.knownProduct
      refuse (dimension = 0) .invalidShape
      Tensor.new (state.shape.set index dimension) input.data
    | none => do
      refuse (state.knownProduct ≠ input.data.length) .shapeMismatch
      Tensor.new state.shape input.data
  | inputs => throw (.arity 2 inputs.length)

/-- The positions of a row. -/
def positionIds : List Tensor → Except TensorError Tensor
  | [input] =>
    match input.shape with
    | [len] => Tensor.new [len] ((List.range len).map fun index => ops.ofInt index)
    | _ => throw .shapeMismatch
  | inputs => throw (.arity 1 inputs.length)

/-- One axis of a permutation, after the axes before it. -/
def transposeAxis (rank : ℕ) (axes : List ℕ) (raw : F32) : Except TensorError (List ℕ) := do
  refuse (¬ ops.isFinite raw ∨ ops.lt raw F32.zero ∨ ¬ ops.isWhole raw) .invalidIndex
  let axis := ops.toUsize raw
  refuse (rank ≤ axis ∨ axis ∈ axes) .invalidIndex
  return axes ++ [axis]

/-- The strides of a shape, and its number of elements. -/
def rowMajorStrides : List ℕ → Except TensorError (List ℕ × ℕ)
  | [] => return ([], 1)
  | dimension :: shape => do
    let (strides, running) ← rowMajorStrides shape
    let next ← okOr (checkedMulUsize running dimension) .invalidShape
    return (running :: strides, next)

/-- One axis of an element's place: what remains of the output index, and the input index so far. -/
def transposeStep (state : ℕ × ℕ) (strides : ℕ × ℕ) : Except TensorError (ℕ × ℕ) := do
  let (remainder, inputIndex) := state
  let (stride, inputStride) := strides
  let moved ← okOr (checkedMulUsize (remainder / stride) inputStride) .invalidShape
  let inputIndex ← okOr (checkedAddUsize inputIndex moved) .invalidShape
  return (remainder % stride, inputIndex)

/-- `transpose`: every output index is taken apart by its strides and put together by the input's.
-/
def transpose : List Tensor → Except TensorError Tensor
  | [input, permutation] => do
    refuse (input.rank = 0 ∨ permutation.rank ≠ 1 ∨ permutation.data.length ≠ input.rank)
      .shapeMismatch
    let axes ← permutation.data.foldlM (transposeAxis ops input.rank) []
    let outputShape := axes.map fun axis => input.shape.getD axis 0
    let (inputStrides, _) ← rowMajorStrides input.shape
    let (outputStrides, _) ← rowMajorStrides outputShape
    let data ← (List.range input.data.length).mapM fun outputIndex => do
      let (_, inputIndex) ← (outputStrides.zip (axes.map (inputStrides.getD · 0))).foldlM
        transposeStep (outputIndex, 0)
      return input.get inputIndex
    Tensor.new outputShape data
  | inputs => throw (.arity 2 inputs.length)

end Kernel

/-! ## The provider

The dispatch over the thirteen operations. -/

/-- What executes one operation of a graph. -/
abbrev ExecutionProvider := TensorOp → List Tensor → Except TensorError (List Tensor)

open Kernel in
/-- `CpuReferenceProvider`: one kernel for each operation, with one output. -/
def cpuReferenceProvider (ops : F32Ops) : ExecutionProvider := fun op inputs => do
  let output ← match op with
    | .add => elementwiseBinary ops.add inputs
    | .mul => elementwiseBinary ops.mul inputs
    | .matMul => matmul ops inputs
    | .quantizedMatMul => matmul ops inputs
    | .rmsNorm => rmsNorm ops inputs
    | .softmax => softmax ops inputs
    | .gather => gather ops inputs
    | .rotaryPosition => rotaryPosition ops inputs
    | .causalAttention => causalAttention ops inputs
    | .silu => silu ops inputs
    | .reshape => reshape ops inputs
    | .transpose => transpose ops inputs
    | .positionIds => positionIds ops inputs
  return [output]

/-! ## Loading

The bytes of a payload as numbers. -/

/-- How eight-bit elements stand for numbers. -/
inductive QuantizationParams where
  | none
  | symmetricI8 (scale : F32)
  | affineI8 (scale : F32) (zeroPoint : Int32)
  deriving DecidableEq

/-- Why a payload is refused. -/
inductive TensorLoadError where
  | invalidShape
  | byteLengthMismatch (expected actual : ℕ)
  | invalidQuantization
  | unsupportedQuantizationDType (dtype : DType)
  | invalidBool (byte : UInt8)
  deriving DecidableEq

namespace TensorLoader

/-- The bytes of one element. -/
def dtypeWidth : DType → ℕ
  | .f32 => 4
  | .i32 => 4
  | .f16 => 2
  | .bf16 => 2
  | .i64 => 8
  | .i8 => 1
  | .u8 => 1
  | .bool => 1

/-- The leading bit of a subnormal fraction moved into place, with the exponent that goes with it;
ten steps are enough. -/
def normalizeF16 : ℕ → UInt32 → ℤ → UInt32 × ℤ
  | 0, frac, exp => (frac, exp)
  | steps + 1, frac, exp =>
    if frac &&& 0x0400 = 0 then normalizeF16 steps (frac <<< 1) (exp - 1) else (frac, exp)

/-- A half as a single, bit by bit. -/
def f16ToF32 (bits : UInt16) : F32 :=
  let sign : UInt32 := (bits &&& 0x8000).toUInt32 <<< 16
  let exponent : UInt16 := (bits >>> 10) &&& 0x1f
  let fraction : UInt32 := (bits &&& 0x03ff).toUInt32
  if exponent = 0 then
    if fraction = 0 then sign
    else
      let (frac, exp) := normalizeF16 10 fraction (-14)
      let f32Exp : UInt32 := UInt32.ofNat (exp + 127).toNat
      sign ||| (f32Exp <<< 23) ||| ((frac &&& 0x03ff) <<< 13)
  else if exponent = 0x1f then sign ||| (0x7f800000 : UInt32) ||| (fraction <<< 13)
  else sign ||| ((exponent + 112).toUInt32 <<< 23) ||| (fraction <<< 13)

example : [0x3C00, 0xC000, 0x0001, 0x7C00].map f16ToF32 =
    [0x3F800000, 0xC0000000, 0x33800000, 0x7F800000] := by decide

/-- `as i8` of a byte, `as i32` and `as i64` of the bits of such a number. -/
def signed (width n : ℕ) : ℤ := if n < 2 ^ (width - 1) then n else n - 2 ^ width

variable (ops : F32Ops)

/-- A byte that is `0` or `1`. -/
def decodeBool (byte : UInt8) : Except TensorLoadError F32 :=
  if byte = 0 then return F32.zero
  else if byte = 1 then return F32.one
  else throw (.invalidBool byte)

/-- The elements of a payload that is not quantized. -/
def decodeUnquantized (dtype : DType) (elements : ℕ) (bytes : Bytes) :
    Except TensorLoadError (List F32) := do
  let expected ← okOr (checkedMulUsize elements (dtypeWidth dtype)) .invalidShape
  refuse (bytes.length ≠ expected) (.byteLengthMismatch expected bytes.length)
  match dtype with
  | .f32 => return (chunksExact 4 bytes).map fun chunk => UInt32.ofNat (ofLe chunk)
  | .f16 => return (chunksExact 2 bytes).map fun chunk => f16ToF32 (UInt16.ofNat (ofLe chunk))
  | .bf16 => return (chunksExact 2 bytes).map fun chunk => UInt32.ofNat (ofLe chunk) <<< 16
  | .i8 => return bytes.map fun byte => ops.ofInt (signed 8 byte.toNat)
  | .u8 => return bytes.map fun byte => ops.ofInt byte.toNat
  | .i32 => return (chunksExact 4 bytes).map fun chunk => ops.ofInt (signed 32 (ofLe chunk))
  | .i64 => return (chunksExact 8 bytes).map fun chunk => ops.ofInt (signed 64 (ofLe chunk))
  | .bool => bytes.mapM decodeBool

/-- A scale is finite and positive. -/
def validateScale (scale : F32) : Except TensorLoadError Unit :=
  if ops.isFinite scale ∧ ops.lt F32.zero scale then return ()
  else throw .invalidQuantization

/-- The elements of a quantized payload. -/
def decodeI8Quantized (elements : ℕ) (bytes : Bytes) (scale : F32) (zeroPoint : ℤ) :
    Except TensorLoadError (List F32) := do
  refuse (bytes.length ≠ elements) (.byteLengthMismatch elements bytes.length)
  return bytes.map fun byte => ops.mul (ops.ofInt (signed 8 byte.toNat - zeroPoint)) scale

/-- `load`: type and quantization decide how the bytes are read. -/
def load (dtype : DType) (shape : List UInt64) (quantization : QuantizationParams) (bytes : Bytes) :
    Except TensorLoadError Tensor := do
  let shape := shape.map UInt64.toNat
  let elements ← (elementCountUsize shape).mapError fun _ => .invalidShape
  refuse (quantization ≠ .none ∧ dtype ≠ .i8) (.unsupportedQuantizationDType dtype)
  let data ← match quantization with
    | .none => decodeUnquantized ops dtype elements bytes
    | .symmetricI8 scale => do
      validateScale ops scale
      decodeI8Quantized ops elements bytes scale 0
    | .affineI8 scale zeroPoint => do
      validateScale ops scale
      refuse (¬ (-128 ≤ zeroPoint.toInt ∧ zeroPoint.toInt ≤ 127)) .invalidQuantization
      decodeI8Quantized ops elements bytes scale zeroPoint.toInt
  (Tensor.new shape data).mapError fun _ => .invalidShape

end TensorLoader

end NTD97
