import Mathlib
import NTD97.Graph
import NTD97.Lib.Wire

/-!
# GraphCodec — the NIR97 bytes of a graph

    magic ▪ 24 ▪ version ▪ three counts ▪ inputs ▪ outputs ▪ nodes

A node stands behind its own three counts; of the operations only the invocation of a tool has
attributes.  Every byte that carries nothing is checked, so a graph has one encoding.
-/

namespace NTD97

open Guard Wire

/-- The letters `NIR97` and a zero byte. -/
def irGraphMagic : Bytes := [78, 73, 82, 57, 55, 0]

/-- Why a graph is not written, or bytes are not read as one. -/
inductive IrCodecError where
  | truncated
  | invalidMagic
  | invalidHeader
  | invalidValueType (raw : UInt8)
  | invalidDType (raw : UInt8)
  | invalidOpFamily (raw : UInt8)
  | invalidOpCode (family opcode : UInt8)
  | invalidUtf8
  | nonCanonicalEncoding
  | unsupportedVersion (version : IrVersion)
  | structuralValidation (e : ValidationError)
  | overflow
  deriving DecidableEq

instance : WireError IrCodecError where
  truncated := .truncated
  overflow := .overflow
  invalidUtf8 := .invalidUtf8

namespace GraphCodec

/-- Writing the bytes of a part of a graph. -/
abbrev Encoder := Put IrCodecError Unit

/-- Reading a part of a graph off the front of the bytes. -/
abbrev Decoder := Get IrCodecError

/-! ## The tables

A decoder's table is the inverse of the encoder's: a code has at most one operation, and every
operation a code. -/

/-- The element type with this code. -/
def decodeDtype (tag : UInt8) : Except IrCodecError DType :=
  okOr (dtypeOf tag) (.invalidDType tag)

/-- The opcodes of the first family, from `1` on. -/
def tensorOpTag : TensorOp → UInt8
  | .add => 1
  | .mul => 2
  | .matMul => 3
  | .quantizedMatMul => 4
  | .rmsNorm => 5
  | .softmax => 6
  | .gather => 7
  | .rotaryPosition => 8
  | .causalAttention => 9
  | .silu => 10
  | .reshape => 11
  | .transpose => 12
  | .positionIds => 13

def tensorOpOf : UInt8 → Option TensorOp
  | 1 => some .add
  | 2 => some .mul
  | 3 => some .matMul
  | 4 => some .quantizedMatMul
  | 5 => some .rmsNorm
  | 6 => some .softmax
  | 7 => some .gather
  | 8 => some .rotaryPosition
  | 9 => some .causalAttention
  | 10 => some .silu
  | 11 => some .reshape
  | 12 => some .transpose
  | 13 => some .positionIds
  | _ => none

/-- The opcodes of the second family. -/
def stateOpTag : StateOp → UInt8
  | .read => 1
  | .write => 2
  | .checkpoint => 3

def stateOpOf : UInt8 → Option StateOp
  | 1 => some .read
  | 2 => some .write
  | 3 => some .checkpoint
  | _ => none

/-- The opcodes of the third family. -/
def memoryOpTag : MemoryOp → UInt8
  | .retrieve => 1
  | .store => 2
  | .forget => 3

def memoryOpOf : UInt8 → Option MemoryOp
  | 1 => some .retrieve
  | 2 => some .store
  | 3 => some .forget
  | _ => none

/-- The opcodes of the fourth family. -/
def controlOpTag : ControlOp → UInt8
  | .select => 1
  | .merge => 2
  | .barrier => 3

def controlOpOf : UInt8 → Option ControlOp
  | 1 => some .select
  | 2 => some .merge
  | 3 => some .barrier
  | _ => none

theorem decodeDtype_eq_ok {n : UInt8} {dtype : DType} :
    decodeDtype n = .ok dtype ↔ dtypeTag dtype = n := by
  rw [decodeDtype, okOr_eq_ok, dtypeOf_eq_some]

/-- The two tables of the tensor operations are inverse to each other. -/
theorem tensorOpOf_eq_some {n : UInt8} {op : TensorOp} :
    tensorOpOf n = some op ↔ tensorOpTag op = n := by
  constructor
  · intro h
    unfold tensorOpOf at h
    split at h <;> cases h <;> rfl
  · rintro rfl
    cases op <;> rfl

theorem stateOpOf_eq_some {n : UInt8} {op : StateOp} :
    stateOpOf n = some op ↔ stateOpTag op = n := by
  constructor
  · intro h
    unfold stateOpOf at h
    split at h <;> cases h <;> rfl
  · rintro rfl
    cases op <;> rfl

theorem memoryOpOf_eq_some {n : UInt8} {op : MemoryOp} :
    memoryOpOf n = some op ↔ memoryOpTag op = n := by
  constructor
  · intro h
    unfold memoryOpOf at h
    split at h <;> cases h <;> rfl
  · rintro rfl
    cases op <;> rfl

theorem controlOpOf_eq_some {n : UInt8} {op : ControlOp} :
    controlOpOf n = some op ↔ controlOpTag op = n := by
  constructor
  · intro h
    unfold controlOpOf at h
    split at h <;> cases h <;> rfl
  · rintro rfl
    cases op <;> rfl

/-! ## Values

A value type takes four bytes; those that its tag does not use, and the reserved one, are zero. -/

/-- Tag, element type and rank. -/
def valueTypeCode : ValueType → UInt8 × UInt8 × UInt8
  | .scalar dtype => (1, dtypeTag dtype, 0)
  | .tensor dtype rank => (2, dtypeTag dtype, rank)
  | .bytes => (3, 0, 0)
  | .handle => (4, 0, 0)

/-- Three bytes of the code and a reserved zero. -/
def encodeValueType (ty : ValueType) : Encoder := do
  pushU8 (valueTypeCode ty).1
  pushU8 (valueTypeCode ty).2.1
  pushU8 (valueTypeCode ty).2.2
  pushU8 0

/-- The id of a value, then its type. -/
def encodeValueDecl (value : ValueDecl) : Encoder := do
  pushU32 value.id.val
  encodeValueType value.ty

/-- The type that four bytes spell, where every byte without a meaning is zero. -/
def valueTypeOf (tag dtype rank reserved : UInt8) : Except IrCodecError ValueType := do
  refuse (reserved ≠ 0) .nonCanonicalEncoding
  match tag with
  | 1 => do
    refuse (rank ≠ 0) .nonCanonicalEncoding
    let dtype ← decodeDtype dtype
    return .scalar dtype
  | 2 => do
    let dtype ← decodeDtype dtype
    return .tensor dtype rank
  | 3 => do
    refuse (dtype ≠ 0 ∨ rank ≠ 0) .nonCanonicalEncoding
    return .bytes
  | 4 => do
    refuse (dtype ≠ 0 ∨ rank ≠ 0) .nonCanonicalEncoding
    return .handle
  | other => .error (.invalidValueType other)

/-- Four bytes, read before any of them is looked at. -/
def valueType : Decoder ValueType := do
  let tag ← u8
  let dtype ← u8
  let rank ← u8
  let reserved ← u8
  valueTypeOf tag dtype rank reserved

def valueId : Decoder ValueId := do return ⟨← u32⟩

def valueDecl : Decoder ValueDecl := do
  let id ← valueId
  let ty ← valueType
  return { id, ty }

/-- **Four bytes spell a type exactly when they are its code.** -/
theorem valueTypeOf_eq_ok {tag dtype rank reserved : UInt8} {ty : ValueType} :
    valueTypeOf tag dtype rank reserved = .ok ty ↔
      reserved = 0 ∧ valueTypeCode ty = (tag, dtype, rank) := by
  simp only [valueTypeOf, bind_eq_ok, exists_unit, refuse_eq_ok, not_not]
  refine and_congr_right fun _ => ?_
  split
  · simp only [bind_eq_ok, exists_unit, refuse_eq_ok, not_not, pure_eq_ok, decodeDtype_eq_ok]
    cases ty <;> simp [valueTypeCode, eq_comm, and_comm]
  · simp only [bind_eq_ok, pure_eq_ok, decodeDtype_eq_ok]
    cases ty <;> simp [valueTypeCode, eq_comm, and_comm]
  · simp only [bind_eq_ok, exists_unit, refuse_eq_ok, not_or, not_not, pure_eq_ok]
    cases ty <;> simp [valueTypeCode, eq_comm, and_comm]
  · simp only [bind_eq_ok, exists_unit, refuse_eq_ok, not_or, not_not, pure_eq_ok]
    cases ty <;> simp [valueTypeCode, eq_comm, and_comm]
  · next h₁ h₂ h₃ h₄ =>
    refine ⟨fun h => (by cases h), fun h => ?_⟩
    cases ty <;> simp_all [valueTypeCode]

/-- What is read as a value type is what the encoder writes for it. -/
theorem codec_valueType : Codec encodeValueType valueType := by
  refine inverse_u8.field (fun ty => (valueTypeCode ty).1) (fun _ _ => trivial) fun _ _ => ?_
  refine inverse_u8.field (fun ty => (valueTypeCode ty).2.1) (fun _ _ => trivial) fun _ _ => ?_
  refine inverse_u8.field (fun ty => (valueTypeCode ty).2.2) (fun _ _ => trivial) fun _ _ => ?_
  refine inverse_u8.resolve (fun _ => 0) ?_ ?_
  · rintro ty ⟨⟨⟨-, rfl⟩, rfl⟩, rfl⟩
    exact ⟨trivial, valueTypeOf_eq_ok.2 ⟨rfl, rfl⟩⟩
  · intro reserved ty _ h
    obtain ⟨rfl, hcode⟩ := valueTypeOf_eq_ok.1 h
    rw [hcode]
    exact ⟨⟨⟨⟨trivial, rfl⟩, rfl⟩, rfl⟩, rfl⟩

theorem codec_valueId : Codec (fun id : ValueId => (pushU32 id.val : Encoder)) valueId :=
  inverse_u32.last ValueId.val (fun _ _ => ⟨trivial, rfl⟩) fun _ _ => ⟨trivial, rfl⟩

theorem codec_valueDecl : Codec encodeValueDecl valueDecl := by
  refine codec_valueId.field ValueDecl.id (fun _ _ => trivial) fun _ _ => ?_
  refine codec_valueType.last ValueDecl.ty ?_ fun _ _ => ⟨⟨trivial, rfl⟩, rfl⟩
  rintro ⟨⟩ ⟨-, rfl⟩
  exact ⟨trivial, rfl⟩

/-! ## Operations

An operation is a family, an opcode and attributes, and the attributes are empty but for the
capability that a tool invocation names. -/

/-- Family, opcode and attributes. -/
def encodeOp : OpKind → UInt8 × UInt8 × Bytes
  | .tensor op => (1, tensorOpTag op, [])
  | .state op => (2, stateOpTag op, [])
  | .memory op => (3, memoryOpTag op, [])
  | .control op => (4, controlOpTag op, [])
  | .tool (.invoke capability) => (5, 1, utf8 capability)
  | .tool .observe => (5, 2, [])
  | .tool .verify => (5, 3, [])

/-- Attributes where the operation has none. -/
def rejectAttrs (attrs : Bytes) : Except IrCodecError Unit :=
  refuse (attrs ≠ []) .nonCanonicalEncoding

/-- The family decides which table the opcode is looked up in. -/
def decodeOp (family opcode : UInt8) (attrs : Bytes) : Except IrCodecError OpKind :=
  match family with
  | 1 => do
    rejectAttrs attrs
    let op ← okOr (tensorOpOf opcode) (.invalidOpCode family opcode)
    return .tensor op
  | 2 => do
    rejectAttrs attrs
    let op ← okOr (stateOpOf opcode) (.invalidOpCode family opcode)
    return .state op
  | 3 => do
    rejectAttrs attrs
    let op ← okOr (memoryOpOf opcode) (.invalidOpCode family opcode)
    return .memory op
  | 4 => do
    rejectAttrs attrs
    let op ← okOr (controlOpOf opcode) (.invalidOpCode family opcode)
    return .control op
  | 5 =>
    match opcode with
    | 1 => do
      let capability ← okOr (ofUtf8 attrs) .invalidUtf8
      return .tool (.invoke capability)
    | 2 => do
      rejectAttrs attrs
      return .tool .observe
    | 3 => do
      rejectAttrs attrs
      return .tool .verify
    | other => .error (.invalidOpCode family other)
  | other => .error (.invalidOpFamily other)

/-- **An operation is read from its own encoding and from no other.** -/
theorem decodeOp_eq_ok {family opcode : UInt8} {attrs : Bytes} {op : OpKind} :
    decodeOp family opcode attrs = .ok op ↔ encodeOp op = (family, opcode, attrs) := by
  constructor
  · intro h
    unfold decodeOp at h
    split at h
    · simp only [rejectAttrs, bind_eq_ok, exists_unit, refuse_eq_ok, not_not, okOr_eq_ok,
        tensorOpOf_eq_some, pure_eq_ok] at h
      obtain ⟨rfl, op, rfl, rfl⟩ := h
      rfl
    · simp only [rejectAttrs, bind_eq_ok, exists_unit, refuse_eq_ok, not_not, okOr_eq_ok,
        stateOpOf_eq_some, pure_eq_ok] at h
      obtain ⟨rfl, op, rfl, rfl⟩ := h
      rfl
    · simp only [rejectAttrs, bind_eq_ok, exists_unit, refuse_eq_ok, not_not, okOr_eq_ok,
        memoryOpOf_eq_some, pure_eq_ok] at h
      obtain ⟨rfl, op, rfl, rfl⟩ := h
      rfl
    · simp only [rejectAttrs, bind_eq_ok, exists_unit, refuse_eq_ok, not_not, okOr_eq_ok,
        controlOpOf_eq_some, pure_eq_ok] at h
      obtain ⟨rfl, op, rfl, rfl⟩ := h
      rfl
    · split at h
      · simp only [bind_eq_ok, okOr_eq_ok, ofUtf8_eq_some, pure_eq_ok] at h
        obtain ⟨capability, rfl, rfl⟩ := h
        rfl
      · simp only [rejectAttrs, bind_eq_ok, exists_unit, refuse_eq_ok, not_not, pure_eq_ok] at h
        obtain ⟨rfl, rfl⟩ := h
        rfl
      · simp only [rejectAttrs, bind_eq_ok, exists_unit, refuse_eq_ok, not_not, pure_eq_ok] at h
        obtain ⟨rfl, rfl⟩ := h
        rfl
      · cases h
    · cases h
  · intro h
    obtain ⟨rfl, rfl, rfl⟩ : (encodeOp op).1 = family ∧ (encodeOp op).2.1 = opcode ∧
        (encodeOp op).2.2 = attrs := by
      rw [h]
      exact ⟨rfl, rfl, rfl⟩
    cases op with
    | tensor op => cases op <;> rfl
    | state op => cases op <;> rfl
    | memory op => cases op <;> rfl
    | control op => cases op <;> rfl
    | tool op =>
      cases op with
      | invoke capability =>
        have htext : ofUtf8 (utf8 capability) = some capability := ofUtf8_eq_some.2 rfl
        change okOr (ofUtf8 (utf8 capability)) _ >>= _ = _
        rw [htext]
        rfl
      | observe => rfl
      | verify => rfl

/-! ## Nodes

The three counts of a node stand in front of its lists; the attributes come last. -/

/-- Id, family, opcode, a reserved zero, the counts, then inputs, outputs and attributes. -/
def encodeNode (node : Node) : Encoder := do
  pushU32 node.id.val
  pushU8 (encodeOp node.op).1
  pushU8 (encodeOp node.op).2.1
  pushU16 0
  pushCount node.inputs.length
  pushCount node.outputs.length
  pushCount (encodeOp node.op).2.2.length
  node.inputs.forM fun input => pushU32 input.val
  node.outputs.forM encodeValueDecl
  tell (encodeOp node.op).2.2

/-- An operation whose attributes take `attrLen` bytes. -/
def op (family opcode : UInt8) (attrLen : ℕ) : Decoder OpKind := do
  let attrs ← take attrLen
  decodeOp family opcode attrs

/-- The attributes are read behind the outputs, with the family and the opcode from the front. -/
def node : Decoder Node := do
  let id ← u32
  let family ← u8
  let opcode ← u8
  let reserved ← u16
  refuse (reserved ≠ 0) .nonCanonicalEncoding
  let inputCount ← count
  let outputCount ← count
  let attrLen ← count
  let inputs ← getN valueId inputCount
  let outputs ← getN valueDecl outputCount
  let op ← op family opcode attrLen
  return { id := ⟨id⟩, op, inputs, outputs }

/-- The operations of one family, opcode and attribute length. -/
theorem inverse_op (family opcode : UInt8) (n : ℕ) :
    Inverse (fun op => (encodeOp op).1 = family ∧ (encodeOp op).2.1 = opcode ∧
      (encodeOp op).2.2.length = n) (fun op => tell (encodeOp op).2.2) (op family opcode n) := by
  refine (inverse_take n).resolve (fun op => (encodeOp op).2.2) ?_ ?_
  · rintro op ⟨rfl, rfl, hlen⟩
    exact ⟨hlen, decodeOp_eq_ok.2 rfl⟩
  · intro attrs op hlen h
    rw [decodeOp_eq_ok.1 h]
    exact ⟨⟨rfl, rfl, hlen⟩, rfl⟩

/-- What is read as a node is what the encoder writes for it. -/
theorem codec_node : Codec encodeNode node := by
  refine inverse_u32.field (fun n : Node => n.id.val) (fun _ _ => trivial) fun _ _ => ?_
  refine inverse_u8.field (fun n : Node => (encodeOp n.op).1) (fun _ _ => trivial) fun _ _ => ?_
  refine inverse_u8.field (fun n : Node => (encodeOp n.op).2.1) (fun _ _ => trivial) fun _ _ => ?_
  refine inverse_u16.checked (fun _ => 0) (fun _ _ => ⟨trivial, not_not.2 rfl⟩)
    fun reserved _ hreserved => ?_
  refine inverse_count.field (fun n : Node => n.inputs.length) (fun _ _ => trivial) fun _ _ => ?_
  refine inverse_count.field (fun n : Node => n.outputs.length) (fun _ _ => trivial) fun _ _ => ?_
  refine inverse_count.field (fun n : Node => (encodeOp n.op).2.2.length) (fun _ _ => trivial)
    fun _ _ => ?_
  refine (inverse_getN codec_valueId _).field Node.inputs ?_ fun _ hinputs => ?_
  · rintro n ⟨⟨⟨-, hinputs⟩, -⟩, -⟩
    exact ⟨fun _ _ => trivial, hinputs⟩
  refine (inverse_getN codec_valueDecl _).field Node.outputs ?_ fun _ houtputs => ?_
  · rintro n ⟨⟨⟨-, houtputs⟩, -⟩, -⟩
    exact ⟨fun _ _ => trivial, houtputs⟩
  refine (inverse_op _ _ _).last Node.op ?_ ?_
  · rintro ⟨⟨_⟩, _, _, _⟩ ⟨⟨⟨⟨⟨⟨⟨⟨⟨-, rfl⟩, hfamily⟩, hopcode⟩, -⟩, -⟩, -⟩, hattrs⟩, rfl⟩, rfl⟩
    exact ⟨⟨hfamily, hopcode, hattrs⟩, rfl⟩
  · rintro op ⟨rfl, rfl, rfl⟩
    exact ⟨⟨⟨⟨⟨⟨⟨⟨⟨⟨trivial, rfl⟩, rfl⟩, rfl⟩, (not_not.1 hreserved).symm⟩, hinputs.2⟩, houtputs.2⟩,
      rfl⟩, rfl⟩, rfl⟩, rfl⟩

/-! ## Graphs

The header fixes the version and three counts; what is read is validated as a graph at the end. -/

/-- The bytes of a graph, whether it is valid or not. -/
def encodeBody (graph : Graph) : Encoder := do
  tell irGraphMagic
  pushU16 24
  pushU16 graph.version.major
  pushU16 graph.version.minor
  pushCount graph.inputs.length
  pushCount graph.outputs.length
  pushCount graph.nodes.length
  graph.inputs.forM encodeValueDecl
  graph.outputs.forM fun output => pushU32 output.val
  graph.nodes.forM encodeNode

/-- The body of a graph, of a version that can be read. -/
def graph : Decoder Graph := do
  let magic ← take 6
  refuse (magic ≠ irGraphMagic) .invalidMagic
  let len ← u16
  refuse (len ≠ 24) .invalidHeader
  let major ← u16
  let minor ← u16
  refuse (¬ IrVersion.current.canRead ⟨major, minor⟩) (.unsupportedVersion ⟨major, minor⟩)
  let inputCount ← count
  let outputCount ← count
  let nodeCount ← count
  let inputs ← getN valueDecl inputCount
  let outputs ← getN valueId outputCount
  let nodes ← getN node nodeCount
  return { version := ⟨major, minor⟩, inputs, outputs, nodes }

/-- **The body is read back**, for every graph of a version that can be read. -/
theorem inverse_graph :
    Inverse (fun g : Graph => IrVersion.current.canRead g.version) encodeBody graph := by
  refine (inverse_take 6).checked (fun _ => irGraphMagic) (fun _ _ => ⟨rfl, not_not.2 rfl⟩)
    fun _ _ hmagic => ?_
  refine inverse_u16.checked (fun _ => 24) (fun _ _ => ⟨trivial, not_not.2 rfl⟩)
    fun _ _ hlen => ?_
  refine inverse_u16.field (fun g : Graph => g.version.major) (fun _ _ => trivial) fun _ _ => ?_
  refine inverse_u16.checked (fun g : Graph => g.version.minor) ?_ fun _ _ hread => ?_
  · rintro g ⟨⟨⟨hread, -⟩, -⟩, rfl⟩
    exact ⟨trivial, not_not.2 hread⟩
  refine inverse_count.field (fun g : Graph => g.inputs.length) (fun _ _ => trivial) fun _ _ => ?_
  refine inverse_count.field (fun g : Graph => g.outputs.length) (fun _ _ => trivial) fun _ _ => ?_
  refine inverse_count.field (fun g : Graph => g.nodes.length) (fun _ _ => trivial) fun _ _ => ?_
  refine (inverse_getN codec_valueDecl _).field Graph.inputs ?_ fun _ hinputs => ?_
  · rintro g ⟨⟨⟨-, hinputs⟩, -⟩, -⟩
    exact ⟨fun _ _ => trivial, hinputs⟩
  refine (inverse_getN codec_valueId _).field Graph.outputs ?_ fun _ houtputs => ?_
  · rintro g ⟨⟨⟨-, houtputs⟩, -⟩, -⟩
    exact ⟨fun _ _ => trivial, houtputs⟩
  refine (inverse_getN codec_node _).last Graph.nodes ?_ ?_
  · rintro ⟨⟨_, _⟩, _, _, _⟩ ⟨⟨⟨⟨⟨⟨⟨-, rfl⟩, rfl⟩, -⟩, -⟩, hnodes⟩, rfl⟩, rfl⟩
    exact ⟨⟨fun _ _ => trivial, hnodes⟩, rfl⟩
  · intro nodes hnodes
    exact ⟨⟨⟨⟨⟨⟨⟨⟨⟨⟨not_not.1 hread, (not_not.1 hmagic).symm⟩, (not_not.1 hlen).symm⟩, rfl⟩, rfl⟩,
      hinputs.2⟩, houtputs.2⟩, hnodes.2⟩, rfl⟩, rfl⟩, rfl⟩

end GraphCodec

open GraphCodec

/-- `encode_graph`: only valid graphs of a readable version are written. -/
def encodeGraph (graph : Graph) : Except IrCodecError Bytes := do
  refuse (¬ IrVersion.current.canRead graph.version) (.unsupportedVersion graph.version)
  graph.validate.mapError .structuralValidation
  written (encodeBody graph)

/-- `decode_graph`: all bytes are used up, and the graph is valid. -/
def decodeGraph (bytes : Bytes) : Except IrCodecError Graph := do
  let graph ← readAll graph .nonCanonicalEncoding bytes
  graph.validate.mapError .structuralValidation
  return graph

/-- One direction: what was written is read back. -/
theorem decodeGraph_of_encode {g : Graph} {b : Bytes} (h : encodeGraph g = .ok b) :
    decodeGraph b = .ok g := by
  simp only [encodeGraph, bind_eq_ok, exists_unit, refuse_eq_ok, mapError_eq_ok, not_not] at h
  obtain ⟨hread, hvalid, hwritten⟩ := h
  simp only [decodeGraph, bind_eq_ok, exists_unit, mapError_eq_ok, pure_eq_ok,
    inverse_graph.readAll_eq_ok]
  exact ⟨g, ⟨hread, hwritten⟩, hvalid, rfl⟩

/-- **NIR97 is a bijection** between the graphs that can be encoded and the byte strings that are
accepted. -/
theorem nir97_bijective (g : Graph) (b : Bytes) : encodeGraph g = .ok b ↔ decodeGraph b = .ok g := by
  refine ⟨decodeGraph_of_encode, fun h => ?_⟩
  simp only [decodeGraph, bind_eq_ok, exists_unit, mapError_eq_ok, pure_eq_ok,
    inverse_graph.readAll_eq_ok] at h
  obtain ⟨_, ⟨hread, hwritten⟩, hvalid, rfl⟩ := h
  simp only [encodeGraph, bind_eq_ok, exists_unit, refuse_eq_ok, mapError_eq_ok, not_not]
  exact ⟨hread, hvalid, hwritten⟩

end NTD97
