import Mathlib
import NTD97.Core
import NTD97.Lib.Guard

/-!
# Graph — the intermediate representation

A graph declares its inputs, then its nodes in an order in which every node reads what was declared
before it, then names its outputs.  `validate` checks that, and that nothing is declared twice.
-/

namespace NTD97

open Guard

/-- The version of the graph language that a file was written in. -/
structure IrVersion where
  major : UInt16
  minor : UInt16
  deriving DecidableEq

/-- The version `0.4`. -/
def IrVersion.current : IrVersion where
  major := 0
  minor := 4

/-- A build reads its own major version up to its own minor version. -/
def IrVersion.canRead (self other : IrVersion) : Prop :=
  self.major = other.major ∧ other.minor ≤ self.minor

instance (self other : IrVersion) : Decidable (self.canRead other) :=
  inferInstanceAs (Decidable (_ ∧ _))

/-- The name of a node. -/
structure NodeId where
  val : UInt32
  deriving DecidableEq

/-- The name of a value. -/
structure ValueId where
  val : UInt32
  deriving DecidableEq

/-- The element types of tensors and scalars. -/
inductive DType where
  | f32
  | f16
  | bf16
  | i8
  | u8
  | i32
  | i64
  | bool
  deriving DecidableEq

/-- The code of an element type in every file format. -/
def dtypeTag : DType → UInt8
  | .f32 => 1
  | .f16 => 2
  | .bf16 => 3
  | .i8 => 4
  | .u8 => 5
  | .i32 => 6
  | .i64 => 7
  | .bool => 8

/-- The element type a tag names, for every format that writes one. -/
def dtypeOf : UInt8 → Option DType
  | 1 => some .f32
  | 2 => some .f16
  | 3 => some .bf16
  | 4 => some .i8
  | 5 => some .u8
  | 6 => some .i32
  | 7 => some .i64
  | 8 => some .bool
  | _ => none

/-- **The code and its inverse.** -/
theorem dtypeOf_eq_some {n : UInt8} {dtype : DType} :
    dtypeOf n = some dtype ↔ dtypeTag dtype = n := by
  constructor
  · intro h
    unfold dtypeOf at h
    split at h <;> cases h <;> rfl
  · rintro rfl
    cases dtype <;> rfl

/-- What a value is. -/
inductive ValueType where
  | scalar (dtype : DType)
  | tensor (dtype : DType) (rank : UInt8)
  | bytes
  | handle
  deriving DecidableEq

/-- A value that an input or a node brings into being. -/
structure ValueDecl where
  id : ValueId
  ty : ValueType
  deriving DecidableEq

/-- The operations on tensors. -/
inductive TensorOp where
  | add
  | mul
  | matMul
  | quantizedMatMul
  | rmsNorm
  | softmax
  | gather
  | rotaryPosition
  | causalAttention
  | silu
  | reshape
  | transpose
  | positionIds
  deriving DecidableEq

/-- The operations on the state kept between runs. -/
inductive StateOp where
  | read
  | write
  | checkpoint
  deriving DecidableEq

/-- The operations on the memory. -/
inductive MemoryOp where
  | retrieve
  | store
  | forget
  deriving DecidableEq

/-- The operations that choose and order. -/
inductive ControlOp where
  | select
  | merge
  | barrier
  deriving DecidableEq

/-- The operations that reach outside; an invocation names its capability. -/
inductive ToolOp where
  | invoke (capability : String)
  | observe
  | verify
  deriving DecidableEq

/-- An operation of one of the five families. -/
inductive OpKind where
  | tensor (op : TensorOp)
  | state (op : StateOp)
  | memory (op : MemoryOp)
  | control (op : ControlOp)
  | tool (op : ToolOp)
  deriving DecidableEq

/-- A node reads values and declares those it computes. -/
structure Node where
  id : NodeId
  op : OpKind
  inputs : List ValueId
  outputs : List ValueDecl
  deriving DecidableEq

/-- A graph, valid or not. -/
structure Graph where
  version : IrVersion
  inputs : List ValueDecl
  outputs : List ValueId
  nodes : List Node
  deriving DecidableEq

/-- Why a graph is refused. -/
inductive ValidationError where
  | unsupportedVersion (version : IrVersion)
  | duplicateNodeId (id : NodeId)
  | duplicateValue (id : ValueId)
  | missingInput (node : NodeId) (value : ValueId)
  | missingGraphOutput (id : ValueId)
  deriving DecidableEq

/-! ## Validation

The nodes are walked once: each must read what stands before it and declare what does not. -/

/-- A set of ids. -/
abbrev IdSet := Std.ExtTreeSet UInt32

/-- A value that is not declared yet. -/
def declare (values : IdSet) (decl : ValueDecl) : Except ValidationError IdSet := do
  refuse (decl.id.val ∈ values) (.duplicateValue decl.id)
  return values.insert decl.id.val

/-- One node, after the ids of the nodes and the values before it. -/
def Node.validate (seen : IdSet × IdSet) (node : Node) :
    Except ValidationError (IdSet × IdSet) := do
  refuse (node.id.val ∈ seen.1) (.duplicateNodeId node.id)
  node.inputs.forM fun input => refuse (input.val ∉ seen.2) (.missingInput node.id input)
  let values ← node.outputs.foldlM declare seen.2
  return (seen.1.insert node.id.val, values)

/-- `Graph::validate`: the version first, the outputs last. -/
def Graph.validate (self : Graph) : Except ValidationError Unit := do
  refuse (¬ IrVersion.current.canRead self.version) (.unsupportedVersion self.version)
  let values ← self.inputs.foldlM declare ∅
  let (_, values) ← self.nodes.foldlM Node.validate (∅, values)
  self.outputs.forM fun output => refuse (output.val ∉ values) (.missingGraphOutput output)

end NTD97
