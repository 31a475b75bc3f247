import Mathlib
import NTD97.Lib.Liveness
import NTD97.Lib.SortedMap
import NTD97.Tensor

/-!
# Executor — running a graph

    inputs ──seed──▸ values ──node──▸ values ──…──▸ outputs

A node reads its inputs, which a resolver supplies if they are graph inputs that nobody gave, and
stores its outputs.  A value is forgotten with its last use.  The reference evaluator takes the same
steps and forgets nothing.
-/

namespace NTD97

open Guard Liveness SortedMap

/-- Why a tensor could not be fetched. -/
inductive TensorResolveError where
  | unavailable
  | invalid
  deriving DecidableEq

/-- What supplies a graph input that nobody gave. -/
abbrev TensorResolver := ValueId → Except TensorResolveError (Option Tensor)

/-- No tensors but the inputs. -/
def emptyTensorResolver : TensorResolver := fun _ => return none

/-- Why a graph is not executed. -/
inductive ExecutionError where
  | invalidGraph (source : ValidationError)
  | missingGraphInput (value : ValueId)
  | missingValue (node : NodeId) (value : ValueId)
  | unsupportedNode (node : NodeId)
  | provider (node : NodeId) (source : TensorError)
  | outputArity (node : NodeId) (expected actual : ℕ)
  | outputType (node : NodeId) (value : ValueId)
  | outputRank (node : NodeId) (value : ValueId) (expected actual : ℕ)
  | resolve (value : ValueId) (source : TensorResolveError)
  deriving DecidableEq

/-- Tensors by the ids of their values. -/
abbrev Values := BTreeMap UInt32 Tensor

/-- The declared values by their numbers. -/
abbrev Decls := BTreeMap UInt32 ValueDecl

namespace GraphExecutor

/-- The node that checks outside a node name, `u32::MAX`. -/
def noNode : NodeId := ⟨0xFFFFFFFF⟩

/-- A tensor fits the declaration it is stored under. -/
def validateDecl (node : NodeId) (decl : ValueDecl) (tensor : Tensor) :
    Except ExecutionError Unit := do
  let expectedRank ← match decl.ty with
    | .scalar _ => pure 0
    | .tensor _ rank => pure rank.toNat
    | .bytes => throw (.outputType node decl.id)
    | .handle => throw (.outputType node decl.id)
  refuse (tensor.rank ≠ expectedRank) (.outputRank node decl.id expectedRank tensor.rank)

/-- The inputs of a graph. -/
def inputDecls (graph : Graph) : Decls :=
  graph.inputs.foldl (fun decls decl => decls.insert decl.id.val decl) ∅

/-- One given tensor; those that are not graph inputs are ignored. -/
def seedInput (decls : Decls) (values : Values) (entry : UInt32 × Tensor) :
    Except ExecutionError Values :=
  match decls[entry.1]? with
  | none => return values
  | some decl => do
    validateDecl noNode decl entry.2
    return values.insert entry.1 entry.2

/-- The inputs that a caller gives, checked against the declarations. -/
def seed (graph : Graph) (inputs : Values) : Except ExecutionError Values :=
  inputs.toList.foldlM (seedInput (inputDecls graph)) ∅

/-- One input of a node, supplied if it is a graph input without a value. -/
def resolveInput (decls : Decls) (resolver : TensorResolver) (node : NodeId) (values : Values)
    (value : ValueId) : Except ExecutionError Values :=
  if value.val ∈ values then return values
  else do
    let decl ← okOr decls[value.val]? (.missingValue node value)
    let found ← (resolver value).mapError (.resolve value)
    let tensor ← okOr found (.missingGraphInput value)
    validateDecl noNode decl tensor
    return values.insert value.val tensor

/-- Only operations on tensors are executed. -/
def tensorOp (node : Node) : Except ExecutionError TensorOp :=
  match node.op with
  | .tensor op => return op
  | _ => throw (.unsupportedNode node.id)

/-- A value that must be there by now. -/
def readInput (node : NodeId) (values : Values) (value : ValueId) : Except ExecutionError Tensor :=
  okOr values[value.val]? (.missingValue node value)

/-- The part of a node before anything is forgotten: the values with its inputs, and its outputs. -/
def compute (provider : ExecutionProvider) (decls : Decls) (resolver : TensorResolver)
    (values : Values) (node : Node) : Except ExecutionError (Values × List Tensor) := do
  let op ← tensorOp node
  let values ← node.inputs.foldlM (resolveInput decls resolver node.id) values
  let nodeInputs ← node.inputs.mapM (readInput node.id values)
  let outputs ← (provider op nodeInputs).mapError (.provider node.id)
  refuse (outputs.length ≠ node.outputs.length)
    (.outputArity node.id node.outputs.length outputs.length)
  return (values, outputs)

/-- An output that fits its declaration. -/
def storeOutput (node : NodeId) (values : Values) (output : ValueDecl × Tensor) :
    Except ExecutionError Values := do
  validateDecl node output.1 output.2
  return values.insert output.1.id.val output.2

/-- The values that a graph returns, which are never freed early. -/
def outputIds (graph : Graph) : IdSet := insertAll ∅ (graph.outputs.map ValueId.val)

/-- The keys a list of nodes reads. -/
def uses (nodes : List Node) : List UInt32 := nodes.flatMap fun node => node.inputs.map ValueId.val

/-- One node: it is computed, inputs that are not read again are freed, and its outputs stored. -/
def executeNode (provider : ExecutionProvider) (decls : Decls) (resolver : TensorResolver)
    (outputIds : IdSet) (pool : Pool UInt32 Tensor) (node : Node) :
    Except ExecutionError (Pool UInt32 Tensor) := do
  let (values, outputs) ← compute provider decls resolver pool.values node
  let pool := (node.inputs.map ValueId.val).foldl (release (· ∈ outputIds)) { pool with values }
  let values ← (node.outputs.zip outputs).foldlM (storeOutput node.id) pool.values
  return { pool with values }

/-- Everything up to the collection of the outputs. -/
def executeNodes (provider : ExecutionProvider) (graph : Graph) (inputs : Values)
    (resolver : TensorResolver) : Except ExecutionError (Pool UInt32 Tensor) := do
  graph.validate.mapError .invalidGraph
  let values ← seed graph inputs
  graph.nodes.foldlM
    (executeNode provider (inputDecls graph) resolver (outputIds graph))
    { remaining := countUses (uses graph.nodes), values }

/-- The values that a graph returns. -/
def collectOutputs (graph : Graph) (values : Values) : Except ExecutionError (List Tensor) :=
  graph.outputs.mapM (readInput noNode values)

/-- `execute_with_resolver`: node after node. -/
def executeWithResolver (provider : ExecutionProvider) (graph : Graph) (inputs : Values)
    (resolver : TensorResolver) : Except ExecutionError (List Tensor) := do
  let pool ← executeNodes provider graph inputs resolver
  collectOutputs graph pool.values

/-- Execution where every input is given. -/
def execute (provider : ExecutionProvider) (graph : Graph) (inputs : Values) :
    Except ExecutionError (List Tensor) :=
  executeWithResolver provider graph inputs emptyTensorResolver

/-! ## The reference evaluator

The same without freeing: what has been computed stays. -/

/-- A node, with nothing forgotten. -/
def referenceNode (provider : ExecutionProvider) (decls : Decls) (resolver : TensorResolver)
    (values : Values) (node : Node) : Except ExecutionError Values := do
  let (values, outputs) ← compute provider decls resolver values node
  (node.outputs.zip outputs).foldlM (storeOutput node.id) values

def referenceNodes (provider : ExecutionProvider) (graph : Graph) (inputs : Values)
    (resolver : TensorResolver) : Except ExecutionError Values := do
  graph.validate.mapError .invalidGraph
  let values ← seed graph inputs
  graph.nodes.foldlM (referenceNode provider (inputDecls graph) resolver) values

def referenceExecute (provider : ExecutionProvider) (graph : Graph) (inputs : Values)
    (resolver : TensorResolver) : Except ExecutionError (List Tensor) := do
  let values ← referenceNodes provider graph inputs resolver
  collectOutputs graph values

end GraphExecutor

end NTD97
