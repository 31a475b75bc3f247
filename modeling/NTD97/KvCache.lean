import Mathlib
import NTD97.Lib.Effect
import NTD97.Lib.Run
import NTD97.Lib.SortedMap
import NTD97.Tensor.Shapes

/-!
# KvCache — the keys and values of each layer

    append ▸ rows at the end        truncate_left ▸ the last rows stay

A layer holds two tensors, and both are rewritten one after the other, so a failure in between would
leave them apart.  It cannot happen: the two have one shape (`Valid`), and whether a tensor can be
rewritten depends on its shape alone.  So the cache is a list of rows for each layer (`Rows`).
-/

namespace NTD97

open Effect Guard Machine

/-- The keys and values of a layer so far. -/
structure KvLayerCache where
  key : Tensor
  value : Tensor

/-- The cache of all layers. -/
structure KvCache where
  layers : BTreeMap UInt32 KvLayerCache

/-- Why a call is refused. -/
inductive KvCacheError where
  | invalidRank
  | shapeMismatch
  | tensor
  deriving DecidableEq

/-- `usize::checked_sub`. -/
def checkedSubUsize (a b : ℕ) : Option ℕ := if b ≤ a then some (a - b) else none

/-- `validate_kv_pair`: keys and values of one shape, which has a sequence. -/
def validateKvPair (key value : Tensor) : Except KvCacheError Unit := do
  refuse (key.shape = [] ∨ value.shape = []) .invalidRank
  refuse (key.shape.head? ≠ value.shape.head? ∨ key.shape.tail ≠ value.shape.tail) .shapeMismatch

/-- Two tensors, one behind the other along the sequence. -/
def concatSequence (left right : Tensor) : Except KvCacheError Tensor :=
  match left.shape, right.shape with
  | sequence :: shape, sequence' :: shape' => do
    refuse (shape ≠ shape') .shapeMismatch
    let sequence ← okOr (checkedAddUsize sequence sequence') .tensor
    let _ ← okOr (checkedAddUsize left.data.length right.data.length) .tensor
    (Tensor.new (sequence :: shape) (left.data ++ right.data)).mapError fun _ => .tensor
  | _, _ => throw .shapeMismatch

/-- The last part of the sequence. -/
def retainLastSequence (tensor : Tensor) (maxTokens : ℕ) : Except KvCacheError Tensor :=
  match tensor.shape with
  | [] => throw .invalidRank
  | sequence :: shape =>
    if sequence ≤ maxTokens then return tensor
    else do
      let rowWidth := tensor.data.length / sequence
      let dropped ← okOr (checkedSubUsize sequence maxTokens) .tensor
      let start ← okOr (checkedMulUsize dropped rowWidth) .tensor
      (Tensor.new (maxTokens :: shape) (tensor.data.drop start)).mapError fun _ => .tensor

namespace KvCache

/-- A cache without layers. -/
def empty : KvCache := ⟨∅⟩

/-- What is kept of a layer. -/
def layer (self : KvCache) (layer : UInt32) : Option KvLayerCache := self.layers[layer]?

def setKey (layer : UInt32) (key : Tensor) (self : KvCache) : KvCache :=
  ⟨self.layers.modify layer fun existing => { existing with key }⟩

def setValue (layer : UInt32) (value : Tensor) (self : KvCache) : KvCache :=
  ⟨self.layers.modify layer fun existing => { existing with value }⟩

/-- `append`: keys and values of one step, checked before either is stored. -/
def append (layer : UInt32) (key value : Tensor) : Eff KvCache KvCacheError Unit := do
  check id (validateKvPair key value)
  match (← get).layer layer with
  | some existing => do
    let newKey ← check id (concatSequence existing.key key)
    modify (setKey layer newKey)
    let newValue ← check id (concatSequence existing.value value)
    modify (setValue layer newValue)
  | none => modify fun self => ⟨self.layers.insert layer ⟨key, value⟩⟩

/-- One layer of `truncate_left`. -/
def truncateLayer (maxTokens : ℕ) (layer : UInt32) : Eff KvCache KvCacheError Unit := do
  match (← get).layer layer with
  | some existing => do
    let newKey ← check id (retainLastSequence existing.key maxTokens)
    modify (setKey layer newKey)
    let newValue ← check id (retainLastSequence existing.value maxTokens)
    modify (setValue layer newValue)
  | none => pure ()

/-- `truncate_left`: every layer keeps its last tokens. -/
def truncateLeft (maxTokens : ℕ) : Eff KvCache KvCacheError Unit := do
  (← get).layers.keys.forM (truncateLayer maxTokens)

/-- `clear`: all layers are dropped. -/
def clear : Eff KvCache KvCacheError Unit := modify fun _ => empty

/-! ## Runs

Calls one after the other, failed ones among them. -/

/-- A call on a cache. -/
inductive Call where
  | append (layer : UInt32) (key value : Tensor)
  | truncateLeft (maxTokens : ℕ)
  | clear

/-- What the call does. -/
def Call.run : Call → Eff KvCache KvCacheError Unit
  | .append layer key value => KvCache.append layer key value
  | .truncateLeft maxTokens => KvCache.truncateLeft maxTokens
  | .clear => KvCache.clear

end KvCache

/-! ## Rows

The cache as lists of rows, which is what it is for. -/

/-- The rows of a tensor, along its first axis. -/
def Tensor.rows (t : Tensor) : List (List F32) :=
  match t.shape with
  | [] => []
  | sequence :: shape =>
    (List.range sequence).map fun row => (t.data.drop (row * shape.prod)).take shape.prod

/-- **What a layer stands for**: the shape of a row, and the rows of both tensors. -/
structure LayerRows where
  shape : List ℕ
  keys : List (List F32)
  values : List (List F32)

/-- **What a cache stands for.** -/
abbrev Rows := UInt32 → Option LayerRows

/-- The last rows. -/
def lastRows (maxTokens : ℕ) (rows : List (List F32)) : List (List F32) :=
  rows.drop (rows.length - maxTokens)

namespace LayerRows

/-- The rows of one step. -/
def ofPair (key value : Tensor) : LayerRows := ⟨key.shape.tail, key.rows, value.rows⟩

/-- Rows behind rows. -/
def append (self : LayerRows) (key value : Tensor) : LayerRows :=
  { self with keys := self.keys ++ key.rows, values := self.values ++ value.rows }

/-- The last rows. -/
def truncateLeft (maxTokens : ℕ) (self : LayerRows) : LayerRows :=
  { self with keys := lastRows maxTokens self.keys, values := lastRows maxTokens self.values }

end LayerRows

/-- What a call that answers does to the rows. -/
def Rows.call (rows : Rows) : KvCache.Call → Rows
  | .append layer key value => Function.update rows layer (some
      (((rows layer).map fun old => old.append key value).getD (LayerRows.ofPair key value)))
  | .truncateLeft maxTokens => fun layer => (rows layer).map (LayerRows.truncateLeft maxTokens)
  | .clear => fun _ => none

namespace KvCache

/-- A cache beside the rows that the calls so far leave of it. -/
structure Traced where
  cache : KvCache
  rows : Rows

/-- A call that fails appends and drops no rows. -/
def Traced.step (s : Traced) (call : Call) : Traced :=
  match exec call.run s.cache with
  | (.ok (), cache) => ⟨cache, s.rows.call call⟩
  | (.error _, cache) => ⟨cache, s.rows⟩

end KvCache

end NTD97
