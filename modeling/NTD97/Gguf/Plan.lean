import Mathlib
import NTD97.Gguf

/-!
# Gguf/Plan — what the intake report says of a model

    model ──tokenizer ▪ architecture ▪ types──▸ counts ▪ blockers

A plan counts the tensors by what becomes of them, and lists what stands in the way of a conversion.
The last blocker is there for every model.
-/

namespace NTD97

open Guard

namespace GgufModel

def modelName (model : GgufModel) : Option String := model.nonblankText "general.name"

end GgufModel

inductive GgufTensorDisposition where
  | nativeF32
  | nativeF16
  | nativeBf16
  | supportedTranscode (ggmlType : UInt32)
  | unsupported (ggmlType : UInt32)
  deriving DecidableEq

def tensorDisposition (ggmlType : UInt32) : GgufTensorDisposition :=
  match ggmlType with
  | 0 => .nativeF32
  | 1 => .nativeF16
  | 30 => .nativeBf16
  | 2 | 8 | 12 | 13 | 14 => .supportedTranscode ggmlType
  | other => .unsupported other

namespace GgufTensorDisposition

def isDirect : GgufTensorDisposition → Bool
  | nativeF32 | nativeF16 | nativeBf16 => true
  | supportedTranscode _ | unsupported _ => false

def isTranscoded : GgufTensorDisposition → Bool
  | supportedTranscode _ => true
  | nativeF32 | nativeF16 | nativeBf16 | unsupported _ => false

/-- The type that cannot be transcoded. -/
def unsupportedType : GgufTensorDisposition → Option UInt32
  | unsupported ggmlType => some ggmlType
  | nativeF32 | nativeF16 | nativeBf16 | supportedTranscode _ => none

end GgufTensorDisposition

structure GgufConversionPlan where
  architecture : String
  modelName : Option String
  tokenizerModel : String
  vocabularySize : ℕ
  tensorCount : ℕ
  directTensorCount : ℕ
  transcodeTensorCount : ℕ
  unsupportedTensorCount : ℕ
  alignment : UInt32
  blockers : List String
  deriving DecidableEq

/-- The debug text of a set of numbers. -/
def debugSet (numbers : List UInt32) : String :=
  "\x7b" ++ ", ".intercalate (numbers.map fun n => toString n.toNat) ++ "\x7d"

/-- What blocks a tokenizer. -/
def tokenizerBlocker (tokenizer : GgufTokenizer) : Option String :=
  if tokenizer.model = "llama" then llamaSpmBlocker tokenizer
  else if tokenizer.model = "gpt2" then gpt2BpeBlocker tokenizer
  else
    let name := tokenizer.model
    some s!"tokenizer '{name}' has no canonical NTD97 tokenizer lowering yet"

/-- The blocker of every model. -/
def semanticEquivalenceBlocker : String :=
  "representative real-model source-vs-NIR97 semantic equivalence is required before activation"

namespace GgufConversionPlan

def fromModel (model : GgufModel) : Except GgufError GgufConversionPlan := do
  let tokenizer ← model.tokenizer
  let architecture ← model.architecture
  let dispositions := model.tensors.map fun tensor => tensorDisposition tensor.ggmlType
  let unsupported := dispositions.filterMap GgufTensorDisposition.unsupportedType
  let unsupportedTypes : Std.ExtTreeSet UInt32 := unsupported.foldl (·.insert ·) ∅
  let count := unsupported.length
  let types := debugSet unsupportedTypes.toList
  let architectureBlocker :=
    if architecture = "llama" then []
    else [s!"architecture '{architecture}' has no canonical NTD97 lowering yet"]
  let typeBlocker :=
    if 0 < count then [s!"{count} tensors use unsupported GGML types {types}"] else []
  return {
    architecture
    modelName := model.modelName
    tokenizerModel := tokenizer.model
    vocabularySize := tokenizer.tokens.length
    tensorCount := model.tensors.length
    directTensorCount := dispositions.countP GgufTensorDisposition.isDirect
    transcodeTensorCount := dispositions.countP GgufTensorDisposition.isTranscoded
    unsupportedTensorCount := count
    alignment := model.alignment
    blockers := architectureBlocker ++ (tokenizerBlocker tokenizer).toList ++ typeBlocker ++
      [semanticEquivalenceBlocker] }

def activationReady (self : GgufConversionPlan) : Bool := self.blockers.isEmpty

end GgufConversionPlan

end NTD97
