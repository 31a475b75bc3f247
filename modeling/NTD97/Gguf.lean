import Mathlib
import NTD97.Capsule
import NTD97.Floats
import NTD97.Generative
import NTD97.TextTokenizer

/-!
# Gguf — what a GGUF file says

    metadata ▪ tensor infos ▪ data        metadata ──tokenizer──▸ vocabulary ▪ policy

A model is the parsed head of a file: its metadata by key, and where each tensor's data lies.  The
blockers name what a tokenizer asks for that the native ones cannot do.
-/

namespace NTD97

open Guard

/-- The types of metadata, by which an array names that of its elements. -/
inductive GgufValueType where
  | uint8
  | int8
  | uint16
  | int16
  | uint32
  | int32
  | float32
  | bool
  | string
  | array
  | uint64
  | int64
  | float64
  deriving DecidableEq

/-- A value of the metadata. -/
inductive GgufValue where
  | uint8 (value : UInt8)
  | int8 (value : Int8)
  | uint16 (value : UInt16)
  | int16 (value : Int16)
  | uint32 (value : UInt32)
  | int32 (value : Int32)
  | float32 (value : F32)
  | bool (value : Bool)
  | string (value : String)
  | array (elementType : GgufValueType) (values : List GgufValue)
  | uint64 (value : UInt64)
  | int64 (value : Int64)
  | float64 (value : UInt64)

/-- What an unsupported model asks for; a number stands for its decimal form in the text. -/
inductive ModelFeature where
  | text (text : String)
  | frequencyBase (base : F32)
  deriving DecidableEq

/-- What a lowering stopped at; an error stands for its debug text. -/
inductive LoweringFault where
  | text (text : String)
  | gpt2Tokenizer (e : TokenizerError)
  | tokenizer (e : NativeTokenizerError)
  | invalidGraph (e : ValidationError)
  | graph (e : IrCodecError)
  | descriptors (e : DescriptorError)
  | shard (e : NativeTensorError)
  | generativeManifest (e : NativeGenerativeManifestError)
  | thinCapsule (e : CapsuleError)
  deriving DecidableEq

/-- Why a file is not parsed, or a model not lowered. -/
inductive GgufError where
  | truncated
  | invalidMagic
  | unsupportedVersion (version : UInt32)
  | unsupportedValueType (raw : UInt32)
  | unsupportedTensorType (raw : UInt32)
  | unsupportedArchitecture (name : String)
  | unsupportedModelFeature (feature : ModelFeature)
  | missingTensor (name : String)
  | invalidModelConfig (part : String)
  | nativeLowering (fault : LoweringFault)
  | invalidBool (raw : UInt8)
  | invalidUtf8
  | io (message : String)
  | invalidArrayType
  | invalidAlignment
  | invalidTensorAlignment
  | invalidTensor
  | invalidTokenizer
  | duplicateMetadata (key : String)
  | duplicateTensor (name : String)
  | missingMetadata (key : String)
  | invalidMetadataType (key : String)
  | limitExceeded
  | overflow
  deriving DecidableEq

/-- A length that a machine word cannot hold is above the limit. -/
instance : Wire.WireError GgufError where
  truncated := .truncated
  overflow := .limitExceeded
  invalidUtf8 := .invalidUtf8

namespace GgufValue

/-- `u32::try_from` of a machine integer. -/
def u32Of (value : ℤ) : Option UInt32 :=
  if 0 ≤ value ∧ value < 2 ^ 32 then some (UInt32.ofNat value.toNat) else none

/-- A text. -/
def asString : GgufValue → Option String
  | .string value => some value
  | _ => none

/-- An integer of any width that fits in 32 bits. -/
def asU32 : GgufValue → Option UInt32
  | .uint8 value => u32Of value.toNat
  | .uint16 value => u32Of value.toNat
  | .uint32 value => some value
  | .uint64 value => u32Of value.toNat
  | .int8 value => u32Of value.toInt
  | .int16 value => u32Of value.toInt
  | .int32 value => u32Of value.toInt
  | .int64 value => u32Of value.toInt
  | _ => none

/-- A list of texts. -/
def asStringArray : GgufValue → Option (List String)
  | .array .string values => values.mapM asString
  | _ => none

/-- A list of single precision numbers. -/
def asF32Array : GgufValue → Option (List F32)
  | .array .float32 values => values.mapM fun
    | .float32 value => some value
    | _ => none
  | _ => none

/-- A list of signed numbers. -/
def asI32Array : GgufValue → Option (List Int32)
  | .array .int32 values => values.mapM fun
    | .int32 value => some value
    | _ => none
  | _ => none

/-- A truth value. -/
def asBool : GgufValue → Option Bool
  | .bool value => some value
  | _ => none

end GgufValue

/-- Where a tensor's data lies, and what they are. -/
structure GgufTensorInfo where
  name : String
  dimensions : List UInt64
  ggmlType : UInt32
  dataOffset : UInt64
  deriving DecidableEq

/-- What the metadata say of the tokenizer. -/
structure GgufTokenizer where
  model : String
  tokens : List Bytes
  scores : Option (List F32)
  tokenTypes : Option (List Int32)
  merges : List String
  preTokenizer : Option String
  addSpacePrefix : Option Bool
  removeExtraWhitespaces : Option Bool
  normalizerLowercase : Option Bool
  normalizerStripAccents : Option Bool
  hasPrecompiledCharsmap : Bool
  addBosToken : Option Bool
  addEosToken : Option Bool
  bosToken : Option UInt32
  eosToken : Option UInt32
  unknownToken : Option UInt32
  deriving DecidableEq

/-- What a sentence piece tokenizer adds to a text. -/
structure LlamaSpmPolicy where
  addSpacePrefix : Bool
  addBosToken : Bool
  addEosToken : Bool
  inheritedDefaults : Bool
  deriving DecidableEq

namespace GgufTokenizer

/-- The policy, with the defaults of the metadata. -/
def resolvedLlamaSpmPolicy (self : GgufTokenizer) : Option LlamaSpmPolicy :=
  if self.model ≠ "llama" then none
  else some {
    addSpacePrefix := self.addSpacePrefix.getD true
    addBosToken := self.addBosToken.getD true
    addEosToken := self.addEosToken.getD false
    inheritedDefaults :=
      self.addSpacePrefix.isNone || self.addBosToken.isNone || self.addEosToken.isNone }

/-- Some normalization is asked for. -/
def Normalizes (self : GgufTokenizer) : Prop :=
  self.removeExtraWhitespaces = some true ∨ self.normalizerLowercase = some true ∨
    self.normalizerStripAccents = some true ∨ self.hasPrecompiledCharsmap = true

instance (self : GgufTokenizer) : Decidable self.Normalizes := inferInstanceAs (Decidable (_ ∨ _))

end GgufTokenizer

/-- The head of a file. -/
structure GgufModel where
  version : UInt32
  alignment : UInt32
  metadata : BTreeMap String GgufValue
  tensors : List GgufTensorInfo
  dataOffset : UInt64
  fileLen : UInt64

namespace GgufModel

/-- The text under a key, unless it is blank. -/
def nonblankText (model : GgufModel) (key : String) : Option String :=
  ((model.metadata[key]?).bind GgufValue.asString).filter fun value => !Text.isBlank value

/-- The name of the architecture. -/
def architecture (model : GgufModel) : Except GgufError String :=
  okOr (model.nonblankText "general.architecture") (.missingMetadata "general.architecture")

/-- The value under a key, if there is one, which must then be of the right type. -/
def optional {α : Type} (model : GgufModel) (get : GgufValue → Option α) (key : String) :
    Except GgufError (Option α) :=
  match model.metadata[key]? with
  | some value => return some (← okOr (get value) (.invalidMetadataType key))
  | none => return none

/-- The scores or the types go with the tokens, one for each. -/
def Scored (tokens : List Bytes) (scores : Option (List F32)) : Prop :=
  ∀ l ∈ scores, l.length = tokens.length ∧ ∀ score ∈ l, f32IsFinite score

instance (tokens : List Bytes) (scores : Option (List F32)) : Decidable (Scored tokens scores) :=
  letI (l : List F32) : Decidable (∀ score ∈ l, f32IsFinite score) := List.decidableBAll _ l
  inferInstanceAs (Decidable (∀ _ ∈ _, _ ∧ _))

/-- `tokenizer`: the tokenizer's metadata, taken together. -/
def tokenizer (model : GgufModel) : Except GgufError GgufTokenizer := do
  let name ← okOr (model.nonblankText "tokenizer.ggml.model")
    (.missingMetadata "tokenizer.ggml.model")
  let texts ← okOr ((model.metadata["tokenizer.ggml.tokens"]?).bind GgufValue.asStringArray)
    (.missingMetadata "tokenizer.ggml.tokens")
  let tokens := texts.map Wire.utf8
  refuse (tokens = []) .invalidTokenizer
  let scores ← model.optional GgufValue.asF32Array "tokenizer.ggml.scores"
  refuse (¬ Scored tokens scores) .invalidTokenizer
  let tokenTypes ← model.optional GgufValue.asI32Array "tokenizer.ggml.token_type"
  refuse (∃ types ∈ tokenTypes, types.length ≠ tokens.length) .invalidTokenizer
  let merges ← model.optional GgufValue.asStringArray "tokenizer.ggml.merges"
  let preTokenizer ← model.optional GgufValue.asString "tokenizer.ggml.pre"
  let addSpacePrefix ← model.optional GgufValue.asBool "tokenizer.ggml.add_space_prefix"
  let removeExtraWhitespaces ←
    model.optional GgufValue.asBool "tokenizer.ggml.remove_extra_whitespaces"
  let normalizerLowercase ←
    model.optional GgufValue.asBool "tokenizer.ggml.normalizer.lowercase"
  let normalizerStripAccents ←
    model.optional GgufValue.asBool "tokenizer.ggml.normalizer.strip_accents"
  let addBosToken ← model.optional GgufValue.asBool "tokenizer.ggml.add_bos_token"
  let addEosToken ← model.optional GgufValue.asBool "tokenizer.ggml.add_eos_token"
  let bosToken ← model.optional GgufValue.asU32 "tokenizer.ggml.bos_token_id"
  let eosToken ← model.optional GgufValue.asU32 "tokenizer.ggml.eos_token_id"
  let unknownToken ← model.optional GgufValue.asU32 "tokenizer.ggml.unknown_token_id"
  let vocab : UInt32 ← Wire.lenU32 tokens.length
  refuse (∃ token ∈ [bosToken, eosToken, unknownToken].reduceOption, vocab ≤ token)
    .invalidTokenizer
  return {
    model := name
    tokens, scores, tokenTypes
    merges := merges.getD []
    preTokenizer, addSpacePrefix, removeExtraWhitespaces, normalizerLowercase
    normalizerStripAccents
    hasPrecompiledCharsmap := model.metadata.contains "tokenizer.ggml.precompiled_charsmap"
    addBosToken, addEosToken, bosToken, eosToken, unknownToken }

end GgufModel

/-! ## What blocks a tokenizer

A blocker is a text for the user; without one the tokenizer can be lowered. -/

/-- What a sentence piece tokenizer asks for in vain. -/
def llamaSpmBlocker (tokenizer : GgufTokenizer) : Option String :=
  if tokenizer.scores.isNone ∨ tokenizer.tokenTypes.isNone then
    some ("llama tokenizer metadata is missing scores/token types required for native " ++
      "SentencePiece BPE semantics")
  else if ∃ pre ∈ tokenizer.preTokenizer, pre ≠ "default" then
    let pre := tokenizer.preTokenizer.getD ""
    some s!"llama tokenizer pre-tokenizer '{pre}' is not supported by native SPM execution"
  else if tokenizer.Normalizes then
    some ("llama tokenizer requires normalization semantics not yet represented by the native " ++
      "SPM contract")
  else none

/-- What a byte pair tokenizer asks for in vain. -/
def gpt2BpeBlocker (tokenizer : GgufTokenizer) : Option String :=
  if tokenizer.merges = [] then
    some "gpt2 tokenizer metadata is missing merge ranks required for native BPE semantics"
  else match tokenizer.preTokenizer with
  | none =>
    some ("gpt2 tokenizer is missing tokenizer.ggml.pre required to select native pre-tokenizer " ++
      "semantics")
  | some pre =>
    if pre ≠ "gpt-2" then
      some s!"gpt2 pre-tokenizer '{pre}' is not the canonical GPT-2 regex supported by NTD97"
    else if tokenizer.addBosToken.isNone ∨ tokenizer.addEosToken.isNone then
      some "gpt2 tokenizer is missing explicit add-BOS/add-EOS policy metadata"
    else if tokenizer.addSpacePrefix = some true ∨ tokenizer.Normalizes then
      some "gpt2 tokenizer requires normalization semantics outside canonical native GPT-2 BPE"
    else none

end NTD97
