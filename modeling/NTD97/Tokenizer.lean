import Mathlib
import NTD97.Descriptors
import NTD97.Lib.Flags
import NTD97.Lib.Text

/-!
# Tokenizer — the NTK97 payload of a tokenizer frame

    frame ▸ magic ▪ 32 ▪ version ▪ count ▪ three special tokens ▪ model ▪ tokens ▪ its tables

The model decides which tables follow the tokens, and which minor versions know it.  A special token
that is absent is written as the largest number, which no valid vocabulary reaches.
-/

namespace NTD97

open Guard Wire

/-- The format that is written; frames of the older one are read, too. -/
def nativeTokenizerFormat : String := "ntd97.tokenizer.v2"
def legacyNativeTokenizerFormat : String := "ntd97.tokenizer.vocab.v1"
/-- The letters `NTK97` and a zero byte. -/
def nativeTokenizerMagic : Bytes := [78, 84, 75, 57, 55, 0]
/-- What stands in the file for a special token that is absent. -/
def noSpecialToken : UInt32 := 0xFFFFFFFF

/-- How a text is cut into tokens, with the tables for it. -/
inductive NativeTokenizerModel where
  | vocabulary
  | llamaSpm (scoreBits : List UInt32) (tokenTypes : List Int32)
      (addSpacePrefix addBosToken addEosToken : Bool)
  | gpt2Bpe (merges : List String) (addBosToken addEosToken : Bool)
  deriving DecidableEq

/-- A tokenizer, valid or not. -/
structure NativeTokenizerDescriptor where
  tokens : List Bytes
  bosToken : Option UInt32
  eosToken : Option UInt32
  unknownToken : Option UInt32
  model : NativeTokenizerModel
  deriving DecidableEq

/-- Why a tokenizer is not written or not read. -/
inductive NativeTokenizerError where
  | descriptor (e : DescriptorError)
  | wrongDescriptorKind (kind : DescriptorFrameKind)
  | wrongFormat (format : String)
  | truncated
  | invalidUtf8
  | invalidMagic
  | invalidHeader
  | unsupportedVersion (major minor : UInt16)
  | emptyVocabulary
  | emptyToken (id : UInt32)
  | duplicateToken (first second : UInt32)
  | invalidSpecialToken (id : UInt32)
  | invalidTokenizerModel (raw : UInt32)
  | invalidScoreCount (expected actual : ℕ)
  | invalidTokenTypeCount (expected actual : ℕ)
  | invalidTokenType (token : UInt32) (tokenType : Int32)
  | nonFiniteScore (id : UInt32)
  | invalidBpeMerge (merge : String)
  | duplicateBpeMerge (merge : String)
  | nonCanonicalEncoding
  | overflow
  deriving DecidableEq

instance : WireError NativeTokenizerError where
  truncated := .truncated
  overflow := .overflow
  invalidUtf8 := .invalidUtf8

namespace Tokenizer

/-- The version `0.3`. -/
def nativeTokenizerMajor : UInt16 := 0
def nativeTokenizerMinor : UInt16 := 3

/-- The tags of the three models. -/
def modelVocabulary : UInt32 := 0
def modelLlamaSpm : UInt32 := 1
def modelGpt2Bpe : UInt32 := 2

/-- The flags of a model; the last line is the set of all. -/
def flagAddSpacePrefix : UInt32 := 1
def flagAddBos : UInt32 := 2
def flagAddEos : UInt32 := 4
def knownFlags : UInt32 := flagAddSpacePrefix ||| flagAddBos ||| flagAddEos

/-- Writing a part of the payload. -/
abbrev Encoder := Put NativeTokenizerError Unit

/-- Reading a part of the payload. -/
abbrev Decoder := Get NativeTokenizerError

/-! ## What a tokenizer must satisfy

The same validator stands in front of the encoder and behind the decoder. -/

/-- The tokens from `index` on, after those of `seen`. -/
def validateTokens : ℕ → List (Bytes × UInt32) → List Bytes → Except NativeTokenizerError Unit
  | _, _, [] => return ()
  | index, seen, token :: tokens => do
    let id ← lenU32 index
    refuse (token = []) (.emptyToken id)
    match seen.lookup token with
    | some first => throw (.duplicateToken first id)
    | none => validateTokens (index + 1) ((token, id) :: seen) tokens

/-- A special token is one of the tokens. -/
def validateSpecial (tokenCount : UInt32) : Option UInt32 → Except NativeTokenizerError Unit
  | none => return ()
  | some special => refuse (tokenCount ≤ special) (.invalidSpecialToken special)

/-- The scores and types of the tokens from `index` on. -/
def validateScores : ℕ → List (UInt32 × Int32) → Except NativeTokenizerError Unit
  | _, [] => return ()
  | index, (score, tokenType) :: rest => do
    let id ← lenU32 index
    refuse (¬ f32IsFinite score) (.nonFiniteScore id)
    refuse (¬ (1 ≤ tokenType ∧ tokenType ≤ 6)) (.invalidTokenType id tokenType)
    validateScores (index + 1) rest

/-- The merges after those of `seen`. -/
def validateMerges : List String → List String → Except NativeTokenizerError Unit
  | _, [] => return ()
  | seen, merge :: merges => do
    let (left, right) ← okOr (Text.splitOnce ' ' merge) (.invalidBpeMerge merge)
    refuse (left = "" ∨ right = "" ∨ ' ' ∈ right.toList) (.invalidBpeMerge merge)
    refuse (merge ∈ seen) (.duplicateBpeMerge merge)
    validateMerges (merge :: seen) merges

/-- The tables of a model fit the tokens. -/
def validateModel (tokens : List Bytes) : NativeTokenizerModel → Except NativeTokenizerError Unit
  | .vocabulary => return ()
  | .llamaSpm scoreBits tokenTypes _ _ _ => do
    refuse (scoreBits.length ≠ tokens.length) (.invalidScoreCount tokens.length scoreBits.length)
    refuse (tokenTypes.length ≠ tokens.length)
      (.invalidTokenTypeCount tokens.length tokenTypes.length)
    validateScores 0 (scoreBits.zip tokenTypes)
  | .gpt2Bpe merges _ _ => validateMerges [] merges

/-- `validate_tokenizer`: the tokens, then the special ones, then the tables. -/
def validateTokenizer (tokenizer : NativeTokenizerDescriptor) :
    Except NativeTokenizerError Unit := do
  refuse (tokenizer.tokens = []) .emptyVocabulary
  validateTokens 0 [] tokenizer.tokens
  let tokenCount ← lenU32 tokenizer.tokens.length
  validateSpecial tokenCount tokenizer.bosToken
  validateSpecial tokenCount tokenizer.eosToken
  validateSpecial tokenCount tokenizer.unknownToken
  validateModel tokenizer.tokens tokenizer.model

/-! ## The models

A model's tables end in a word of flags, where it has flags. -/

/-- The tag of a model. -/
def modelTag : NativeTokenizerModel → UInt32
  | .vocabulary => modelVocabulary
  | .llamaSpm .. => modelLlamaSpm
  | .gpt2Bpe .. => modelGpt2Bpe

/-- The three flags of a sentence piece model in one word. -/
def spmFlags (f : Bool × Bool × Bool) : UInt32 :=
  (if f.1 then flagAddSpacePrefix else 0) ||| (if f.2.1 then flagAddBos else 0) |||
    (if f.2.2 then flagAddEos else 0)

/-- The two flags of a byte pair model in one word. -/
def bpeFlags (f : Bool × Bool) : UInt32 :=
  (if f.1 then flagAddBos else 0) ||| (if f.2 then flagAddEos else 0)

/-- The tables of a model; the vocabulary has none. -/
def encodeModel : NativeTokenizerModel → Encoder
  | .vocabulary => pure ()
  | .llamaSpm scoreBits tokenTypes addSpacePrefix addBosToken addEosToken => do
    pushList pushU32 scoreBits
    pushList pushI32 tokenTypes
    pushU32 (spmFlags (addSpacePrefix, addBosToken, addEosToken))
  | .gpt2Bpe merges addBosToken addEosToken => do
    pushList pushString merges
    pushU32 (bpeFlags (addBosToken, addEosToken))

/-- A word with no other flag set. -/
def spmFlagsOf (flags : UInt32) : Except NativeTokenizerError (Bool × Bool × Bool) := do
  refuse (flags &&& ~~~ knownFlags ≠ 0) .nonCanonicalEncoding
  return (flags &&& flagAddSpacePrefix ≠ 0, flags &&& flagAddBos ≠ 0, flags &&& flagAddEos ≠ 0)

/-- A word with no other flag set; the space prefix is unknown here. -/
def bpeFlagsOf (flags : UInt32) : Except NativeTokenizerError (Bool × Bool) := do
  refuse (flags &&& ~~~ (flagAddBos ||| flagAddEos) ≠ 0) .nonCanonicalEncoding
  return (flags &&& flagAddBos ≠ 0, flags &&& flagAddEos ≠ 0)

/-- The flags of a sentence piece model. -/
def spmFlagWord : Decoder (Bool × Bool × Bool) := do
  let flags ← u32
  spmFlagsOf flags

/-- The flags of a byte pair model. -/
def bpeFlagWord : Decoder (Bool × Bool) := do
  let flags ← u32
  bpeFlagsOf flags

/-- The tables of a sentence piece model. -/
def llamaSpm : Decoder NativeTokenizerModel := do
  let scoreBits ← getList u32
  let tokenTypes ← getList i32
  let flags ← spmFlagWord
  return .llamaSpm scoreBits tokenTypes flags.1 flags.2.1 flags.2.2

/-- The tables of a byte pair model. -/
def gpt2Bpe : Decoder NativeTokenizerModel := do
  let merges ← getList string
  let flags ← bpeFlagWord
  return .gpt2Bpe merges flags.1 flags.2

/-- The tables of the model `tag`, as the minor version knows them. -/
def model (minor : UInt16) (tag : UInt32) : Decoder NativeTokenizerModel :=
  if minor ≤ 1 then return .vocabulary
  else if tag = modelVocabulary then return .vocabulary
  else if tag = modelLlamaSpm then llamaSpm
  else if tag = modelGpt2Bpe then do
    refuse (minor < 3) .nonCanonicalEncoding
    gpt2Bpe
  else throw (.invalidTokenizerModel tag)

/-! ## The payload

The counts and the special tokens are fixed in length; the tokens and the tables are not. -/

/-- A tokenizer and the minor version it is written under. -/
def encodePayload (t : UInt16 × NativeTokenizerDescriptor) : Encoder := do
  tell nativeTokenizerMagic
  pushU16 32
  pushU16 nativeTokenizerMajor
  pushU16 t.1
  pushCount t.2.tokens.length
  pushU32 (t.2.bosToken.getD noSpecialToken)
  pushU32 (t.2.eosToken.getD noSpecialToken)
  pushU32 (t.2.unknownToken.getD noSpecialToken)
  pushU32 (modelTag t.2.model)
  t.2.tokens.forM pushBytes
  encodeModel t.2.model

/-- The largest number stands for no token. -/
def decodeSpecial (value : UInt32) : Option UInt32 :=
  if value = noSpecialToken then none else some value

/-- A special token that may be absent. -/
def special : Decoder (Option UInt32) := do return decodeSpecial (← u32)

/-- A tokenizer with the minor version it states. -/
def payload : Decoder (UInt16 × NativeTokenizerDescriptor) := do
  let magic ← take 6
  refuse (magic ≠ nativeTokenizerMagic) .invalidMagic
  let len ← u16
  refuse (len ≠ 32) .invalidHeader
  let major ← u16
  let minor ← u16
  refuse (major ≠ nativeTokenizerMajor ∨ nativeTokenizerMinor < minor)
    (.unsupportedVersion major minor)
  let tokenCount ← count
  let bosToken ← special
  let eosToken ← special
  let unknownToken ← special
  let tag ← u32
  refuse (minor ≤ 1 ∧ tag ≠ modelVocabulary) .nonCanonicalEncoding
  let tokens ← getN bytes tokenCount
  let model ← model minor tag
  return (minor, { tokens, bosToken, eosToken, unknownToken, model })

/-! ## The laws of the models

Each model is read back under the minor versions that know it. -/

/-- The flags of a sentence piece model are read back. -/
theorem codec_spmFlagWord : Codec (fun f => pushU32 (spmFlags f)) spmFlagWord := by
  refine inverse_u32.resolve spmFlags (fun f _ => ⟨trivial, ?_⟩) fun flags f _ h => ⟨trivial, ?_⟩
  · rcases f with ⟨_ | _, _ | _, _ | _⟩ <;> rfl
  · simp only [spmFlagsOf, bind_eq_ok, exists_unit, refuse_eq_ok, pure_eq_ok, not_not] at h
    obtain ⟨hknown, rfl⟩ := h
    have hflags := Flags.uint32_and_eq_self hknown
    rw [knownFlags, Flags.uint32_and_or, Flags.uint32_and_or,
      Flags.uint32_and_bit 0 (show flagAddSpacePrefix.toBitVec = _ from rfl),
      Flags.uint32_and_bit 1 (show flagAddBos.toBitVec = _ from rfl),
      Flags.uint32_and_bit 2 (show flagAddEos.toBitVec = _ from rfl)] at hflags
    simp only [spmFlags, decide_eq_true_eq]
    exact hflags

/-- The flags of a byte pair model are read back. -/
theorem codec_bpeFlagWord : Codec (fun f => pushU32 (bpeFlags f)) bpeFlagWord := by
  refine inverse_u32.resolve bpeFlags (fun f _ => ⟨trivial, ?_⟩) fun flags f _ h => ⟨trivial, ?_⟩
  · rcases f with ⟨_ | _, _ | _⟩ <;> rfl
  · simp only [bpeFlagsOf, bind_eq_ok, exists_unit, refuse_eq_ok, pure_eq_ok, not_not] at h
    obtain ⟨hknown, rfl⟩ := h
    have hflags := Flags.uint32_and_eq_self hknown
    rw [Flags.uint32_and_or, Flags.uint32_and_bit 1 (show flagAddBos.toBitVec = _ from rfl),
      Flags.uint32_and_bit 2 (show flagAddEos.toBitVec = _ from rfl)] at hflags
    simp only [bpeFlags, decide_eq_true_eq]
    exact hflags

/-- The first minor version that knows the model. -/
def firstMinor : NativeTokenizerModel → UInt16
  | .vocabulary => 0
  | .llamaSpm .. => 2
  | .gpt2Bpe .. => 3

/-- The vocabulary is all there is of its tables. -/
theorem inverse_vocabulary {tag : UInt32} {minor : UInt16} (htag : tag = modelVocabulary) :
    Inverse (fun m => modelTag m = tag ∧ firstMinor m ≤ minor) encodeModel
      (pure .vocabulary : Decoder NativeTokenizerModel) := by
  have hvocabulary : ∀ m, (modelTag m = tag ∧ firstMinor m ≤ minor) ↔ m = .vocabulary := by
    intro m
    subst htag
    constructor
    · rintro ⟨htag, -⟩
      cases m with
      | vocabulary => rfl
      | llamaSpm => exact absurd htag (show modelLlamaSpm ≠ modelVocabulary by decide)
      | gpt2Bpe => exact absurd htag (show modelGpt2Bpe ≠ modelVocabulary by decide)
    · rintro rfl
      exact ⟨rfl, UInt16.zero_le⟩
  refine (Inverse.done hvocabulary).congr (fun m hm => ?_) rfl
  rw [(hvocabulary m).1 hm]
  rfl

/-- The tables of a sentence piece model are read back. -/
theorem inverse_llamaSpm : Inverse (fun m => True ∧ modelTag m = modelLlamaSpm) encodeModel
    llamaSpm := by
  refine kind₃ (codec_list inverse_u32) (codec_list inverse_i32) codec_spmFlagWord
    (fun scoreBits tokenTypes flags => NativeTokenizerModel.llamaSpm scoreBits tokenTypes flags.1
      flags.2.1 flags.2.2) (fun _ _ _ => rfl) fun m => ?_
  cases m with
  | vocabulary => simp [modelTag, modelVocabulary, modelLlamaSpm]
  | llamaSpm => simp [modelTag]
  | gpt2Bpe => simp [modelTag, modelGpt2Bpe, modelLlamaSpm]

/-- The tables of a byte pair model are read back. -/
theorem inverse_gpt2Bpe : Inverse (fun m => True ∧ modelTag m = modelGpt2Bpe) encodeModel
    gpt2Bpe := by
  refine kind₂ (codec_list inverse_string) codec_bpeFlagWord
    (fun merges flags => NativeTokenizerModel.gpt2Bpe merges flags.1 flags.2) (fun _ _ => rfl)
    fun m => ?_
  cases m with
  | vocabulary => simp [modelTag, modelVocabulary, modelGpt2Bpe]
  | llamaSpm => simp [modelTag, modelLlamaSpm, modelGpt2Bpe]
  | gpt2Bpe => simp [modelTag]

/-- Sentence piece models came with version `0.2`. -/
theorem firstMinor_llamaSpm {m : NativeTokenizerModel} (h : modelTag m = modelLlamaSpm) :
    firstMinor m = 2 := by
  cases m with
  | vocabulary => exact absurd h (show modelVocabulary ≠ modelLlamaSpm by decide)
  | llamaSpm => rfl
  | gpt2Bpe => exact absurd h (show modelGpt2Bpe ≠ modelLlamaSpm by decide)

/-- Byte pair models came with version `0.3`. -/
theorem firstMinor_gpt2Bpe {m : NativeTokenizerModel} (h : modelTag m = modelGpt2Bpe) :
    firstMinor m = 3 := by
  cases m with
  | vocabulary => exact absurd h (show modelVocabulary ≠ modelGpt2Bpe by decide)
  | llamaSpm => exact absurd h (show modelLlamaSpm ≠ modelGpt2Bpe by decide)
  | gpt2Bpe => rfl

/-- The versions before 2 know only the vocabulary. -/
theorem modelTag_of_firstMinor {m : NativeTokenizerModel} (h : firstMinor m ≤ 1) :
    modelTag m = modelVocabulary := by
  cases m with
  | vocabulary => rfl
  | llamaSpm => exact absurd h (show ¬ (2 : UInt16) ≤ 1 by decide)
  | gpt2Bpe => exact absurd h (show ¬ (3 : UInt16) ≤ 1 by decide)

/-- **The tables of a model**, under every version that knows it. -/
theorem inverse_model {minor : UInt16} {tag : UInt32}
    (h : ¬ (minor ≤ 1 ∧ tag ≠ modelVocabulary)) :
    Inverse (fun m => modelTag m = tag ∧ firstMinor m ≤ minor) encodeModel (model minor tag) := by
  by_cases hold : minor ≤ 1
  · have htag : tag = modelVocabulary := not_not.1 fun hne => h ⟨hold, hne⟩
    rw [model, if_pos hold]
    exact inverse_vocabulary htag
  rw [model, if_neg hold]
  have hnew : 2 ≤ minor := by
    rw [UInt16.not_le, UInt16.lt_iff_toNat_lt] at hold
    rwa [UInt16.le_iff_toNat_le]
  by_cases hvocabulary : tag = modelVocabulary
  · rw [if_pos hvocabulary]
    exact inverse_vocabulary hvocabulary
  rw [if_neg hvocabulary]
  by_cases hspm : tag = modelLlamaSpm
  · subst hspm
    rw [if_pos rfl]
    refine inverse_llamaSpm.domain fun m => ⟨fun hm => ⟨trivial, hm.1⟩, fun hm => ⟨hm.2, ?_⟩⟩
    rw [firstMinor_llamaSpm hm.2]
    exact hnew
  rw [if_neg hspm]
  by_cases hbpe : tag = modelGpt2Bpe
  · subst hbpe
    rw [if_pos rfl]
    by_cases hminor : minor < 3
    · rw [refuse, if_pos hminor]
      refine inverse_throw fun m hm => ?_
      rw [firstMinor_gpt2Bpe hm.1] at hm
      exact UInt16.not_lt.2 hm.2 hminor
    · rw [refuse, if_neg hminor, pure_bind]
      refine inverse_gpt2Bpe.domain fun m => ⟨fun hm => ⟨trivial, hm.1⟩, fun hm => ⟨hm.2, ?_⟩⟩
      rw [firstMinor_gpt2Bpe hm.2]
      exact UInt16.not_lt.1 hminor
  rw [if_neg hbpe]
  refine inverse_throw fun m hm => ?_
  cases m with
  | vocabulary => exact hvocabulary hm.1.symm
  | llamaSpm => exact hspm hm.1.symm
  | gpt2Bpe => exact hbpe hm.1.symm

/-! ## The law of the payload

It holds of the tokenizers whose special tokens can be written and whose model the version knows. -/

/-- A token is read back if it is not the one that stands for none. -/
theorem inverse_special : Inverse (fun o : Option UInt32 => o ≠ some noSpecialToken)
    (fun o => (pushU32 (o.getD noSpecialToken) : Encoder)) special :=
  inverse_sentinel inverse_u32 noSpecialToken

/-- No special token is the number that stands for none. -/
structure Absentable (t : NativeTokenizerDescriptor) : Prop where
  bos : t.bosToken ≠ some noSpecialToken
  eos : t.eosToken ≠ some noSpecialToken
  unknown : t.unknownToken ≠ some noSpecialToken

/-- **The payload is read back.** -/
theorem inverse_payload :
    Inverse (fun t : UInt16 × NativeTokenizerDescriptor => t.1 ≤ nativeTokenizerMinor ∧
      firstMinor t.2.model ≤ t.1 ∧ Absentable t.2) encodePayload payload := by
  refine (inverse_take 6).checked (fun _ => nativeTokenizerMagic) (fun _ _ => ⟨rfl, not_not.2 rfl⟩)
    fun _ _ hmagic => ?_
  refine inverse_u16.checked (fun _ => 32) (fun _ _ => ⟨trivial, not_not.2 rfl⟩)
    fun _ _ hlen => ?_
  refine inverse_u16.field (fun _ => nativeTokenizerMajor) (fun _ _ => trivial) fun _ _ => ?_
  refine inverse_u16.checked Prod.fst ?_ fun minor _ hversion => ?_
  · rintro t ⟨⟨⟨⟨hminor, -⟩, -⟩, -⟩, rfl⟩
    exact ⟨trivial, not_or.2 ⟨not_not.2 rfl, UInt16.not_lt.2 hminor⟩⟩
  refine inverse_count.field (fun t : UInt16 × NativeTokenizerDescriptor => t.2.tokens.length)
    (fun _ _ => trivial) fun _ _ => ?_
  refine inverse_special.field (fun t : UInt16 × NativeTokenizerDescriptor => t.2.bosToken) ?_
    fun _ hbos => ?_
  · rintro t ⟨⟨⟨⟨⟨⟨-, -, hspecial⟩, -⟩, -⟩, -⟩, -⟩, -⟩
    exact hspecial.bos
  refine inverse_special.field (fun t : UInt16 × NativeTokenizerDescriptor => t.2.eosToken) ?_
    fun _ heos => ?_
  · rintro t ⟨⟨⟨⟨⟨⟨⟨-, -, hspecial⟩, -⟩, -⟩, -⟩, -⟩, -⟩, -⟩
    exact hspecial.eos
  refine inverse_special.field (fun t : UInt16 × NativeTokenizerDescriptor => t.2.unknownToken) ?_
    fun _ hunknown => ?_
  · rintro t ⟨⟨⟨⟨⟨⟨⟨⟨-, -, hspecial⟩, -⟩, -⟩, -⟩, -⟩, -⟩, -⟩, -⟩
    exact hspecial.unknown
  refine inverse_u32.checked (fun t : UInt16 × NativeTokenizerDescriptor => modelTag t.2.model) ?_
    fun tag _ hmodel => ?_
  · rintro t ⟨⟨⟨⟨⟨⟨⟨⟨⟨-, hfirst, -⟩, -⟩, -⟩, -⟩, rfl⟩, -⟩, -⟩, -⟩, -⟩
    refine ⟨trivial, ?_⟩
    rintro ⟨hold, htag⟩
    exact htag (modelTag_of_firstMinor (UInt16.le_trans hfirst hold))
  refine (inverse_getN inverse_bytes _).field
    (fun t : UInt16 × NativeTokenizerDescriptor => t.2.tokens) ?_ fun _ htokens => ?_
  · rintro t ⟨⟨⟨⟨⟨⟨⟨⟨⟨-, -⟩, -⟩, -⟩, -⟩, hcount⟩, -⟩, -⟩, -⟩, -⟩
    exact ⟨fun _ _ => trivial, hcount⟩
  refine (inverse_model hmodel).last (fun t : UInt16 × NativeTokenizerDescriptor => t.2.model) ?_ ?_
  · rintro ⟨_, ⟨⟩⟩ ⟨⟨⟨⟨⟨⟨⟨⟨⟨⟨⟨-, hfirst, -⟩, -⟩, -⟩, -⟩, rfl⟩, -⟩, rfl⟩, rfl⟩, rfl⟩, htag⟩, rfl⟩
    exact ⟨⟨htag, hfirst⟩, rfl⟩
  · intro m hm
    obtain ⟨hmajor, hminor⟩ := not_or.1 hversion
    exact ⟨⟨⟨⟨⟨⟨⟨⟨⟨⟨⟨⟨UInt16.not_lt.1 hminor, hm.2, hbos, heos, hunknown⟩, (not_not.1 hmagic).symm⟩,
      (not_not.1 hlen).symm⟩, (not_not.1 hmajor).symm⟩, rfl⟩, htokens.2⟩, rfl⟩, rfl⟩, rfl⟩, hm.1⟩,
      rfl⟩, rfl⟩

end Tokenizer

open Tokenizer

/-- `encode_native_tokenizer` writes a frame of the current version. -/
def encodeNativeTokenizer (tokenizer : NativeTokenizerDescriptor) :
    Except NativeTokenizerError Bytes := do
  validateTokenizer tokenizer
  let payload ← written (encodePayload (nativeTokenizerMinor, tokenizer))
  (encodeDescriptorFrame { kind := .tokenizer, format := nativeTokenizerFormat, payload }).mapError
    .descriptor

/-- `decode_native_tokenizer`: the frame, the format, the payload, the validator. -/
def decodeNativeTokenizer (bytes : Bytes) :
    Except NativeTokenizerError NativeTokenizerDescriptor := do
  let frame ← (decodeDescriptorFrame bytes).mapError .descriptor
  refuse (frame.kind ≠ .tokenizer) (.wrongDescriptorKind frame.kind)
  refuse (frame.format ≠ nativeTokenizerFormat ∧ frame.format ≠ legacyNativeTokenizerFormat)
    (.wrongFormat frame.format)
  let (_, tokenizer) ← readAll payload .nonCanonicalEncoding frame.payload
  validateTokenizer tokenizer
  return tokenizer

namespace Tokenizer

open Descriptors (frameVersion descriptorMajor descriptorMinor)

/-! ## Files of the current versions

A file states two versions, the frame's and the payload's; where both are current it is what would
be written. -/

/-- The version a payload states. -/
def tokenizerVersion (payload : Bytes) : UInt16 × UInt16 := versionAt payload 8

/-- The format and both versions of a file are those that are written today. -/
structure Current (b : Bytes) : Prop where
  frame : frameVersion b = (descriptorMajor, descriptorMinor)
  payload : ∀ f, decodeDescriptorFrame b = .ok f → f.format = nativeTokenizerFormat ∧
    tokenizerVersion f.payload = (nativeTokenizerMajor, nativeTokenizerMinor)

/-- The version of the payload stands behind its magic. -/
theorem tokenizerVersion_of_emits {t : UInt16 × NativeTokenizerDescriptor} {b : Bytes}
    (h : Emits (encodePayload t) b) : tokenizerVersion b = (nativeTokenizerMajor, t.1) := by
  simp only [encodePayload, pushU16, emits_bind, emits_tell, exists_eq_left'] at h
  obtain ⟨_, ⟨_, ⟨_, ⟨rest, -, rfl⟩, rfl⟩, rfl⟩, rfl⟩ := h
  have hlen : (nativeTokenizerMagic ++ leBytes 2 (32 : UInt16).toNat).length = 8 := by
    rw [List.length_append, length_leBytes]
    rfl
  have hversion := versionAt_append (b := rest) hlen nativeTokenizerMajor t.1
  rw [List.append_assoc] at hversion
  exact hversion

/-- A special token below the count of the tokens is not the number that stands for none. -/
theorem ne_noSpecialToken {count : UInt32} {o : Option UInt32}
    (h : validateSpecial count o = .ok ()) : o ≠ some noSpecialToken := by
  rintro rfl
  have hle : count ≤ noSpecialToken := by
    rw [UInt32.le_iff_toNat_le]
    exact Nat.le_of_lt_succ count.toNat_lt
  exact refuse_eq_ok.1 h hle

/-- No special token of a valid tokenizer is the number that stands for none. -/
theorem absentable_of_valid {t : NativeTokenizerDescriptor} (h : validateTokenizer t = .ok ()) :
    Absentable t := by
  simp only [validateTokenizer, bind_eq_ok, exists_unit] at h
  obtain ⟨-, -, count, -, hbos, heos, hunknown, -⟩ := h
  exact ⟨ne_noSpecialToken hbos, ne_noSpecialToken heos, ne_noSpecialToken hunknown⟩

/-- Today's version knows every model. -/
theorem firstMinor_le (m : NativeTokenizerModel) : firstMinor m ≤ nativeTokenizerMinor := by
  cases m with
  | vocabulary => exact UInt16.zero_le
  | llamaSpm => exact show (2 : UInt16) ≤ 3 by decide
  | gpt2Bpe => exact UInt16.le_refl _

end Tokenizer

/-- What is written is read back, and is of the current format and versions. -/
theorem decodeNativeTokenizer_of_encode {t : NativeTokenizerDescriptor} {b : Bytes}
    (h : encodeNativeTokenizer t = .ok b) : decodeNativeTokenizer b = .ok t ∧ Current b := by
  simp only [encodeNativeTokenizer, bind_eq_ok, exists_unit, mapError_eq_ok, written_eq_ok] at h
  obtain ⟨hvalid, payload, hpayload, hframe⟩ := h
  obtain ⟨hread, hversion⟩ := encodeDescriptorFrame_eq_ok.1 hframe
  simp only [decodeNativeTokenizer, bind_eq_ok, exists_unit, mapError_eq_ok, refuse_eq_ok,
    pure_eq_ok, not_not, inverse_payload.readAll_eq_ok, written_eq_ok, Prod.exists]
  refine ⟨⟨_, hread, rfl, fun h => h.1 rfl, nativeTokenizerMinor, t, ⟨⟨UInt16.le_refl _,
    firstMinor_le t.model, absentable_of_valid hvalid⟩, hpayload⟩, hvalid, rfl⟩, hversion, ?_⟩
  intro f hf
  obtain rfl := Except.ok.inj (hread.symm.trans hf)
  exact ⟨rfl, tokenizerVersion_of_emits hpayload⟩

/-- **Today's encoding is the decoding of today's files.**  What is written is read back, and a file
of the current format and versions that is read is what is written. -/
theorem ntk97_encode_iff (t : NativeTokenizerDescriptor) (b : Bytes) :
    encodeNativeTokenizer t = .ok b ↔ decodeNativeTokenizer b = .ok t ∧ Current b := by
  refine ⟨decodeNativeTokenizer_of_encode, fun ⟨hdecode, hframe, hcurrent⟩ => ?_⟩
  simp only [decodeNativeTokenizer, bind_eq_ok, exists_unit, mapError_eq_ok, refuse_eq_ok,
    pure_eq_ok, not_not, inverse_payload.readAll_eq_ok, written_eq_ok, Prod.exists] at hdecode
  obtain ⟨⟨kind, format, payload⟩, hread, rfl, -, minor, t, ⟨-, hpayload⟩, hvalid, rfl⟩ := hdecode
  obtain ⟨rfl, hversion⟩ := hcurrent _ hread
  rw [tokenizerVersion_of_emits hpayload] at hversion
  obtain rfl : minor = nativeTokenizerMinor := (Prod.mk.inj hversion).2
  simp only [encodeNativeTokenizer, bind_eq_ok, exists_unit, mapError_eq_ok, written_eq_ok]
  exact ⟨hvalid, payload, hpayload, encodeDescriptorFrame_eq_ok.2 ⟨hread, hframe⟩⟩

end NTD97
