import Mathlib
import NTD97.Core
import NTD97.Lib.Guard
import NTD97.Lib.Text
import NTD97.Lib.Wire

/-!
# TextTokenizer — vocabularies, and the GPT-2 tokenizer

    tokens ▪ merges ▪ specials ──new──▸ tokenizer

The GPT-2 alphabet gives every byte a printable character; a tokenizer is built only over a
vocabulary that has all of them, and with merges whose result is a token.
-/

namespace NTD97

open Guard Wire

inductive TokenizerError where
  | emptyVocabulary
  | emptyToken (id : UInt32)
  | duplicateToken (first second : UInt32)
  | invalidSpecialToken (id : UInt32)
  | invalidScoreCount (expected actual : ℕ)
  | invalidTokenTypeCount (expected actual : ℕ)
  | invalidTokenType (token : UInt32) (tokenType : Int32)
  | nonFiniteScore (id : UInt32)
  | missingByteToken (byte : UInt8)
  | invalidBpeMerge (merge : String)
  | duplicateBpeMerge (merge : String)
  | missingTokenPiece (piece : Bytes)
  | invalidGpt2ByteChar (character : Char)
  | invalidTokenId (id : UInt32)
  | invalidUtf8
  | overflow
  deriving DecidableEq

/-- Vocabularies are not read from bytes here. -/
instance : WireError TokenizerError where
  truncated := .overflow
  overflow := .overflow
  invalidUtf8 := .overflow

/-- One token, after those of `seen`. -/
def seeToken (seen : BTreeMap Bytes UInt32) (entry : Bytes × ℕ) :
    Except TokenizerError (BTreeMap Bytes UInt32) := do
  let id ← lenU32 entry.2
  refuse (entry.1 = []) (.emptyToken id)
  match seen[entry.1]? with
  | some first => throw (.duplicateToken first id)
  | none => return seen.insert entry.1 id

def validateVocabulary (tokens : List Bytes) : Except TokenizerError Unit := do
  refuse (tokens = []) .emptyVocabulary
  let _ ← tokens.zipIdx.foldlM seeToken ∅
  return ()

def validateSpecials (tokens : List Bytes) (bosToken eosToken unknownToken : Option UInt32) :
    Except TokenizerError Unit :=
  [bosToken, eosToken, unknownToken].reduceOption.forM fun id =>
    refuse (tokens.length ≤ id.toNat) (.invalidSpecialToken id)

structure Gpt2BpeConfig where
  bosToken : Option UInt32
  eosToken : Option UInt32
  unknownToken : Option UInt32
  addBosToken : Bool
  addEosToken : Bool
  deriving DecidableEq

instance : Std.TransCmp (lexOrd : Ord (Bytes × Bytes)).compare := inferInstance

/-- Pairs in the order of their first, then of their second parts. -/
abbrev PairMap := Std.ExtTreeMap (Bytes × Bytes) ℕ lexOrd.compare

structure Gpt2BpeTokenizer where
  tokens : List Bytes
  bosToken : Option UInt32
  eosToken : Option UInt32
  unknownToken : Option UInt32
  addBosToken : Bool
  addEosToken : Bool
  tokenToId : BTreeMap Bytes UInt32
  mergeRanks : PairMap
  byteEncoder : List Char
  byteDecoder : BTreeMap Char UInt8

namespace Gpt2BpeTokenizer

def parseMerge (merge : String) : Option (String × String) := do
  let (left, right) ← Text.splitOnce ' ' merge
  if left = "" ∨ right = "" ∨ ' ' ∈ right.toList then none else some (left, right)

/-- The bytes that stand for themselves. -/
def Printable (byte : ℕ) : Prop :=
  (0x21 ≤ byte ∧ byte ≤ 0x7E) ∨ (0xA1 ≤ byte ∧ byte ≤ 0xAC) ∨ (0xAE ≤ byte ∧ byte ≤ 0xFF)

instance (byte : ℕ) : Decidable (Printable byte) := inferInstanceAs (Decidable (_ ∨ _))

/-- The characters of the bytes; those that do not stand for themselves count up from 256. -/
def gpt2ByteEncoder : List Char :=
  (List.range 256).map fun byte =>
    if Printable byte then Char.ofNat byte
    else Char.ofNat (256 + ((List.range byte).filter (¬ Printable ·)).length)

def insertToken (tokenToId : BTreeMap Bytes UInt32) (entry : Bytes × ℕ) :
    Except TokenizerError (BTreeMap Bytes UInt32) := do
  let id ← lenU32 entry.2
  return tokenToId.insert entry.1 id

def insertMerge (tokenToId : BTreeMap Bytes UInt32) (mergeRanks : PairMap) (entry : String × ℕ) :
    Except TokenizerError PairMap := do
  let (merge, rank) := entry
  let (left, right) ← okOr (parseMerge merge) (.invalidBpeMerge merge)
  let key := (utf8 left, utf8 right)
  refuse (key ∈ mergeRanks) (.duplicateBpeMerge merge)
  refuse (key.1 ++ key.2 ∉ tokenToId) (.invalidBpeMerge merge)
  return mergeRanks.insert key rank

def new (tokens : List Bytes) (merges : List String) (config : Gpt2BpeConfig) :
    Except TokenizerError Gpt2BpeTokenizer := do
  validateVocabulary tokens
  validateSpecials tokens config.bosToken config.eosToken config.unknownToken
  let tokenToId ← tokens.zipIdx.foldlM insertToken ∅
  let mergeRanks ← merges.zipIdx.foldlM (insertMerge tokenToId) ∅
  let byteEncoder := gpt2ByteEncoder
  let byteDecoder := byteEncoder.zipIdx.foldl
    (fun bytes entry => bytes.insert entry.1 (UInt8.ofNat entry.2)) ∅
  byteEncoder.forM fun character =>
    refuse (utf8 character.toString ∉ tokenToId) (.missingTokenPiece (utf8 character.toString))
  return {
    tokens
    bosToken := config.bosToken
    eosToken := config.eosToken
    unknownToken := config.unknownToken
    addBosToken := config.addBosToken
    addEosToken := config.addEosToken
    tokenToId, mergeRanks, byteEncoder, byteDecoder }

end Gpt2BpeTokenizer

end NTD97
