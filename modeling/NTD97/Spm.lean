import Mathlib
import NTD97.Lib.Binary32
import NTD97.Lib.Merging
import NTD97.TextTokenizer

/-!
# Spm — the SentencePiece tokenizer at work

    text ──normalize──▸ bytes ──split──▸ symbols ══merge══▸ symbols ──emit──▸ ids ──▸ bytes ──▸ text

Spaces are written `▁`, and one may be put in front.  The characters are symbols in a linked list;
a queue holds the pairs of neighbours that may be merged, the best score first.  A merge leaves
entries behind that are out of date, which are told by their sizes and skipped.  A symbol that is no
token is emitted byte by byte.
-/

namespace NTD97

open Guard Wire

def tokenTypeNormal : Int32 := 1
def tokenTypeUnknown : Int32 := 2
def tokenTypeControl : Int32 := 3
def tokenTypeUserDefined : Int32 := 4
def tokenTypeUnused : Int32 := 5
def tokenTypeByte : Int32 := 6

/-- The bytes of `▁`. -/
def spmSpace : Bytes := [0xE2, 0x96, 0x81]

/-- The special tokens, and which of them a text gets. -/
structure LlamaSpmConfig where
  bosToken : Option UInt32
  eosToken : Option UInt32
  unknownToken : Option UInt32
  addSpacePrefix : Bool
  addBosToken : Bool
  addEosToken : Bool
  deriving DecidableEq

/-- A vocabulary with its scores and types, and two ways to look a token up. -/
structure LlamaSpmTokenizer where
  tokens : List Bytes
  scoreBits : List UInt32
  tokenTypes : List Int32
  bosToken : Option UInt32
  eosToken : Option UInt32
  unknownToken : Option UInt32
  addSpacePrefix : Bool
  addBosToken : Bool
  addEosToken : Bool
  tokenToId : BTreeMap Bytes UInt32
  byteTokens : List (Option UInt32)

/-- A stretch of the text, in a list of such; one that was merged away has no length. -/
structure SpmSymbol where
  start : ℕ
  len : ℕ
  prev : Option ℕ
  next : Option ℕ
  deriving DecidableEq

/-- Two neighbours that may be merged into a token, with the bits of its score. -/
structure SpmBigram where
  left : ℕ
  right : ℕ
  score : UInt32
  size : ℕ
  deriving DecidableEq

/-- Greater is better: the score by `f32::total_cmp`, then the symbols further left. -/
def SpmBigram.key (bigram : SpmBigram) : ℤ ×ₗ ℕᵒᵈ ×ₗ ℕᵒᵈ :=
  toLex (Binary32.totalRank bigram.score,
    toLex (OrderDual.toDual bigram.left, OrderDual.toDual bigram.right))

/-- **What a text was merged from**: two texts, each shorter than it. -/
structure ReverseMerges where
  entries : BTreeMap Bytes (Bytes × Bytes)
  shorter : ∀ (text left right : Bytes), entries[text]? = some (left, right) →
    left.length < text.length ∧ right.length < text.length

/-- No merge has been tried. -/
def ReverseMerges.empty : ReverseMerges where
  entries := ∅
  shorter text left right h := by simp at h

/-- One more merge: the text it makes, and the two shorter texts it is made of. -/
def ReverseMerges.insert (self : ReverseMerges) (text left right : Bytes)
    (h : left.length < text.length ∧ right.length < text.length) : ReverseMerges where
  entries := self.entries.insert text (left, right)
  shorter text' left' right' h' := by
    rw [Std.ExtTreeMap.getElem?_insert] at h'
    split at h'
    · next heq =>
      cases h'
      rwa [← Std.LawfulEqCmp.eq_of_compare heq]
    · exact self.shorter text' left' right' h'

/-- The queue of candidates, the best first, and what they would be merged from. -/
structure Bigrams where
  queue : List SpmBigram
  reverseMerges : ReverseMerges

/-! ## Building -/

/-- A digit of a byte token. -/
def hexNibble (value : UInt8) : Option UInt8 :=
  if 48 ≤ value ∧ value ≤ 57 then some (value - 48)
  else if 97 ≤ value ∧ value ≤ 102 then some (value - 97 + 10)
  else if 65 ≤ value ∧ value ≤ 70 then some (value - 65 + 10)
  else none

/-- The byte of a piece `<0xHH>`, or of a piece of one byte. -/
def parseBytePiece : Bytes → Option UInt8
  | [byte] => some byte
  | [60, 48, 120, high, low, 62] => do
    let high ← hexNibble high
    let low ← hexNibble low
    return high <<< 4 ||| low
  | _ => none

/-- The types of tokens that a merge may make. -/
def isMergeTokenType (tokenType : Int32) : Prop :=
  tokenType = tokenTypeNormal ∨ tokenType = tokenTypeUserDefined

/-- The types of tokens that a piece of text may become. -/
def isOutputTokenType (tokenType : Int32) : Prop :=
  tokenType = tokenTypeNormal ∨ tokenType = tokenTypeUnknown ∨ tokenType = tokenTypeUserDefined

instance (tokenType : Int32) : Decidable (isMergeTokenType tokenType) :=
  inferInstanceAs (Decidable (_ ∨ _))

instance (tokenType : Int32) : Decidable (isOutputTokenType tokenType) :=
  inferInstanceAs (Decidable (_ ∨ _ ∨ _))

namespace LlamaSpmTokenizer

/-- One token: its score and its type are checked, and it is entered under its text and its byte. -/
def insertToken (scoreBits : List UInt32) (tokenTypes : List Int32)
    (maps : BTreeMap Bytes UInt32 × List (Option UInt32)) (entry : Bytes × ℕ) :
    Except TokenizerError (BTreeMap Bytes UInt32 × List (Option UInt32)) := do
  let (token, index) := entry
  let id ← lenU32 index
  refuse (¬ f32IsFinite (scoreBits.getD index 0)) (.nonFiniteScore id)
  let tokenType := tokenTypes.getD index 0
  refuse (tokenType < tokenTypeNormal ∨ tokenTypeByte < tokenType) (.invalidTokenType id tokenType)
  let byteTokens := match if tokenType = tokenTypeByte then parseBytePiece token else none with
    | some byte => maps.2.set byte.toNat (some id)
    | none => maps.2
  return (maps.1.insert token id, byteTokens)

/-- A tokenizer, if the vocabulary is consistent. -/
def new (tokens : List Bytes) (scoreBits : List UInt32) (tokenTypes : List Int32)
    (config : LlamaSpmConfig) : Except TokenizerError LlamaSpmTokenizer := do
  validateVocabulary tokens
  validateSpecials tokens config.bosToken config.eosToken config.unknownToken
  refuse (scoreBits.length ≠ tokens.length) (.invalidScoreCount tokens.length scoreBits.length)
  refuse (tokenTypes.length ≠ tokens.length)
    (.invalidTokenTypeCount tokens.length tokenTypes.length)
  let (tokenToId, byteTokens) ← tokens.zipIdx.foldlM (insertToken scoreBits tokenTypes)
    (∅, List.replicate 256 none)
  return {
    bosToken := config.bosToken
    eosToken := config.eosToken
    unknownToken := config.unknownToken
    addSpacePrefix := config.addSpacePrefix
    addBosToken := config.addBosToken
    addEosToken := config.addEosToken
    tokens, scoreBits, tokenTypes, tokenToId, byteTokens }

end LlamaSpmTokenizer

/-! ## Symbols -/

/-- A character as it is written in normal form. -/
def escapeSpm (character : Char) : Bytes :=
  if character = ' ' then spmSpace else utf8 character.toString

/-- The bytes of a text with its spaces escaped, behind the prefix. -/
def normalizeSpm (text : String) (addSpacePrefix : Bool) : Bytes :=
  (if addSpacePrefix ∧ text ≠ "" then spmSpace else []) ++ text.toList.flatMap escapeSpm

/-- The length of a character by its first byte; a byte that begins none counts as one. -/
def utf8CharLen (first : UInt8) : ℕ :=
  if first &&& 0x80 = 0 then 1
  else if first &&& 0xE0 = 0xC0 then 2
  else if first &&& 0xF0 = 0xE0 then 3
  else if first &&& 0xF8 = 0xF0 then 4
  else 1

theorem utf8CharLen_pos (first : UInt8) : 0 < utf8CharLen first := by
  unfold utf8CharLen
  repeat' split
  all_goals decide

/-- The symbols of a text that begins at an offset, counted from an index on. -/
def splitFrom (offset index : ℕ) (text : Bytes) : List SpmSymbol :=
  match text with
  | [] => []
  | first :: rest =>
    let len := min (utf8CharLen first) (rest.length + 1)
    let remaining := (first :: rest).drop len
    { start := offset
      len
      prev := if index = 0 then none else some (index - 1)
      next := if remaining = [] then none else some (index + 1) } ::
      splitFrom (offset + len) (index + 1) remaining
termination_by text.length
decreasing_by
  have hpos := utf8CharLen_pos first
  simp only [List.length_drop, List.length_cons]
  omega

/-- One symbol for each character of a text. -/
def splitUtf8Symbols (text : Bytes) : List SpmSymbol := splitFrom 0 0 text

/-- The symbol at an index; one outside the list has no length. -/
def symbolAt (symbols : List SpmSymbol) (index : ℕ) : SpmSymbol :=
  symbols.getD index ⟨0, 0, none, none⟩

/-- One symbol is changed. -/
def update (symbols : List SpmSymbol) (index : ℕ) (f : SpmSymbol → SpmSymbol) : List SpmSymbol :=
  symbols.set index (f (symbolAt symbols index))

/-- The bytes of a text from one offset to another. -/
def slice (text : Bytes) (start stop : ℕ) : Bytes := (text.take stop).drop start

theorem length_slice {text : Bytes} {start stop : ℕ} (h : stop ≤ text.length) :
    (slice text start stop).length = stop - start := by
  rw [slice, List.length_drop, List.length_take, Nat.min_eq_left h]

/-- Two parts of a stretch are shorter than it. -/
theorem slice_shorter {text : Bytes} {start leftLen rightLen : ℕ}
    (hlens : ¬ (leftLen = 0 ∨ rightLen = 0)) (h : start + leftLen + rightLen ≤ text.length) :
    (slice text start (start + leftLen)).length <
        (slice text start (start + leftLen + rightLen)).length ∧
      (slice text (start + leftLen) (start + leftLen + rightLen)).length <
        (slice text start (start + leftLen + rightLen)).length := by
  rw [length_slice h, length_slice h, length_slice (by omega)]
  omega

/-! ## Merging -/

namespace LlamaSpmTokenizer

variable (self : LlamaSpmTokenizer)

/-- The bits of the score of a text that neighbours may be merged to. -/
def mergeScore (text : Bytes) : Option UInt32 := do
  let id ← self.tokenToId[text]?
  if isMergeTokenType (self.tokenTypes.getD id.toNat 0) then
    some (self.scoreBits.getD id.toNat 0)
  else none

/-- `BinaryHeap::push`, on a queue in order. -/
def push (bigram : SpmBigram) (queue : List SpmBigram) : List SpmBigram :=
  queue.orderedInsert (fun a b => b.key ≤ a.key) bigram

/-- Two symbols become a candidate if they are next to each other and make a token. -/
def tryAddBigram (normalized : Bytes) (symbols : List SpmSymbol) (left right : ℕ)
    (bigrams : Bigrams) : Except TokenizerError Bigrams :=
  let l := symbolAt symbols left
  let r := symbolAt symbols right
  if hlens : l.len = 0 ∨ r.len = 0 then .ok bigrams
  else if l.start + l.len ≠ r.start then .ok bigrams
  else if hstop : l.start + l.len + r.len ≤ normalized.length then
    let leftEnd := l.start + l.len
    let stop := l.start + l.len + r.len
    let text := slice normalized l.start stop
    match self.mergeScore text with
    | none => .ok bigrams
    | some score => .ok {
        queue := push { left, right, score, size := text.length } bigrams.queue
        reverseMerges := bigrams.reverseMerges.insert text (slice normalized l.start leftEnd)
          (slice normalized leftEnd stop) (slice_shorter hlens hstop) }
  else .error .overflow

/-- A candidate is out of date if one of its symbols was merged since. -/
def Stale (symbols : List SpmSymbol) (bigram : SpmBigram) : Prop :=
  ((symbolAt symbols bigram.left).len = 0 ∨ (symbolAt symbols bigram.right).len = 0) ∨
    (symbolAt symbols bigram.left).len + (symbolAt symbols bigram.right).len ≠ bigram.size ∨
    (symbolAt symbols bigram.left).next ≠ some bigram.right

instance (symbols : List SpmSymbol) (bigram : SpmBigram) : Decidable (Stale symbols bigram) :=
  inferInstanceAs (Decidable (_ ∨ _ ∨ _))

/-- The left symbol of a candidate takes in the right one. -/
def absorb (symbols : List SpmSymbol) (bigram : SpmBigram) : List SpmSymbol :=
  let rightNext := (symbolAt symbols bigram.right).next
  let merged := update symbols bigram.left fun symbol =>
    { symbol with len := bigram.size, next := rightNext }
  let emptied := update merged bigram.right fun symbol => { symbol with len := 0 }
  match rightNext with
  | some next => update emptied next fun symbol => { symbol with prev := some bigram.left }
  | none => emptied

/-- A candidate is tried where there are two symbols. -/
def tryAddLink (normalized : Bytes) (symbols : List SpmSymbol) :
    Option ℕ → Option ℕ → Bigrams → Except TokenizerError Bigrams
  | some left, some right, bigrams => self.tryAddBigram normalized symbols left right bigrams
  | _, _, bigrams => .ok bigrams

/-- The new neighbours of a symbol become candidates. -/
def addNeighbours (normalized : Bytes) (symbols : List SpmSymbol) (left : ℕ) (bigrams : Bigrams) :
    Except TokenizerError Bigrams := do
  let bigrams ← self.tryAddLink normalized symbols (symbolAt symbols left).prev (some left) bigrams
  self.tryAddLink normalized symbols (some left) (symbolAt symbols left).next bigrams

/-- The symbols that were not merged away. -/
def live (symbols : List SpmSymbol) : ℕ := symbols.countP (·.len ≠ 0)

/-- An update keeps the number of symbols. -/
theorem update_length (symbols : List SpmSymbol) (index : ℕ) (f : SpmSymbol → SpmSymbol) :
    (update symbols index f).length = symbols.length := List.length_set

/-- Behind the last symbol there is none. -/
theorem symbolAt_of_ge {symbols : List SpmSymbol} {index : ℕ} (h : symbols.length ≤ index) :
    symbolAt symbols index = ⟨0, 0, none, none⟩ := List.getD_eq_default _ _ h

/-- A symbol that covers something is in the list. -/
theorem lt_length_of_len {symbols : List SpmSymbol} {index : ℕ}
    (h : (symbolAt symbols index).len ≠ 0) : index < symbols.length := by
  by_contra hge
  rw [symbolAt_of_ge (not_lt.1 hge)] at h
  exact h rfl

/-- What an update changes, and what it does not. -/
theorem symbolAt_update {symbols : List SpmSymbol} {index i : ℕ} {f : SpmSymbol → SpmSymbol}
    (h : index < symbols.length) : symbolAt (update symbols index f) i =
      if i = index then f (symbolAt symbols i) else symbolAt symbols i := by
  unfold symbolAt update
  split
  · next heq =>
    subst heq
    rw [List.getD_eq_getElem _ _ (by rwa [List.length_set]), List.getElem_set_self]
    rfl
  · next hne =>
    rw [List.getD_eq_getElem?_getD, List.getD_eq_getElem?_getD,
      List.getElem?_set_ne fun heq => hne heq.symm]

/-- An update that keeps a symbol alive keeps the count. -/
theorem live_update {symbols : List SpmSymbol} {index : ℕ} {f : SpmSymbol → SpmSymbol}
    (h : (f (symbolAt symbols index)).len = 0 ↔ (symbolAt symbols index).len = 0) :
    live (update symbols index f) = live symbols := by
  by_cases hlt : index < symbols.length
  · have hget : symbolAt symbols index = symbols[index] := List.getD_eq_getElem _ _ hlt
    rw [hget] at h
    rw [live, live, update, hget, List.countP_set hlt]
    have hpos : symbols[index].len ≠ 0 → 0 < symbols.countP (·.len ≠ 0) := fun hne =>
      List.countP_pos_iff.2 ⟨_, List.getElem_mem hlt, decide_eq_true hne⟩
    by_cases hzero : symbols[index].len = 0
    · simp [h.2 hzero, hzero]
    · have hne : (f symbols[index]).len ≠ 0 := fun h0 => hzero (h.1 h0)
      have := hpos hzero
      simp only [hne, hzero, decide_not, decide_false, Bool.not_false, if_true]
      simp only [decide_not] at this
      omega
  · rw [update, List.set_eq_of_length_le (not_lt.1 hlt)]

/-- A symbol that is emptied is one less. -/
theorem live_empty {symbols : List SpmSymbol} {index : ℕ} {f : SpmSymbol → SpmSymbol}
    (h : (symbolAt symbols index).len ≠ 0) (hf : (f (symbolAt symbols index)).len = 0) :
    live (update symbols index f) + 1 = live symbols := by
  have hlt := lt_length_of_len h
  have hget : symbolAt symbols index = symbols[index] := List.getD_eq_getElem _ _ hlt
  rw [hget] at h hf
  have hpos : 0 < symbols.countP (·.len ≠ 0) :=
    List.countP_pos_iff.2 ⟨_, List.getElem_mem hlt, decide_eq_true h⟩
  rw [live, live, update, hget, List.countP_set hlt]
  simp only [hf, h, decide_not, decide_false, decide_true, Bool.not_false, Bool.not_true, if_true]
  simp only [decide_not] at hpos
  simp only [Bool.false_eq_true, if_false]
  omega

/-- **A merge leaves one symbol less.** -/
theorem live_absorb {symbols : List SpmSymbol} {bigram : SpmBigram} (h : ¬ Stale symbols bigram) :
    live (absorb symbols bigram) < live symbols := by
  simp only [Stale, not_or, not_not] at h
  obtain ⟨⟨hleft, hright⟩, hsize, -⟩ := h
  have hsize0 : bigram.size ≠ 0 := by omega
  have hlt := lt_length_of_len hleft
  have hmerged : live (update symbols bigram.left fun symbol => { symbol with
      len := bigram.size, next := (symbolAt symbols bigram.right).next }) = live symbols :=
    live_update (by simp only [hsize0, hleft])
  have hright' :
      (symbolAt (update symbols bigram.left fun symbol => { symbol with
        len := bigram.size, next := (symbolAt symbols bigram.right).next }) bigram.right).len ≠ 0 := by
    rw [symbolAt_update hlt]
    split
    · exact hsize0
    · exact hright
  have hempty := live_empty (f := fun symbol => { symbol with len := 0 }) hright' rfl
  rw [hmerged] at hempty
  unfold absorb
  dsimp only
  split
  · rw [live_update Iff.rfl]
    omega
  · omega

theorem length_push (bigram : SpmBigram) (queue : List SpmBigram) :
    (push bigram queue).length = queue.length + 1 := List.orderedInsert_length _ _ _

/-- An attempt adds one entry at most. -/
theorem tryAddBigram_queue_le {normalized : Bytes} {symbols : List SpmSymbol} {left right : ℕ}
    {bigrams bigrams' : Bigrams}
    (h : self.tryAddBigram normalized symbols left right bigrams = .ok bigrams') :
    bigrams'.queue.length ≤ bigrams.queue.length + 1 := by
  unfold tryAddBigram at h
  dsimp only at h
  split at h
  · exact Except.ok.inj h ▸ Nat.le_succ _
  · split at h
    · exact Except.ok.inj h ▸ Nat.le_succ _
    · split at h
      · split at h
        · exact Except.ok.inj h ▸ Nat.le_succ _
        · exact Except.ok.inj h ▸ (length_push _ _).le
      · exact nomatch h

/-- So does an attempt at a neighbour that may not be there. -/
theorem tryAddLink_queue_le {normalized : Bytes} {symbols : List SpmSymbol}
    {left right : Option ℕ} {bigrams bigrams' : Bigrams}
    (h : self.tryAddLink normalized symbols left right bigrams = .ok bigrams') :
    bigrams'.queue.length ≤ bigrams.queue.length + 1 := by
  unfold tryAddLink at h
  split at h
  · exact tryAddBigram_queue_le self h
  · exact Except.ok.inj h ▸ Nat.le_succ _

/-- A merge adds two candidates at most. -/
theorem addNeighbours_queue_le {normalized : Bytes} {symbols : List SpmSymbol} {left : ℕ}
    {bigrams bigrams' : Bigrams}
    (h : self.addNeighbours normalized symbols left bigrams = .ok bigrams') :
    bigrams'.queue.length ≤ bigrams.queue.length + 2 := by
  obtain ⟨mid, hprev, hnext⟩ := bind_eq_ok.1 h
  exact (tryAddLink_queue_le self hnext).trans (Nat.succ_le_succ (tryAddLink_queue_le self hprev))

/-- **Take the best candidate** until none is left; a merge costs a symbol, and everything else a
candidate. -/
def mergeLoop (normalized : Bytes) (symbols : List SpmSymbol) (bigrams : Bigrams) :
    Except TokenizerError (List SpmSymbol × ReverseMerges) :=
  match _hqueue : bigrams.queue with
  | [] => .ok (symbols, bigrams.reverseMerges)
  | bigram :: queue =>
    if _hstale : Stale symbols bigram then mergeLoop normalized symbols { bigrams with queue }
    else
      match _hadd : self.addNeighbours normalized (absorb symbols bigram) bigram.left
          { bigrams with queue } with
      | .ok bigrams' => mergeLoop normalized (absorb symbols bigram) bigrams'
      | .error e => .error e
termination_by 3 * live symbols + bigrams.queue.length
decreasing_by
  · rw [_hqueue]
    exact Nat.lt_succ_self _
  · have hlive := live_absorb _hstale
    have hlen := addNeighbours_queue_le self _hadd
    rw [_hqueue, List.length_cons]
    dsimp only at hlen
    omega

/-- The symbols from one on, along the list. -/
def walk (symbols : List SpmSymbol) : ℕ → Option ℕ → List SpmSymbol
  | fuel + 1, some index =>
    symbolAt symbols index :: walk symbols fuel (symbolAt symbols index).next
  | _, _ => []

/-- The stretches of the text that the symbols are left with. -/
def pieces (normalized : Bytes) (symbols : List SpmSymbol) : List Bytes :=
  ((walk symbols symbols.length (some 0)).filter (·.len ≠ 0)).map fun symbol =>
    slice normalized symbol.start (symbol.start + symbol.len)

/-- **The segmentation of a text**, and what it was merged from. -/
def segment (normalized : Bytes) : Except TokenizerError (List Bytes × ReverseMerges) := do
  let symbols := splitUtf8Symbols normalized
  let bigrams ← (List.range (symbols.length - 1)).foldlM (fun bigrams index =>
    self.tryAddBigram normalized symbols index (index + 1) bigrams) ⟨[], .empty⟩
  let (symbols, reverseMerges) ← self.mergeLoop normalized symbols bigrams
  return (pieces normalized symbols, reverseMerges)

/-! ## Encoding and decoding -/

/-- The id of a text that is emitted as it is. -/
def outputToken (text : Bytes) : Option UInt32 := do
  let id ← self.tokenToId[text]?
  if isOutputTokenType (self.tokenTypes.getD id.toNat 0) then some id else none

/-- The token of a byte. -/
def byteToken (byte : UInt8) : Except TokenizerError UInt32 :=
  okOr (self.byteTokens.getD byte.toNat none) (.missingByteToken byte)

/-- A token, the tokens of what it was merged from, or those of its bytes. -/
def emitPiece (reverseMerges : ReverseMerges) (text : Bytes) :
    Except TokenizerError (List UInt32) :=
  match self.outputToken text with
  | some id => .ok [id]
  | none =>
    match _h : reverseMerges.entries[text]? with
    | some (left, right) => do
      let leftIds ← emitPiece reverseMerges left
      let rightIds ← emitPiece reverseMerges right
      return leftIds ++ rightIds
    | none => text.mapM self.byteToken
termination_by text.length
decreasing_by
  · exact (reverseMerges.shorter text left right _h).1
  · exact (reverseMerges.shorter text left right _h).2

/-- The ids of a normalized text. -/
def encodeNormalized (normalized : Bytes) : Except TokenizerError (List UInt32) := do
  let (pieces, reverseMerges) ← self.segment normalized
  let ids ← pieces.mapM (self.emitPiece reverseMerges)
  return ids.flatten

/-- Nothing is encoded for an empty text. -/
def encodeBody (normalized : Bytes) : Except TokenizerError (List UInt32) :=
  if normalized = [] then .ok [] else self.encodeNormalized normalized

/-- The ids of a text, between the special ones. -/
def encode (text : String) (addSpecialTokens : Bool) : Except TokenizerError (List UInt32) := do
  let normalized := normalizeSpm text self.addSpacePrefix
  let bos := if addSpecialTokens && self.addBosToken then self.bosToken.toList else []
  let body ← self.encodeBody normalized
  let eos := if addSpecialTokens && self.addEosToken then self.eosToken.toList else []
  return bos ++ body ++ eos

/-- A token as it is read: `▁` is a space again. -/
def unescapeSpm (token : Bytes) : Bytes :=
  match token with
  | [] => []
  | byte :: rest =>
    if spmSpace <+: byte :: rest then 0x20 :: unescapeSpm ((byte :: rest).drop spmSpace.length)
    else byte :: unescapeSpm rest
termination_by token.length
decreasing_by
  all_goals simp only [List.length_drop, List.length_cons, spmSpace]
  all_goals omega

/-- Specials, control tokens and unused ones are skipped. -/
def skips (skipSpecial : Bool) (id : UInt32) (tokenType : Int32) : Bool :=
  skipSpecial && (self.bosToken = some id ∨ self.eosToken = some id ∨ self.unknownToken = some id ∨
    tokenType = tokenTypeControl ∨ tokenType = tokenTypeUnused)

/-- The bytes of a token. -/
def tokenBytes (id : UInt32) (token : Bytes) (tokenType : Int32) : Except TokenizerError Bytes :=
  if tokenType = tokenTypeByte then do
    let byte ← okOr (parseBytePiece token) (.invalidTokenType id tokenType)
    return [byte]
  else return unescapeSpm token

/-- The bytes of ids; `strip` tells whether a space in front of the next one is the prefix. -/
def decodeFrom (skipSpecial : Bool) : Bool → List UInt32 → Except TokenizerError Bytes
  | _, [] => .ok []
  | strip, id :: ids => do
    let token ← okOr self.tokens[id.toNat]? (.invalidTokenId id)
    let tokenType := self.tokenTypes.getD id.toNat 0
    if self.skips skipSpecial id tokenType then
      decodeFrom skipSpecial (self.addSpacePrefix && self.bosToken = some id) ids
    else
      let added ← tokenBytes id token tokenType
      let rest ← decodeFrom skipSpecial false ids
      return (if strip ∧ added.head? = some 0x20 then added.tail else added) ++ rest

/-- The text that ids spell behind another one. -/
def decodeAfter (previousToken : Option UInt32) (tokenIds : List UInt32) (skipSpecial : Bool) :
    Except TokenizerError String := do
  let bytes ← self.decodeFrom skipSpecial
    (self.addSpacePrefix && previousToken = self.bosToken) tokenIds
  okOr (ofUtf8 bytes) .invalidUtf8

/-- The text that ids spell. -/
def decode (tokenIds : List UInt32) (skipSpecial : Bool) : Except TokenizerError String :=
  self.decodeAfter none tokenIds skipSpecial

end LlamaSpmTokenizer

end NTD97
