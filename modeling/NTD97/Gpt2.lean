import Mathlib
import NTD97.Lib.Merging
import NTD97.TextTokenizer

/-!
# Gpt2 — the GPT-2 tokenizer at work

    text ──pretokenize──▸ words ──byteEncode──▸ characters ──merge──▸ symbols ──▸ ids
    ids ──▸ characters ──byteDecoder──▸ bytes ──▸ text

A text is cut into words by the classes of its characters.  Every byte of a word becomes a
character; neighbours are merged, the pair of lowest rank first and the leftmost of equal ones,
until no merge applies, and what is left is looked up.
-/

namespace NTD97

open Guard Wire

/-! ## Words -/

/-- How characters are told apart. -/
structure CharClasses where
  isLetter : Char → Bool
  isNumber : Char → Bool
  isWhitespace : Char → Bool

/-- What a character is, as far as words are concerned. -/
inductive GeneralCategory where
  | uppercaseLetter | lowercaseLetter | titlecaseLetter | modifierLetter | otherLetter
  | decimalNumber | letterNumber | otherNumber
  | other
  deriving DecidableEq

/-- The classes by the general categories of Unicode; all that are neither letters nor numbers are
one here. -/
def CharClasses.unicode (getGeneralCategory : Char → GeneralCategory) : CharClasses where
  isLetter character := getGeneralCategory character ∈ [.uppercaseLetter, .lowercaseLetter,
    .titlecaseLetter, .modifierLetter, .otherLetter]
  isNumber character := getGeneralCategory character ∈ [.decimalNumber, .letterNumber, .otherNumber]
  isWhitespace := Text.isWhitespace

namespace Gpt2BpeTokenizer

section Pretokenize

variable (classes : CharClasses)

/-- What is neither white space nor a letter nor a number. -/
def isOther (character : Char) : Bool :=
  !classes.isWhitespace character && !classes.isLetter character && !classes.isNumber character

/-- The length of the contraction the text begins with. -/
def contraction : List Char → Option ℕ
  | '\'' :: next :: rest =>
    if next ∈ ['s', 't', 'm', 'd'] then some 2
    else match rest with
      | third :: _ =>
        if (next, third) ∈ [('r', 'e'), ('v', 'e'), ('l', 'l')] then some 3 else none
      | [] => none
  | _ => none

/-- The length of the run of a class the text begins with, a space before it included. -/
def classRun (isClass : Char → Bool) (characters : List Char) : Option ℕ :=
  let spaced := characters.head? = some ' '
  let classified := if spaced then characters.tail else characters
  if classified.head?.any isClass then
    some ((if spaced then 1 else 0) + (classified.takeWhile isClass).length)
  else none

/-- The length of the white space the text begins with, but for its last character if something
follows; a character that fits nowhere is a word of its own. -/
def whitespaceRun (characters : List Char) : ℕ :=
  let whitespaceCount := (characters.takeWhile classes.isWhitespace).length
  if 1 < whitespaceCount ∧ whitespaceCount < characters.length then whitespaceCount - 1
  else if 0 < whitespaceCount then whitespaceCount
  else 1

/-- The length of the first word. -/
def wordLength (characters : List Char) : ℕ :=
  (contraction characters).getD <| (classRun classes.isLetter characters).getD <|
    (classRun classes.isNumber characters).getD <|
      (classRun (isOther classes) characters).getD <| whitespaceRun classes characters

section Lengths

variable {classes} {isClass : Char → Bool} {characters : List Char} {n : ℕ}

/-- A run that begins is not empty. -/
theorem length_takeWhile_pos (h : characters.head?.any isClass = true) :
    0 < (characters.takeWhile isClass).length := by
  cases characters with
  | nil => exact nomatch h
  | cons character rest =>
    have hclass : isClass character = true := h
    rw [List.takeWhile_cons_of_pos hclass]
    exact Nat.succ_pos _

theorem contraction_pos (h : contraction characters = some n) : 0 < n := by
  unfold contraction at h
  split at h
  · split at h
    · exact Option.some.inj h ▸ Nat.succ_pos 1
    · split at h
      · split at h
        · exact Option.some.inj h ▸ Nat.succ_pos 2
        · exact nomatch h
      · exact nomatch h
  · exact nomatch h

theorem classRun_pos (h : classRun isClass characters = some n) : 0 < n := by
  rw [classRun] at h
  generalize (if characters.head? = some ' ' then characters.tail else characters) = classified at h
  by_cases hhead : classified.head?.any isClass = true
  · rw [if_pos hhead] at h
    rw [← Option.some.inj h]
    exact Nat.add_pos_right _ (length_takeWhile_pos hhead)
  · rw [if_neg hhead] at h
    exact nomatch h

theorem whitespaceRun_pos : 0 < whitespaceRun classes characters := by
  unfold whitespaceRun
  dsimp only
  split
  · omega
  · split
    · assumption
    · exact Nat.one_pos

theorem getD_pos {o : Option ℕ} (h : ∀ n, o = some n → 0 < n) (hn : 0 < n) : 0 < o.getD n := by
  cases o with
  | none => exact hn
  | some m => exact h m rfl

end Lengths

/-- **A word is not empty**, so cutting words off a text comes to an end. -/
theorem wordLength_pos (characters : List Char) : 0 < wordLength classes characters :=
  getD_pos (fun _ => contraction_pos) <| getD_pos (fun _ => classRun_pos) <|
    getD_pos (fun _ => classRun_pos) <| getD_pos (fun _ => classRun_pos) whitespaceRun_pos

/-- The words of a text, by their characters. -/
def words (characters : List Char) : List (List Char) :=
  if characters = [] then []
  else characters.take (wordLength classes characters) ::
    words (characters.drop (wordLength classes characters))
termination_by characters.length
decreasing_by
  rename_i h
  have hpos := wordLength_pos classes characters
  have hlen := List.length_pos_of_ne_nil h
  rw [List.length_drop]
  omega

/-- The words of a text, in order. -/
def gpt2Pretokenize (text : String) : List String :=
  (words classes text.toList).map String.ofList

end Pretokenize

/-! ## Merging -/

/-- A candidate replaces the best one so far unless that is of lower rank, or as low and further
left. -/
def better (best : Option (ℕ × ℕ)) (rank index : ℕ) : Option (ℕ × ℕ) :=
  match best with
  | some (bestRank, bestIndex) =>
    if bestRank < rank ∨ (bestRank = rank ∧ bestIndex < index) then best else some (rank, index)
  | none => some (rank, index)

/-- The rank and the index of the best pair of neighbours. -/
def bestMerge (mergeRanks : PairMap) (symbols : List Bytes) : Option (ℕ × ℕ) :=
  (symbols.zip symbols.tail).zipIdx.foldl (fun best (key, index) =>
    match mergeRanks[key]? with
    | none => best
    | some rank => better best rank index) none

/-- The symbol at an index takes in the one after it. -/
def mergeAt (index : ℕ) (symbols : List Bytes) : List Bytes :=
  Merging.mergeAt (· ++ ·) index symbols

/-- The rank of a pair of neighbours. -/
def rankOf (mergeRanks : PairMap) (left right : Bytes) : Option ℕ := mergeRanks[(left, right)]?

/-- What the search has found after more candidates, from the index `n` on. -/
def further (best : Option (ℕ × ℕ)) (n : ℕ) : Option (ℕ × ℕ) → Option (ℕ × ℕ)
  | none => best
  | some (rank, i) =>
    if best.any (·.1 ≤ rank) then best else some (rank, i + n)

/-- What is no worse than one rank is no worse than a higher one. -/
theorem any_le_mono {best : Option (ℕ × ℕ)} {k rank : ℕ} (hk : k ≤ rank)
    (h : best.any (·.1 ≤ k) = true) : best.any (·.1 ≤ rank) = true := by
  cases best with
  | none => exact h
  | some b => exact decide_eq_true ((of_decide_eq_true h).trans hk)

/-- A candidate of the index `n` is better only if it is of lower rank. -/
theorem better_eq {best : Option (ℕ × ℕ)} {rank n : ℕ} (hbest : ∀ b, best = some b → b.2 < n) :
    better best rank n = if best.any (·.1 ≤ rank) then best else some (rank, n) := by
  rcases best with _ | ⟨bestRank, bestIndex⟩
  · rfl
  · have hlt : bestIndex < n := hbest _ rfl
    simp only [better, Option.any_some, hlt, and_true, decide_eq_true_eq, le_iff_lt_or_eq]

/-- One candidate first, then those after it. -/
theorem further_better {best : Option (ℕ × ℕ)} {rank n : ℕ} (hbest : ∀ b, best = some b → b.2 < n)
    (rest : Option (ℕ × ℕ)) :
    further (better best rank n) (n + 1) rest =
      further best n (Merging.prefer (some rank) rest) := by
  rw [better_eq hbest]
  rcases rest with _ | ⟨k, i⟩
  · rw [Merging.prefer, further, further, Nat.zero_add]
  · have hindex : i + (n + 1) = i + 1 + n := by omega
    rw [Merging.prefer]
    by_cases hk : k < rank
    · rw [if_pos hk, further, further, hindex]
      by_cases hany : best.any (·.1 ≤ rank) = true
      · rw [if_pos hany]
      · have hany' : ¬ best.any (·.1 ≤ k) = true := fun h => hany (any_le_mono hk.le h)
        have hrank : ¬ (some (rank, n)).any (·.1 ≤ k) = true := by simpa using hk
        rw [if_neg hany, if_neg hany', if_neg hrank]
    · rw [if_neg hk, further, further, Nat.zero_add]
      have hle : rank ≤ k := Nat.le_of_not_lt hk
      by_cases hany : best.any (·.1 ≤ rank) = true
      · rw [if_pos hany, if_pos (any_le_mono hle hany)]
      · have hrank : (some (rank, n)).any (·.1 ≤ k) = true := by simpa using hle
        rw [if_neg hany, if_pos hrank]

/-- The better of two candidates stands where one of them stood. -/
theorem better_index_lt {best : Option (ℕ × ℕ)} {rank n : ℕ}
    (hbest : ∀ b, best = some b → b.2 < n) : ∀ b, better best rank n = some b → b.2 < n + 1 := by
  intro b hb
  unfold better at hb
  split at hb
  · next bestRank bestIndex =>
    split at hb
    · cases hb
      exact Nat.lt_succ_of_lt (hbest _ rfl)
    · cases hb
      exact Nat.lt_succ_self n
  · cases hb
    exact Nat.lt_succ_self n

/-- The pass over the pairs, from any position and with any candidate so far. -/
theorem foldl_better (mergeRanks : PairMap) : ∀ (symbols : List Bytes) (n : ℕ)
    (best : Option (ℕ × ℕ)), (∀ b, best = some b → b.2 < n) →
    ((symbols.zip symbols.tail).zipIdx n).foldl (fun best (key, index) =>
      match mergeRanks[key]? with
      | none => best
      | some rank => better best rank index) best =
    further best n (Merging.bestPair (rankOf mergeRanks) symbols)
  | [], _, _, _ => rfl
  | [_], _, _, _ => rfl
  | left :: right :: symbols, n, best, hbest => by
      have ih := foldl_better mergeRanks (right :: symbols) (n + 1)
      rw [Merging.bestPair]
      rw [List.tail_cons, List.zip_cons_cons, List.zipIdx_cons, List.foldl_cons]
      change List.foldl _ (match rankOf mergeRanks left right with
        | none => best
        | some rank => better best rank n) _ = _
      cases hrank : rankOf mergeRanks left right with
      | none =>
        refine (ih best fun b hb => Nat.lt_succ_of_lt (hbest b hb)).trans ?_
        cases Merging.bestPair (rankOf mergeRanks) (right :: symbols) with
        | none => rfl
        | some r => simp [Merging.prefer, further, Nat.add_assoc, Nat.add_comm 1]
      | some rank => exact (ih _ (better_index_lt hbest)).trans (further_better hbest _)

/-- **The best merge is the best pair**: of lowest rank, and the leftmost of equal ones. -/
theorem bestMerge_eq (mergeRanks : PairMap) (symbols : List Bytes) :
    bestMerge mergeRanks symbols = Merging.bestPair (rankOf mergeRanks) symbols := by
  rw [bestMerge, foldl_better mergeRanks symbols 0 none fun _ h => nomatch h]
  cases Merging.bestPair (rankOf mergeRanks) symbols <;> rfl

/-- Merge the best pair until no pair of neighbours has a rank. -/
def mergeLoop (mergeRanks : PairMap) (symbols : List Bytes) : List Bytes :=
  match _h : bestMerge mergeRanks symbols with
  | none => symbols
  | some (_, index) => mergeLoop mergeRanks (mergeAt index symbols)
termination_by symbols.length
decreasing_by
  have hlen : (mergeAt index symbols).length + 1 = symbols.length := Merging.length_mergeAt
    (Merging.lt_length_of_bestPair ((bestMerge_eq mergeRanks symbols).symm.trans _h))
  omega

/-! ## Encoding and decoding -/

variable (self : Gpt2BpeTokenizer)

/-- An id that `decode` may leave out. -/
def isSpecial (id : UInt32) : Bool :=
  self.bosToken = some id ∨ self.eosToken = some id ∨ self.unknownToken = some id

/-- Each byte by its character. -/
def byteEncode (text : String) : Bytes :=
  utf8 (String.ofList ((utf8 text).map fun byte => self.byteEncoder.getD byte.toNat '\x00'))

/-- The id of a symbol. -/
def lookUp (symbol : Bytes) : Except TokenizerError UInt32 :=
  okOr self.tokenToId[symbol]? (.missingTokenPiece symbol)

/-- The ids of a word. -/
def encodeWord (encoded : Bytes) : Except TokenizerError (List UInt32) := do
  let encodedText ← okOr (ofUtf8 encoded) .invalidUtf8
  let symbols := encodedText.toList.map fun character => utf8 character.toString
  (mergeLoop self.mergeRanks symbols).mapM self.lookUp

/-- The ids of a text, word by word. -/
def encode (classes : CharClasses) (text : String) (addSpecialTokens : Bool) :
    Except TokenizerError (List UInt32) := do
  let bos := if addSpecialTokens && self.addBosToken then self.bosToken.toList else []
  let words ← (gpt2Pretokenize classes text).mapM fun word => self.encodeWord (self.byteEncode word)
  let eos := if addSpecialTokens && self.addEosToken then self.eosToken.toList else []
  return bos ++ words.flatten ++ eos

/-- The byte that a character of a token stands for. -/
def decodeChar (character : Char) : Except TokenizerError UInt8 :=
  okOr self.byteDecoder[character]? (.invalidGpt2ByteChar character)

/-- The bytes of a token; a special one has none if those are skipped. -/
def decodeToken (skipSpecial : Bool) (id : UInt32) : Except TokenizerError Bytes := do
  if skipSpecial && self.isSpecial id then return []
  else
    let token ← okOr self.tokens[id.toNat]? (.invalidTokenId id)
    let tokenText ← okOr (ofUtf8 token) .invalidUtf8
    tokenText.toList.mapM self.decodeChar

/-- The text that ids spell. -/
def decode (tokenIds : List UInt32) (skipSpecial : Bool) : Except TokenizerError String := do
  let bytes ← tokenIds.mapM (self.decodeToken skipSpecial)
  okOr (ofUtf8 bytes.flatten) .invalidUtf8

end Gpt2BpeTokenizer

end NTD97
