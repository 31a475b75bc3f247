import Mathlib
import NTD97.Lib.SortedMap
import NTD97.Spm.Schedule

/-!
# Spm/Lossless — what is encoded is read back

    text ──▁ for spaces──▸ characters ══▸ pieces ──emit──▸ ids ──▸ bytes ──spaces for ▁──▸ text

The pieces are the characters of the text, put together; one that is a token is emitted as it, and
only single characters are not, which are emitted byte by byte.  The bytes of the ids are the text
again, behind one space if a prefix was added, which the decoder strips from the first of them.
-/

namespace NTD97

open Guard Wire

/-! ## The bytes of a character -/

/-- The four forms of a character's bytes. -/
inductive CharBytes : Bytes → Prop
  | one (v : ℕ) : v ≤ 0x7F → CharBytes [UInt8.ofNat v]
  | two (v w : ℕ) : CharBytes [UInt8.ofNat (v % 0x20 + 0xC0), UInt8.ofNat (w % 0x40 + 0x80)]
  | three (v w x : ℕ) : CharBytes [UInt8.ofNat (v % 0x10 + 0xE0), UInt8.ofNat (w % 0x40 + 0x80),
      UInt8.ofNat (x % 0x40 + 0x80)]
  | four (v w x y : ℕ) : CharBytes [UInt8.ofNat (v % 0x08 + 0xF0), UInt8.ofNat (w % 0x40 + 0x80),
      UInt8.ofNat (x % 0x40 + 0x80), UInt8.ofNat (y % 0x40 + 0x80)]

/-- The bytes of a text of one character. -/
theorem utf8_toString (character : Char) :
    utf8 character.toString = String.utf8EncodeChar character := by
  rw [utf8, Char.toString, String.toByteArray_singleton, List.utf8Encode_singleton,
    List.data_toByteArray, List.toList_toArray]

/-- **The bytes of a character are a first byte and as many more as it says.** -/
theorem charBytes (character : Char) : CharBytes (utf8 character.toString) := by
  rw [utf8_toString]
  unfold String.utf8EncodeChar
  dsimp only
  split
  · next h => exact .one _ h
  · split
    · exact .two _ _
    · split
      · exact .three _ _ _
      · exact .four _ _ _ _

/-- The lengths that the first bytes of the four forms tell. -/
theorem utf8CharLen_first : (∀ v ≤ 0x7F, utf8CharLen (UInt8.ofNat v) = 1) ∧
    (∀ v < 0x20, utf8CharLen (UInt8.ofNat (v + 0xC0)) = 2) ∧
    (∀ v < 0x10, utf8CharLen (UInt8.ofNat (v + 0xE0)) = 3) ∧
    ∀ v < 0x08, utf8CharLen (UInt8.ofNat (v + 0xF0)) = 4 := by
  decide +kernel

/-- **The first byte of a character tells how many there are.** -/
theorem CharBytes.exists_cons {b : Bytes} (h : CharBytes b) :
    ∃ first rest, b = first :: rest ∧ utf8CharLen first = b.length := by
  obtain ⟨hone, htwo, hthree, hfour⟩ := utf8CharLen_first
  cases h with
  | one v hv => exact ⟨_, _, rfl, hone v hv⟩
  | two v w => exact ⟨_, _, rfl, htwo _ (Nat.mod_lt _ (by decide))⟩
  | three v w x => exact ⟨_, _, rfl, hthree _ (Nat.mod_lt _ (by decide))⟩
  | four v w x y => exact ⟨_, _, rfl, hfour _ (Nat.mod_lt _ (by decide))⟩

/-- A character has bytes. -/
theorem utf8_toString_ne_nil (character : Char) : utf8 character.toString ≠ [] := by
  obtain ⟨first, rest, hcons, -⟩ := (charBytes character).exists_cons
  rw [hcons]
  exact List.cons_ne_nil _ _

/-! ## Reading spaces -/

open LlamaSpmTokenizer

theorem unescapeSpm_nil : unescapeSpm [] = [] := by rw [unescapeSpm]

/-- An escaped space is a space. -/
theorem unescapeSpm_space (rest : Bytes) :
    unescapeSpm (spmSpace ++ rest) = 0x20 :: unescapeSpm rest := by
  change unescapeSpm (0xE2 :: (0x96 :: 0x81 :: rest)) = _
  rw [unescapeSpm, if_pos ⟨rest, rfl⟩]
  rfl

/-- A byte that does not begin the escape stands for itself. -/
theorem unescapeSpm_cons {byte : UInt8} (h : byte ≠ 0xE2) (rest : Bytes) :
    unescapeSpm (byte :: rest) = byte :: unescapeSpm rest := by
  have hinitial : ¬ spmSpace <+: byte :: rest := by
    rintro ⟨rest', heq⟩
    exact h (List.cons.inj heq).1.symm
  rw [unescapeSpm, if_neg hinitial]

/-- A byte that is told by its number. -/
theorem ofNat_ne {n : ℕ} (hn : n < 256) (h : n ≠ 0xE2) : UInt8.ofNat n ≠ 0xE2 := by
  intro heq
  have hnat : (UInt8.ofNat n).toNat = 0xE2 := congrArg UInt8.toNat heq
  rw [UInt8.toNat_ofNat_of_lt' hn] at hnat
  exact h hnat

/-- The bytes of a character that are not those of `▁` stay as they are. -/
theorem CharBytes.unescapeSpm {b : Bytes} (h : CharBytes b) (hne : b ≠ spmSpace) (rest : Bytes) :
    unescapeSpm (b ++ rest) = b ++ unescapeSpm rest := by
  have htail : ∀ v : ℕ, UInt8.ofNat (v % 0x40 + 0x80) ≠ 0xE2 := fun v =>
    ofNat_ne (by omega) (by omega)
  cases h with
  | one v hv => exact unescapeSpm_cons (ofNat_ne (by omega) (by omega)) rest
  | two v w =>
    have hfirst : UInt8.ofNat (v % 0x20 + 0xC0) ≠ 0xE2 :=
      ofNat_ne (by omega) (by omega)
    simp only [List.cons_append, List.nil_append]
    rw [unescapeSpm_cons hfirst, unescapeSpm_cons (htail w)]
  | three v w x =>
    have hinitial : ¬ spmSpace <+: UInt8.ofNat (v % 0x10 + 0xE0) :: UInt8.ofNat (w % 0x40 + 0x80) ::
        UInt8.ofNat (x % 0x40 + 0x80) :: rest := by
      rintro ⟨rest', heq⟩
      refine hne ?_
      simp only [spmSpace, List.cons_append, List.nil_append, List.cons.injEq] at heq
      rw [spmSpace, heq.1, heq.2.1, heq.2.2.1]
    simp only [List.cons_append, List.nil_append]
    rw [LlamaSpmTokenizer.unescapeSpm, if_neg hinitial, unescapeSpm_cons (htail w),
      unescapeSpm_cons (htail x)]
  | four v w x y =>
    have hfirst : UInt8.ofNat (v % 0x08 + 0xF0) ≠ 0xE2 :=
      ofNat_ne (by omega) (by omega)
    simp only [List.cons_append, List.nil_append]
    rw [unescapeSpm_cons hfirst, unescapeSpm_cons (htail w), unescapeSpm_cons (htail x),
      unescapeSpm_cons (htail y)]

/-! ## Texts in normal form -/

/-- The character that stands for a space. -/
def spaceMark : Char := Char.ofNat 0x2581

theorem utf8_spaceMark : utf8 spaceMark.toString = spmSpace := by decide +kernel

/-- The bytes of characters. -/
def spelt (characters : List Char) : Bytes :=
  characters.flatMap fun character => utf8 character.toString

/-- A character as it is read back. -/
def readBack (character : Char) : Bytes :=
  if character = spaceMark then [0x20] else utf8 character.toString

/-- Only one character is spelt as the escape is. -/
theorem utf8_toString_eq_spmSpace {character : Char}
    (h : utf8 character.toString = spmSpace) : character = spaceMark := by
  have hstring : character.toString = spaceMark.toString := by
    have hback := ofUtf8_utf8 character.toString
    rw [h, ← utf8_spaceMark, ofUtf8_utf8] at hback
    exact (Option.some.inj hback).symm
  have hlist := congrArg String.toList hstring
  rw [Char.toString, Char.toString, String.singleton_eq_ofList, String.singleton_eq_ofList,
    String.toList_ofList, String.toList_ofList] at hlist
  exact List.singleton_inj.1 hlist

/-- **What is spelt is read character by character.** -/
theorem unescapeSpm_spelt : ∀ characters : List Char,
    unescapeSpm (spelt characters) = characters.flatMap readBack
  | [] => unescapeSpm_nil
  | character :: characters => by
      rw [spelt, List.flatMap_cons, List.flatMap_cons, readBack]
      change unescapeSpm (utf8 character.toString ++ spelt characters) = _
      split
      · next h =>
        rw [h, utf8_spaceMark, unescapeSpm_space, unescapeSpm_spelt characters]
        rfl
      · next h =>
        rw [(charBytes character).unescapeSpm (fun hb => h (utf8_toString_eq_spmSpace hb)),
          unescapeSpm_spelt characters]

/-- The characters of a text in normal form. -/
def normalCharacters (text : String) (addSpacePrefix : Bool) : List Char :=
  (if addSpacePrefix ∧ text ≠ "" then [spaceMark] else []) ++
    text.toList.map fun character => if character = ' ' then spaceMark else character

/-- A normalized text is the spelling of its normal characters. -/
theorem normalizeSpm_eq (text : String) (addSpacePrefix : Bool) :
    normalizeSpm text addSpacePrefix = spelt (normalCharacters text addSpacePrefix) := by
  have hescape : ∀ character : Char, escapeSpm character =
      utf8 (if character = ' ' then spaceMark else character).toString := by
    intro character
    rw [escapeSpm]
    split
    · rw [utf8_spaceMark]
    · rfl
  rw [normalizeSpm, normalCharacters, spelt, List.flatMap_append, List.flatMap_map]
  congr 1
  · split
    · rw [List.flatMap_singleton, utf8_spaceMark]
    · rfl
  · exact List.flatMap_congr fun character _ => hescape character

/-- Escaping is undone by reading back. -/
theorem readBack_space {character : Char} (h : character ≠ spaceMark) :
    readBack (if character = ' ' then spaceMark else character) = utf8 character.toString := by
  split
  · next heq =>
    subst heq
    rw [readBack, if_pos rfl]
    decide +kernel
  · rw [readBack, if_neg h]

/-- **A text in normal form is read back**, behind the prefix. -/
theorem readBack_normalCharacters {text : String} (htext : spaceMark ∉ text.toList)
    (addSpacePrefix : Bool) :
    (normalCharacters text addSpacePrefix).flatMap readBack =
      (if addSpacePrefix ∧ text ≠ "" then [0x20] else []) ++ utf8 text := by
  rw [normalCharacters, List.flatMap_append, List.flatMap_map]
  congr 1
  · split
    · rw [List.flatMap_singleton, readBack, if_pos rfl]
    · rfl
  · conv_rhs => rw [← String.ofList_toList (s := text), utf8_ofList]
    refine List.flatMap_congr fun character hcharacter => readBack_space fun heq => ?_
    exact htext (heq ▸ hcharacter)

theorem spelt_cons (character : Char) (characters : List Char) :
    spelt (character :: characters) = utf8 character.toString ++ spelt characters := rfl

/-- Characters are spelt one after the other. -/
theorem spelt_append (left right : List Char) : spelt (left ++ right) = spelt left ++ spelt right :=
  List.flatMap_append

/-- The stretch between what is before and what is after. -/
theorem slice_middle (before text after : Bytes) :
    slice (before ++ (text ++ after)) before.length (before.length + text.length) = text := by
  rw [slice, ← List.append_assoc, ← List.length_append, List.take_left, List.drop_left]

/-- The symbols of a spelling are the characters, cut. -/
theorem map_slice_splitFrom (index : ℕ) : ∀ (characters : List Char) (before : Bytes),
    (splitFrom before.length index (spelt characters)).map (fun symbol =>
      slice (before ++ spelt characters) symbol.start (symbol.start + symbol.len)) =
    characters.map fun character => utf8 character.toString := by
  intro characters
  induction characters generalizing index with
  | nil =>
    intro before
    rw [spelt, List.flatMap_nil, splitFrom]
    rfl
  | cons character characters ih =>
    intro before
    obtain ⟨first, rest, hcons, hlen⟩ := (charBytes character).exists_cons
    have hmin : min (utf8CharLen first) ((rest ++ spelt characters).length + 1) =
        (utf8 character.toString).length := by
      rw [hlen, hcons, List.length_append, List.length_cons]
      omega
    have hdrop : (first :: (rest ++ spelt characters)).drop (utf8 character.toString).length =
        spelt characters := by
      rw [hcons, ← List.cons_append, List.drop_left]
    have hrest := ih (index + 1) (before ++ utf8 character.toString)
    rw [List.length_append, List.append_assoc] at hrest
    rw [List.map_cons, spelt_cons]
    conv_lhs => arg 2; rw [hcons, List.cons_append, splitFrom]
    rw [hmin, hdrop, List.map_cons, hrest, slice_middle]

/-- **The first symbols are the characters.** -/
theorem characters_spelt (characters : List Char) :
    LlamaSpmTokenizer.characters (spelt characters) =
      characters.map fun character => utf8 character.toString :=
  map_slice_splitFrom 0 characters []

namespace LlamaSpmTokenizer

/-! ## A tokenizer that was built -/

/-- No token comes twice. -/
def Distinct (tokens : List Bytes) (n : ℕ) : Prop :=
  ∀ (i j : ℕ) (token : Bytes), i < n → j < n → tokens[i]? = some token → tokens[j]? = some token →
    i = j

/-- A vocabulary that is let through repeats no token. -/
theorem distinct_of_validateVocabulary {tokens : List Bytes}
    (h : validateVocabulary tokens = .ok ()) : Distinct tokens tokens.length := by
  simp only [validateVocabulary, bind_eq_ok, exists_unit] at h
  obtain ⟨-, seen, hfold, -⟩ := h
  have hseen := foldlM_zipIdx
    (I := fun n (seen : BTreeMap Bytes UInt32) => Distinct tokens n ∧
      ∀ (i : ℕ) (token : Bytes), i < n → tokens[i]? = some token → token ∈ seen)
    (fun n token seen seen' htoken hI hsee => ?_) ⟨?_, ?_⟩ hfold
  · rw [Nat.zero_add] at hseen
    exact hseen.1
  · rw [Nat.zero_add] at hI hsee ⊢
    simp only [seeToken, bind_eq_ok, exists_unit] at hsee
    obtain ⟨id, -, -, hfresh⟩ := hsee
    split at hfresh
    · cases hfresh
    · next hnone =>
      obtain rfl := Except.ok.inj hfresh
      have hnot : token ∉ seen := fun hmem => by
        rw [Std.ExtTreeMap.getElem?_eq_some_getElem hmem] at hnone
        cases hnone
      refine ⟨fun i j token' hi hj hti htj => ?_, fun i token' hi hti => ?_⟩
      · rcases Nat.lt_succ_iff_lt_or_eq.1 hi with hi | rfl <;>
          rcases Nat.lt_succ_iff_lt_or_eq.1 hj with hj | rfl
        · exact hI.1 i j token' hi hj hti htj
        · obtain rfl := Option.some.inj (htoken.symm.trans htj)
          exact absurd (hI.2 i _ hi hti) hnot
        · obtain rfl := Option.some.inj (htoken.symm.trans hti)
          exact absurd (hI.2 j _ hj htj) hnot
        · rfl
      · rw [Std.ExtTreeMap.mem_insert]
        rcases Nat.lt_succ_iff_lt_or_eq.1 hi with hi | rfl
        · exact .inr (hI.2 i token' hi hti)
        · obtain rfl := Option.some.inj (htoken.symm.trans hti)
          exact .inl Std.ReflCmp.compare_self
  · exact fun _ _ _ hi => absurd hi (Nat.not_lt_zero _)
  · exact fun _ _ hi => absurd hi (Nat.not_lt_zero _)

/-- **What `new` establishes.** -/
structure Built (t : LlamaSpmTokenizer) : Prop where
  token : ∀ (text : Bytes) (id : UInt32), t.tokenToId[text]? = some id →
    t.tokens[id.toNat]? = some text
  known : ∀ (i : ℕ) (text : Bytes), t.tokens[i]? = some text →
    ∃ id : UInt32, t.tokenToId[text]? = some id ∧ id.toNat = i
  byte : ∀ (byte : UInt8) (id : UInt32), t.byteTokens.getD byte.toNat none = some id →
    t.tokenTypes.getD id.toNat 0 = tokenTypeByte ∧
      ∃ text, t.tokens[id.toNat]? = some text ∧ parseBytePiece text = some byte
  special : ∀ id : UInt32, t.bosToken = some id ∨ t.eosToken = some id → id.toNat < t.tokens.length

/-- The first `n` tokens are entered. -/
structure Entered (tokens : List Bytes) (tokenTypes : List Int32) (n : ℕ)
    (maps : BTreeMap Bytes UInt32 × List (Option UInt32)) : Prop where
  token : ∀ (text : Bytes) (id : UInt32), maps.1[text]? = some id → tokens[id.toNat]? = some text
  known : ∀ (i : ℕ) (text : Bytes), i < n → tokens[i]? = some text → text ∈ maps.1
  byte : ∀ (byte : UInt8) (id : UInt32), maps.2.getD byte.toNat none = some id →
    tokenTypes.getD id.toNat 0 = tokenTypeByte ∧
      ∃ text, tokens[id.toNat]? = some text ∧ parseBytePiece text = some byte

/-- One more token. -/
theorem Entered.insert {tokens : List Bytes} {scoreBits : List UInt32} {tokenTypes : List Int32}
    {n : ℕ} {maps maps' : BTreeMap Bytes UInt32 × List (Option UInt32)} {token : Bytes}
    (h : Entered tokens tokenTypes n maps) (htoken : tokens[n]? = some token)
    (hinsert : insertToken scoreBits tokenTypes maps (token, n) = .ok maps') :
    Entered tokens tokenTypes (n + 1) maps' := by
  simp only [insertToken, bind_eq_ok, exists_unit, pure_eq_ok] at hinsert
  obtain ⟨id, hid, -, -, rfl⟩ := hinsert
  have hn : id.toNat = n := lenU32_eq_ok.1 hid
  refine ⟨fun text id' hlookup => ?_, fun i text hi hti => ?_, fun byte id' hlookup => ?_⟩
  · rcases SortedMap.getElem?_insert_eq_some.1 hlookup with ⟨rfl, rfl⟩ | ⟨-, hlookup⟩
    · rw [hn, htoken]
    · exact h.token text id' hlookup
  · rw [Std.ExtTreeMap.mem_insert]
    rcases Nat.lt_succ_iff_lt_or_eq.1 hi with hi | rfl
    · exact .inr (h.known i text hi hti)
    · obtain rfl := Option.some.inj (htoken.symm.trans hti)
      exact .inl Std.ReflCmp.compare_self
  · dsimp only at hlookup
    split at hlookup
    · next byte' hbyte =>
      split at hbyte
      · next htype =>
        rw [List.getD_eq_getElem?_getD, List.getElem?_set] at hlookup
        split at hlookup
        · next heq =>
          split at hlookup
          · cases hlookup
            rw [hn]
            exact ⟨htype, token, htoken, by rw [hbyte, UInt8.toNat_inj.1 heq]⟩
          · cases hlookup
        · exact h.byte byte id' (by rw [List.getD_eq_getElem?_getD]; exact hlookup)
      · cases hbyte
    · exact h.byte byte id' hlookup

/-- **A tokenizer that `new` accepts** has all that encoding and decoding rest on. -/
theorem built_of_new {tokens : List Bytes} {scoreBits : List UInt32} {tokenTypes : List Int32}
    {config : LlamaSpmConfig} {t : LlamaSpmTokenizer}
    (h : new tokens scoreBits tokenTypes config = .ok t) : Built t := by
  simp only [new, bind_eq_ok, exists_unit, pure_eq_ok, Prod.exists] at h
  obtain ⟨hvocabulary, hspecials, -, -, tokenToId, byteTokens, hfold, rfl⟩ := h
  have hentered := foldlM_zipIdx
    (I := fun n maps => Entered tokens tokenTypes n maps)
    (fun i token maps maps' hi hm hf => hm.insert (by rw [Nat.zero_add, hi]) hf)
    ⟨by simp, fun _ _ hi => absurd hi (Nat.not_lt_zero _), fun byte id hlookup => by
      rw [List.getD_eq_getElem?_getD, List.getElem?_replicate] at hlookup
      split at hlookup <;> cases hlookup⟩ hfold
  rw [Nat.zero_add] at hentered
  have hdistinct := distinct_of_validateVocabulary hvocabulary
  refine ⟨hentered.token, fun i text hti => ?_, hentered.byte, fun id hid => ?_⟩
  · have hlt : i < tokens.length := (List.getElem?_eq_some_iff.1 hti).1
    obtain ⟨id, hlookup⟩ := Option.isSome_iff_exists.1
      (Std.ExtTreeMap.isSome_getElem?_iff_mem.2 (hentered.known i text hlt hti))
    have hback := hentered.token text id hlookup
    exact ⟨id, hlookup, hdistinct _ _ text (List.getElem?_eq_some_iff.1 hback).1 hlt hback hti⟩
  · rw [validateSpecials, forM_eq_ok] at hspecials
    have hmem : id ∈ [config.bosToken, config.eosToken, config.unknownToken].reduceOption := by
      rw [List.reduceOption_mem_iff]
      rcases hid with hid | hid
      · simp [show config.bosToken = some id from hid]
      · simp [show config.eosToken = some id from hid]
    exact not_le.1 (refuse_eq_ok.1 (hspecials id hmem))

/-! ## Readable vocabularies -/

/-- **What a vocabulary needs for texts to be read back**: spaces have a token, specials are no
normal tokens, a token for the unknown is no character, and a prefix is told by a first token or by
the lack of one. -/
structure Readable (t : LlamaSpmTokenizer) : Prop where
  space : ∃ i : ℕ, t.tokens[i]? = some spmSpace ∧ t.tokenTypes.getD i 0 = tokenTypeNormal
  special : ∀ id : UInt32, t.bosToken = some id ∨ t.eosToken = some id ∨ t.unknownToken = some id →
    t.tokenTypes.getD id.toNat 0 = tokenTypeControl ∨
      t.tokenTypes.getD id.toNat 0 = tokenTypeUnknown
  unknown : ∀ (i : ℕ) (token : Bytes), t.tokens[i]? = some token →
    t.tokenTypes.getD i 0 = tokenTypeUnknown → ∀ character : Char,
      token ≠ utf8 character.toString
  prefixed : t.addSpacePrefix = true →
    (t.addBosToken = true ∧ t.bosToken.isSome) ∨ t.bosToken = none

/-- An id that is not skipped, and the bytes it is read as. -/
structure Plain (t : LlamaSpmTokenizer) (id : UInt32) (piece : Bytes) : Prop where
  read : ∃ token, t.tokens[id.toNat]? = some token ∧
    tokenBytes id token (t.tokenTypes.getD id.toNat 0) = .ok piece
  kept : t.skips true id (t.tokenTypes.getD id.toNat 0) = false
  nonempty : piece ≠ []

theorem readBack_ne_nil (character : Char) : readBack character ≠ [] := by
  rw [readBack]
  split
  · exact List.cons_ne_nil _ _
  · exact utf8_toString_ne_nil character

/-- Characters are read back as something. -/
theorem flatMap_readBack_ne_nil {characters : List Char} (h : characters ≠ []) :
    characters.flatMap readBack ≠ [] := by
  cases characters with
  | nil => exact absurd rfl h
  | cons character characters =>
    rw [List.flatMap_cons]
    exact List.append_ne_nil_of_left_ne_nil (readBack_ne_nil character) _

section Emit

variable {t : LlamaSpmTokenizer} (ht : Built t) (hr : Readable t)

/-- The token that a piece becomes. -/
theorem outputToken_eq_some {text : Bytes} {id : UInt32} : t.outputToken text = some id ↔
    t.tokenToId[text]? = some id ∧ isOutputTokenType (t.tokenTypes.getD id.toNat 0) := by
  simp only [outputToken, Option.bind_eq_bind, Option.bind_eq_some_iff]
  constructor
  · rintro ⟨id', hlookup, hid⟩
    split at hid
    · next htype =>
      cases hid
      exact ⟨hlookup, htype⟩
    · exact nomatch hid
  · rintro ⟨hlookup, htype⟩
    exact ⟨id, hlookup, if_pos htype⟩

/-- What may be merged is emitted as it is. -/
theorem exists_outputToken {text : Bytes} (h : (t.mergeScore text).isSome) :
    ∃ id, t.outputToken text = some id ∧ isMergeTokenType (t.tokenTypes.getD id.toNat 0) := by
  obtain ⟨score, hscore⟩ := Option.isSome_iff_exists.1 h
  simp only [mergeScore, Option.bind_eq_bind, Option.bind_eq_some_iff] at hscore
  obtain ⟨id, hlookup, hid⟩ := hscore
  split at hid
  · next htype =>
    have houtput : isOutputTokenType (t.tokenTypes.getD id.toNat 0) := htype.imp_right Or.inr
    exact ⟨id, outputToken_eq_some.2 ⟨hlookup, houtput⟩, htype⟩
  · exact nomatch hid

include hr in
/-- A token of another type than the specials is not skipped. -/
theorem skips_eq_false {id : UInt32}
    (h : isMergeTokenType (t.tokenTypes.getD id.toNat 0) ∨
      t.tokenTypes.getD id.toNat 0 = tokenTypeByte) :
    t.skips true id (t.tokenTypes.getD id.toNat 0) = false := by
  have hnot : ∀ tokenType : Int32, isMergeTokenType tokenType ∨ tokenType = tokenTypeByte →
      tokenType ≠ tokenTypeControl ∧ tokenType ≠ tokenTypeUnknown ∧
        tokenType ≠ tokenTypeUnused := by
    rintro _ ((rfl | rfl) | rfl) <;> decide
  obtain ⟨hcontrol, hunknown, hunused⟩ := hnot _ h
  have hspecial : ¬ (t.bosToken = some id ∨ t.eosToken = some id ∨ t.unknownToken = some id) :=
    fun hid => (hr.special id hid).elim hcontrol hunknown
  rw [skips, Bool.true_and, decide_eq_false_iff_not]
  rintro (hid | hid | hid | hid | hid)
  · exact hspecial (.inl hid)
  · exact hspecial (.inr (.inl hid))
  · exact hspecial (.inr (.inr hid))
  · exact hcontrol hid
  · exact hunused hid

include ht hr

/-- A text that is emitted as one token is read as its characters. -/
theorem plain_token {characters : List Char} {id : UInt32} (hne : characters ≠ [])
    (h : t.tokenToId[spelt characters]? = some id)
    (htype : isMergeTokenType (t.tokenTypes.getD id.toNat 0)) :
    Plain t id (characters.flatMap readBack) where
  read := by
    have hbyte : t.tokenTypes.getD id.toNat 0 ≠ tokenTypeByte := by
      rcases htype with htype | htype <;> rw [htype] <;> decide
    refine ⟨_, ht.token _ id h, ?_⟩
    rw [tokenBytes, if_neg hbyte, unescapeSpm_spelt]
    rfl
  kept := skips_eq_false hr (.inl htype)
  nonempty := flatMap_readBack_ne_nil hne

/-- A byte that is emitted is read as itself. -/
theorem plain_byte {byte : UInt8} {id : UInt32} (h : t.byteToken byte = .ok id) :
    Plain t id [byte] where
  read := by
    obtain ⟨htype, text, htoken, hparse⟩ := ht.byte byte id (okOr_eq_ok.1 h)
    refine ⟨text, htoken, ?_⟩
    rw [tokenBytes, if_pos htype, bind_eq_ok]
    exact ⟨byte, okOr_eq_ok.2 hparse, rfl⟩
  kept := skips_eq_false hr (.inr (ht.byte byte id (okOr_eq_ok.1 h)).1)
  nonempty := List.cons_ne_nil _ _

/-- A single character that is emitted as a token is a normal one. -/
theorem isMergeTokenType_of_character {character : Char} {id : UInt32}
    (h : t.outputToken (utf8 character.toString) = some id) :
    isMergeTokenType (t.tokenTypes.getD id.toNat 0) := by
  obtain ⟨hlookup, hnormal | hunknown | huser⟩ := outputToken_eq_some.1 h
  · exact .inl hnormal
  · exact absurd rfl (hr.unknown _ _ (ht.token _ id hlookup) hunknown character)
  · exact .inr huser

/-- `▁` is emitted as a token. -/
theorem exists_outputToken_space : ∃ id, t.outputToken spmSpace = some id := by
  obtain ⟨i, htoken, htype⟩ := hr.space
  obtain ⟨id, hlookup, rfl⟩ := ht.known i spmSpace htoken
  exact ⟨id, outputToken_eq_some.2 ⟨hlookup, .inl htype⟩⟩

/-- **What is emitted for a piece is read as its characters.** -/
theorem exists_plain_piece {reverseMerges : ReverseMerges}
    (hmerged : ∀ text ∈ reverseMerges.entries, (t.mergeScore text).isSome)
    {characters : List Char} (hne : characters ≠ [])
    (hpiece : (∃ character, characters = [character]) ∨ (t.mergeScore (spelt characters)).isSome)
    {ids : List UInt32} (h : t.emitPiece reverseMerges (spelt characters) = .ok ids) :
    ∃ pieces, List.Forall₂ (Plain t) ids pieces ∧
      pieces.flatten = characters.flatMap readBack := by
  rw [emitPiece] at h
  split at h
  · next id hid =>
    obtain rfl := Except.ok.inj h
    have htype : isMergeTokenType (t.tokenTypes.getD id.toNat 0) := by
      rcases hpiece with ⟨character, rfl⟩ | hscore
      · rw [spelt, List.flatMap_singleton] at hid
        exact isMergeTokenType_of_character ht hr hid
      · obtain ⟨id', hid', htype⟩ := exists_outputToken hscore
        obtain rfl := Option.some.inj (hid.symm.trans hid')
        exact htype
    refine ⟨[characters.flatMap readBack], .cons ?_ .nil, List.append_nil _⟩
    exact plain_token ht hr hne (outputToken_eq_some.1 hid).1 htype
  · next hnone =>
    have hscore : ¬ (t.mergeScore (spelt characters)).isSome = true := fun hscore => by
      obtain ⟨id, hid, -⟩ := exists_outputToken hscore
      cases hnone.symm.trans hid
    split at h
    · next left right hentry =>
      have hmem := Std.ExtTreeMap.mem_iff_isSome_getElem?.2 (Option.isSome_of_eq_some hentry)
      exact absurd (hmerged _ hmem) hscore
    · obtain ⟨character, rfl⟩ := hpiece.resolve_right hscore
      have hspace : character ≠ spaceMark := by
        rintro rfl
        obtain ⟨id, hid⟩ := exists_outputToken_space ht hr
        rw [spelt, List.flatMap_singleton, utf8_spaceMark] at hnone
        cases hnone.symm.trans hid
      rw [spelt, List.flatMap_singleton] at h
      have hall := mapM_eq_ok.1 h
      refine ⟨(utf8 character.toString).map fun byte => [byte], ?_, ?_⟩
      · rw [List.forall₂_map_right_iff]
        exact (hall.imp fun _ _ hbyte => plain_byte ht hr hbyte).flip
      · rw [← List.flatMap_def, List.flatMap_singleton', List.flatMap_singleton, readBack,
          if_neg hspace]

/-- The pieces of characters, put together: single ones, and what may be merged. -/
def Cut (t : LlamaSpmTokenizer) (characters : List Char) (pieces : List Bytes) : Prop :=
  ∃ parts : List (List Char), pieces = parts.map spelt ∧ parts.flatten = characters ∧
    ∀ part ∈ parts, part ≠ [] ∧
      ((∃ character, part = [character]) ∨ (t.mergeScore (spelt part)).isSome)

omit ht hr in
/-- **Merging cuts the text between characters**, into characters and tokens. -/
theorem cut_naiveMerges (characters : List Char) :
    Cut t characters (t.naiveMerges (characters.map fun character => utf8 character.toString)) := by
  refine Merging.mergeAll_induct (I := Cut t characters) ?_ _ ?_
  · rintro before left right after k hrank ⟨parts, hparts, rfl, hall⟩
    obtain ⟨pre, rest, rfl, rfl, hpair⟩ := List.map_eq_append_iff.1 hparts.symm
    obtain ⟨l, rest', rfl, rfl, hright⟩ := List.map_eq_cons_iff.1 hpair
    obtain ⟨r, post, rfl, rfl, rfl⟩ := List.map_eq_cons_iff.1 hright
    refine ⟨pre ++ (l ++ r) :: post, by simp [spelt_append], by simp, ?_⟩
    intro part hpart
    rcases List.mem_append.1 hpart with hpart | hpart
    · exact hall part (List.mem_append_left _ hpart)
    · rcases List.mem_cons.1 hpart with rfl | hpart
      · refine ⟨List.append_ne_nil_of_left_ne_nil (hall l (by simp)).1 _, .inr ?_⟩
        rw [spelt_append]
        exact Option.isSome_of_eq_some (Option.map_eq_some_iff.1 hrank).choose_spec.1
      · exact hall part (List.mem_append_right _ (by simp [hpart]))
  · refine ⟨characters.map fun character => [character], ?_, ?_, ?_⟩
    · rw [List.map_map]
      exact List.map_congr_left fun character _ => (List.flatMap_singleton ..).symm
    · rw [← List.flatMap_def, List.flatMap_singleton']
    · intro part hpart
      obtain ⟨character, -, rfl⟩ := List.mem_map.1 hpart
      exact ⟨List.cons_ne_nil _ _, .inl ⟨character, rfl⟩⟩

/-- What is emitted for all pieces is read as their characters. -/
theorem exists_plain_pieces {reverseMerges : ReverseMerges}
    (hmerged : ∀ text ∈ reverseMerges.entries, (t.mergeScore text).isSome) :
    ∀ {parts : List (List Char)} {idss : List (List UInt32)},
      (∀ part ∈ parts, part ≠ [] ∧
        ((∃ character, part = [character]) ∨ (t.mergeScore (spelt part)).isSome)) →
      List.Forall₂ (fun text ids => t.emitPiece reverseMerges text = .ok ids)
        (parts.map spelt) idss →
      ∃ pieces, List.Forall₂ (Plain t) idss.flatten pieces ∧
        pieces.flatten = parts.flatten.flatMap readBack
  | [], _, _, .nil => ⟨[], .nil, rfl⟩
  | part :: parts, ids :: idss, hall, .cons hids hidss => by
      obtain ⟨⟨hne, hpiece⟩, hall⟩ := List.forall_mem_cons.1 hall
      obtain ⟨pieces, hplain, hflat⟩ := exists_plain_piece ht hr hmerged hne hpiece hids
      obtain ⟨rest, hplain', hflat'⟩ := exists_plain_pieces hmerged hall hidss
      refine ⟨pieces ++ rest, List.rel_append hplain hplain', ?_⟩
      rw [List.flatten_append, hflat, hflat', List.flatten_cons, List.flatMap_append]

/-- **What is encoded is read as its characters.** -/
theorem exists_plain {characters : List Char} {ids : List UInt32}
    (h : t.encodeNormalized (spelt characters) = .ok ids) :
    ∃ pieces, List.Forall₂ (Plain t) ids pieces ∧
      pieces.flatten = characters.flatMap readBack := by
  obtain ⟨⟨pieces, reverseMerges⟩, hsegment, h⟩ := bind_eq_ok.1 h
  obtain ⟨idss, hidss, hflat⟩ := bind_eq_ok.1 h
  obtain rfl := Except.ok.inj hflat
  obtain ⟨reverseMerges', hnaive, hmerged⟩ := exists_segment t (spelt characters)
  cases hsegment.symm.trans hnaive
  rw [characters_spelt] at hidss
  obtain ⟨parts, hparts, rfl, hall⟩ := cut_naiveMerges (t := t) characters
  rw [hparts] at hidss
  exact exists_plain_pieces ht hr hmerged hall (mapM_eq_ok.1 hidss)

end Emit

/-! ## Reading ids -/

section Decode

variable {t : LlamaSpmTokenizer}

/-- An id that is not skipped is read, less the space of the prefix. -/
theorem decodeFrom_cons_plain {id : UInt32} {piece : Bytes} (h : Plain t id piece) (strip : Bool)
    {ids : List UInt32} {rest : Bytes} (hrest : t.decodeFrom true false ids = .ok rest) :
    t.decodeFrom true strip (id :: ids) =
      .ok ((if strip ∧ piece.head? = some 0x20 then piece.tail else piece) ++ rest) := by
  obtain ⟨token, htoken, hbytes⟩ := h.read
  rw [decodeFrom, bind_eq_ok]
  refine ⟨token, okOr_eq_ok.2 htoken, ?_⟩
  dsimp only
  rw [h.kept, if_neg Bool.false_ne_true, hbytes, hrest]
  rfl

/-- A special id is skipped, and tells the prefix of what comes after. -/
theorem decodeFrom_cons_skipped {id : UInt32} (hid : id.toNat < t.tokens.length)
    (h : t.bosToken = some id ∨ t.eosToken = some id) (strip : Bool) (ids : List UInt32) :
    t.decodeFrom true strip (id :: ids) =
      t.decodeFrom true (t.addSpacePrefix && t.bosToken = some id) ids := by
  have hskips : t.skips true id (t.tokenTypes.getD id.toNat 0) = true := by
    rw [skips, Bool.true_and, decide_eq_true_eq]
    exact h.imp_right .inl
  rw [decodeFrom, List.getElem?_eq_getElem hid, okOr]
  simp only [pure_bind, hskips, if_true]

/-- Ids that are not skipped are read piece by piece. -/
theorem decodeFrom_plain {tail : List UInt32} (htail : t.decodeFrom true false tail = .ok []) :
    ∀ {ids : List UInt32} {pieces : List Bytes}, List.Forall₂ (Plain t) ids pieces →
      t.decodeFrom true false (ids ++ tail) = .ok pieces.flatten
  | [], _, .nil => htail
  | id :: ids, piece :: pieces, .cons hid hids => by
      rw [List.cons_append, decodeFrom_cons_plain hid false (decodeFrom_plain htail hids)]
      rfl

/-- **The prefix is stripped from the first id.** -/
theorem decodeFrom_strip {tail ids : List UInt32} {pieces : List Bytes} {rest : Bytes}
    (htail : t.decodeFrom true false tail = .ok []) (h : List.Forall₂ (Plain t) ids pieces)
    (hpieces : pieces.flatten = 0x20 :: rest) :
    t.decodeFrom true true (ids ++ tail) = .ok rest := by
  cases h with
  | nil => exact nomatch hpieces
  | @cons id piece ids pieces hid hids =>
    obtain ⟨byte, piece, rfl⟩ := List.exists_cons_of_ne_nil hid.nonempty
    rw [List.flatten_cons, List.cons_append, List.cons.injEq] at hpieces
    obtain ⟨rfl, rfl⟩ := hpieces
    rw [List.cons_append, decodeFrom_cons_plain hid true (decodeFrom_plain htail hids),
      if_pos ⟨rfl, rfl⟩]
    rfl

end Decode

section Text

variable {t : LlamaSpmTokenizer} (ht : Built t) (hr : Readable t) {text : String}
  (htext : spaceMark ∉ text.toList)

include ht

/-- What comes behind a text is skipped. -/
theorem decodeFrom_eos (strip : Bool) :
    t.decodeFrom true strip (if true && t.addEosToken then t.eosToken.toList else []) = .ok [] := by
  split
  · cases heos : t.eosToken with
    | none => rfl
    | some id => exact decodeFrom_cons_skipped (ht.special id (.inr heos)) (.inr heos) strip []
  · rfl

include hr htext

/-- The ids between the specials are read as the text, behind the prefix. -/
theorem exists_plain_body {body : List UInt32}
    (h : t.encodeBody (normalizeSpm text t.addSpacePrefix) = .ok body) :
    ∃ pieces, List.Forall₂ (Plain t) body pieces ∧ pieces.flatten =
      (if t.addSpacePrefix ∧ text ≠ "" then [0x20] else []) ++ utf8 text := by
  rw [← readBack_normalCharacters htext]
  rw [normalizeSpm_eq, encodeBody] at h
  split at h
  · next hnil =>
    obtain rfl := Except.ok.inj h
    refine ⟨[], .nil, ?_⟩
    rw [← unescapeSpm_spelt, hnil, unescapeSpm_nil]
    rfl
  · exact exists_plain ht hr h

/-- **A text is read behind what tells its prefix.** -/
theorem decodeFrom_body {body : List UInt32}
    (h : t.encodeBody (normalizeSpm text t.addSpacePrefix) = .ok body) :
    t.decodeFrom true t.addSpacePrefix
      (body ++ if true && t.addEosToken then t.eosToken.toList else []) = .ok (utf8 text) := by
  obtain ⟨pieces, hplain, hflat⟩ := exists_plain_body ht hr htext h
  have htail := decodeFrom_eos ht
  cases hadd : t.addSpacePrefix with
  | false =>
    rw [hadd, if_neg (fun h => Bool.false_ne_true h.1), List.nil_append] at hflat
    rw [decodeFrom_plain (htail false) hplain, hflat]
  | true =>
    by_cases hempty : text = ""
    · rw [if_neg (fun h => h.2 hempty), List.nil_append, hempty] at hflat
      rw [hempty]
      cases hplain with
      | nil => exact htail true
      | @cons id piece ids pieces hid hids =>
        exact absurd (List.append_eq_nil_iff.1 hflat).1 hid.nonempty
    · rw [if_pos ⟨hadd, hempty⟩] at hflat
      exact decodeFrom_strip (htail false) hplain hflat

end Text

/-- **Every text that is encoded is read back.** -/
theorem decode_encode_text {tokens : List Bytes} {scoreBits : List UInt32} {tokenTypes : List Int32}
    {config : LlamaSpmConfig} {t : LlamaSpmTokenizer}
    (hnew : new tokens scoreBits tokenTypes config = .ok t) (hr : Readable t) {text : String}
    (htext : spaceMark ∉ text.toList) {ids : List UInt32} (h : t.encode text true = .ok ids) :
    t.decode ids true = .ok text := by
  have ht := built_of_new hnew
  obtain ⟨body, hbody, hids⟩ := bind_eq_ok.1 h
  obtain rfl := Except.ok.inj hids
  have hread := decodeFrom_body ht hr htext hbody
  refine bind_eq_ok.2 ⟨utf8 text, ?_, okOr_eq_ok.2 (ofUtf8_utf8 text)⟩
  rw [List.append_assoc]
  cases hbos : t.bosToken with
  | none =>
    have hstrip : (t.addSpacePrefix && decide ((none : Option UInt32) = none)) =
        t.addSpacePrefix := Bool.and_true _
    have hlist : (if true && t.addBosToken then (none : Option UInt32).toList else []) = [] :=
      ite_self _
    rw [hstrip, hlist]
    exact hread
  | some bos =>
    cases haddBos : t.addBosToken with
    | false =>
      have hadd : t.addSpacePrefix = false := by
        by_contra hadd
        rcases hr.prefixed (Bool.eq_true_of_not_eq_false hadd) with ⟨h, -⟩ | h
        · exact Bool.false_ne_true (haddBos.symm.trans h)
        · exact nomatch hbos.symm.trans h
      rw [hadd] at hread ⊢
      exact hread
    | true =>
      have hskipped := decodeFrom_cons_skipped (ht.special bos (.inl hbos)) (.inl hbos)
        (t.addSpacePrefix && decide (none = some bos))
        (body ++ if true && t.addEosToken then t.eosToken.toList else [])
      have hstrip : (t.addSpacePrefix && decide (t.bosToken = some bos)) = t.addSpacePrefix := by
        rw [decide_eq_true hbos, Bool.and_true]
      rw [hstrip] at hskipped
      exact hskipped.trans hread

namespace Sample

/-- Tokens for the unknown, the beginning, spaces, two letters, their product, and a byte. -/
def tokens : List Bytes :=
  [utf8 "<unk>", utf8 "<s>", spmSpace, utf8 "a", utf8 "b", utf8 "ab", utf8 "<0x63>"]

def tokenTypes : List Int32 :=
  [tokenTypeUnknown, tokenTypeControl, tokenTypeNormal, tokenTypeNormal, tokenTypeNormal,
    tokenTypeNormal, tokenTypeByte]

def config : LlamaSpmConfig where
  bosToken := some 1
  eosToken := none
  unknownToken := some 0
  addSpacePrefix := true
  addBosToken := true
  addEosToken := false

def tokenizer : LlamaSpmTokenizer :=
  (new tokens (List.replicate 7 0) tokenTypes config).toOption.getD
    ⟨[], [], [], none, none, none, false, false, false, ∅, []⟩

/-- What the kernel computes of them. -/
theorem computed : (new tokens (List.replicate 7 0) tokenTypes config).toOption.isSome ∧
    tokenizer.encode "ab c" true = .ok [1, 2, 5, 2, 6] ∧ spaceMark ∉ "ab c".toList ∧
    (tokenizer.tokens = tokens ∧ tokenizer.tokenTypes = tokenTypes) ∧
    (tokenizer.bosToken = some 1 ∧ tokenizer.eosToken = none ∧ tokenizer.unknownToken = some 0) ∧
    tokenizer.addBosToken = true ∧ utf8 "<unk>" = [60, 117, 110, 107, 62] := by
  decide +kernel

theorem new_eq : new tokens (List.replicate 7 0) tokenTypes config = .ok tokenizer :=
  eq_ok_getD computed.1 _

theorem readable : Readable tokenizer := by
  obtain ⟨-, -, -, ⟨htokens, htypes⟩, ⟨hbos, heos, hunknown⟩, hadd, hbytes⟩ := computed
  constructor
  case space => exact ⟨2, by rw [htokens]; rfl, by rw [htypes]; rfl⟩
  case special =>
    rw [htypes]
    rintro id (h | h | h)
    · obtain rfl := Option.some.inj (hbos.symm.trans h)
      exact .inl rfl
    · rw [heos] at h
      cases h
    · obtain rfl := Option.some.inj (hunknown.symm.trans h)
      exact .inr rfl
  case unknown =>
    rw [htokens, htypes]
    intro i token htoken htype character heq
    have hzero : ∀ i < 7, tokenTypes.getD i 0 = tokenTypeUnknown → i = 0 := by decide
    obtain rfl := hzero i (List.getElem?_eq_some_iff.1 htoken).1 htype
    obtain rfl := Option.some.inj htoken
    obtain ⟨first, rest, hcons, hlen⟩ := (charBytes character).exists_cons
    rw [← heq, hbytes] at hcons hlen
    obtain rfl := (List.cons.inj hcons).1
    exact absurd hlen (by decide)
  case prefixed => exact fun _ => .inl ⟨hadd, by rw [hbos]; rfl⟩

end Sample

theorem decode_encode_spaced : Sample.tokenizer.decode [1, 2, 5, 2, 6] true = .ok "ab c" := by
  obtain ⟨-, hencode, htext, -⟩ := Sample.computed
  exact decode_encode_text Sample.new_eq Sample.readable htext hencode

end LlamaSpmTokenizer

end NTD97
