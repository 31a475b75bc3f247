import Mathlib
import NTD97.Gpt2.Schedule

/-!
# Gpt2/Lossless — every text is encoded, and read back

    text ══▸ words ══▸ bytes ──byteEncoder──▸ symbols ──▸ ids ──▸ symbols ──byteDecoder──▸ bytes

The words of a text are the text, cut; the symbols of a word spell the word's bytes at every moment
of the merging; and every symbol that arises is a token.  So the ids lead back to the bytes,
whichever way the text was cut and the bytes were merged.
-/

namespace NTD97

open Guard Wire

namespace Gpt2BpeTokenizer

/-! ## The words of a text -/

/-- **The words are the text, cut.** -/
theorem flatten_words (classes : CharClasses) (characters : List Char) :
    (words classes characters).flatten = characters := by
  rw [words]
  split
  · next h => exact h.symm
  · next h =>
    have hpos := wordLength_pos classes characters
    have hlen := List.length_pos_of_ne_nil h
    have hlt : (characters.drop (wordLength classes characters)).length < characters.length := by
      rw [List.length_drop]
      omega
    rw [List.flatten_cons, flatten_words classes (characters.drop _), List.take_append_drop]
termination_by characters.length

/-- The bytes of the words are the bytes of the text. -/
theorem flatMap_utf8_gpt2Pretokenize (classes : CharClasses) (text : String) :
    (gpt2Pretokenize classes text).flatMap utf8 = utf8 text := by
  have hcut : ∀ l : List (List Char),
      (l.map String.ofList).flatMap utf8 = utf8 (String.ofList l.flatten) := by
    intro l
    induction l with
    | nil => rfl
    | cons word l ih =>
      rw [List.map_cons, List.flatMap_cons, ih, List.flatten_cons, String.ofList_append,
        utf8_append]
  rw [gpt2Pretokenize, hcut, flatten_words, String.ofList_toList]

/-! ## Symbols spell bytes -/

/-- The character of a byte. -/
def letter (byte : UInt8) : Char := gpt2ByteEncoder.getD byte.toNat '\x00'

/-- The symbol that spells a piece of a word. -/
def spell (piece : Bytes) : Bytes := utf8 (String.ofList (piece.map letter))

/-- Bytes are spelt one after the other. -/
theorem spell_append (left right : Bytes) : spell (left ++ right) = spell left ++ spell right := by
  rw [spell, List.map_append, String.ofList_append, utf8_append]
  rfl

/-- A byte is spelt by a letter of the alphabet. -/
theorem letter_mem (byte : UInt8) : letter byte ∈ gpt2ByteEncoder := by
  have hlt : byte.toNat < gpt2ByteEncoder.length := length_gpt2ByteEncoder ▸ byte.toNat_lt
  rw [letter, List.getD_eq_getElem _ _ hlt]
  exact List.getElem_mem hlt

/-- Every symbol is a token. -/
def Known (t : Gpt2BpeTokenizer) (symbols : List Bytes) : Prop :=
  ∀ symbol ∈ symbols, symbol ∈ t.tokenToId

/-- **The symbols spell the bytes**, piece by piece, and are tokens. -/
def Spells (t : Gpt2BpeTokenizer) (bytes : Bytes) (symbols : List Bytes) : Prop :=
  Known t symbols ∧ ∃ pieces : List Bytes, symbols = pieces.map spell ∧ pieces.flatten = bytes

section Words

variable {t : Gpt2BpeTokenizer} (ht : Built t)

include ht

/-- The characters of a word spell it. -/
theorem spells_letters (bytes : Bytes) :
    Spells t bytes ((bytes.map letter).map fun character => utf8 character.toString) := by
  refine ⟨fun symbol hsymbol => ?_, bytes.map fun byte => [byte], ?_, ?_⟩
  · obtain ⟨character, hcharacter, rfl⟩ := List.mem_map.1 hsymbol
    obtain ⟨byte, -, rfl⟩ := List.mem_map.1 hcharacter
    exact ht.letter _ (letter_mem byte)
  · rw [List.map_map, List.map_map]
    refine List.map_congr_left fun byte _ => ?_
    change _ = utf8 (String.ofList [letter byte])
    rw [Function.comp_apply, Char.toString, String.singleton_eq_ofList]
  · rw [← List.flatMap_def, List.flatMap_singleton']

/-- **A merge spells the same bytes.** -/
theorem spells_merge {bytes : Bytes} {before after : List Bytes} {left right : Bytes} {k : ℕ}
    (hrank : rankOf t.mergeRanks left right = some k)
    (h : Spells t bytes (before ++ left :: right :: after)) :
    Spells t bytes (before ++ (left ++ right) :: after) := by
  obtain ⟨hknown, pieces, hpieces, hbytes⟩ := h
  obtain ⟨pre, rest, rfl, rfl, hpair⟩ := List.map_eq_append_iff.1 hpieces.symm
  obtain ⟨l, rest', rfl, rfl, hright⟩ := List.map_eq_cons_iff.1 hpair
  obtain ⟨r, post, rfl, rfl, rfl⟩ := List.map_eq_cons_iff.1 hright
  refine ⟨fun symbol hsymbol => ?_, pre ++ (l ++ r) :: post, ?_, ?_⟩
  · rcases List.mem_append.1 hsymbol with hmem | hmem
    · exact hknown symbol (List.mem_append_left _ hmem)
    · rcases List.mem_cons.1 hmem with rfl | hmem
      · exact ht.product _ _ k hrank
      · exact hknown symbol (List.mem_append_right _ (by simp [hmem]))
  · rw [List.map_append, List.map_cons, spell_append]
  · rw [← hbytes]
    simp

/-- **Merging keeps what is spelt**, whichever merges it makes. -/
theorem spells_mergeLoop {bytes : Bytes} {symbols : List Bytes} (h : Spells t bytes symbols) :
    Spells t bytes (mergeLoop t.mergeRanks symbols) := by
  rw [mergeLoop_eq]
  exact Merging.mergeAll_induct (fun _ _ _ _ _ hrank => spells_merge ht hrank) symbols h

/-! ## From symbols to ids, and back -/

/-- A known symbol has an id, which leads back to it. -/
theorem exists_lookUp {symbol : Bytes} (h : symbol ∈ t.tokenToId) :
    ∃ id : UInt32, t.lookUp symbol = .ok id ∧ t.tokens[id.toNat]? = some symbol := by
  obtain ⟨id, hid⟩ := Option.isSome_iff_exists.1 (Std.ExtTreeMap.isSome_getElem?_iff_mem.2 h)
  exact ⟨id, okOr_eq_ok.2 hid, ht.token symbol id hid⟩

/-- The token of a piece is decoded to it. -/
theorem decodeToken_spell {piece : Bytes} {id : UInt32}
    (h : t.tokens[id.toNat]? = some (spell piece)) : t.decodeToken false id = .ok piece := by
  have hchars : (piece.map letter).mapM t.decodeChar = .ok piece := by
    rw [mapM_eq_ok, List.forall₂_map_left_iff, List.forall₂_same]
    intro byte _
    exact okOr_eq_ok.2 (ht.decoder byte)
  rw [decodeToken, Bool.false_and, if_neg Bool.false_ne_true, bind_eq_ok]
  refine ⟨spell piece, okOr_eq_ok.2 h, bind_eq_ok.2 ⟨_, okOr_eq_ok.2 (ofUtf8_utf8 _), ?_⟩⟩
  rw [String.toList_ofList]
  exact hchars

/-- The ids of pieces lead back to their bytes. -/
theorem exists_ids : ∀ {pieces : List Bytes}, Known t (pieces.map spell) →
    ∃ ids, (pieces.map spell).mapM t.lookUp = .ok ids ∧
      ids.mapM (t.decodeToken false) = .ok pieces
  | [], _ => ⟨[], rfl, rfl⟩
  | piece :: pieces, h => by
      obtain ⟨hpiece, hpieces⟩ := List.forall_mem_cons.1 h
      obtain ⟨id, hid, htoken⟩ := exists_lookUp ht hpiece
      obtain ⟨ids, hids, hback⟩ := exists_ids hpieces
      refine ⟨id :: ids, ?_, ?_⟩
      · rw [mapM_eq_ok] at hids ⊢
        exact .cons hid hids
      · rw [mapM_eq_ok] at hback ⊢
        exact .cons (decodeToken_spell ht htoken) hback

/-- **A word is encoded, and its ids lead back to its bytes.** -/
theorem exists_encodeWord (word : String) : ∃ ids pieces,
    t.encodeWord (t.byteEncode word) = .ok ids ∧
      ids.mapM (t.decodeToken false) = .ok pieces ∧ pieces.flatten = utf8 word := by
  obtain ⟨hknown, pieces, hpieces, hbytes⟩ := spells_mergeLoop ht (spells_letters ht (utf8 word))
  rw [hpieces] at hknown
  obtain ⟨ids, hids, hback⟩ := exists_ids ht hknown
  refine ⟨ids, pieces, ?_, hback, hbytes⟩
  rw [byteEncode, ht.encoder, encodeWord, ofUtf8_utf8]
  change (mergeLoop t.mergeRanks
    ((String.ofList ((utf8 word).map letter)).toList.map fun c => utf8 c.toString)).mapM _ = _
  rw [String.toList_ofList, hpieces, hids]

/-- The words of a text, one after the other. -/
theorem exists_encodeWords : ∀ words : List String, ∃ ids pieces,
    (words.mapM fun word => t.encodeWord (t.byteEncode word)) = .ok ids ∧
      ids.flatten.mapM (t.decodeToken false) = .ok pieces ∧ pieces.flatten = words.flatMap utf8
  | [] => ⟨[], [], rfl, rfl, rfl⟩
  | word :: words => by
      obtain ⟨ids, pieces, hids, hback, hbytes⟩ := exists_encodeWord ht word
      obtain ⟨idss, rest, hidss, hrest, hbytess⟩ := exists_encodeWords words
      refine ⟨ids :: idss, pieces ++ rest, ?_, ?_, ?_⟩
      · rw [mapM_eq_ok] at hidss ⊢
        exact .cons hids hidss
      · rw [List.flatten_cons]
        rw [mapM_eq_ok] at hback hrest ⊢
        exact List.rel_append hback hrest
      · rw [List.flatten_append, List.flatMap_cons, hbytes, hbytess]

end Words

/-- **Every text is encoded, and read back.** -/
theorem decode_encode {tokens : List Bytes} {merges : List String} {config : Gpt2BpeConfig}
    {t : Gpt2BpeTokenizer} (hnew : new tokens merges config = .ok t) (classes : CharClasses)
    (text : String) :
    ∃ ids, t.encode classes text false = .ok ids ∧ t.decode ids false = .ok text := by
  obtain ⟨ids, pieces, hids, hback, hbytes⟩ :=
    exists_encodeWords (built_of_new hnew) (gpt2Pretokenize classes text)
  rw [flatMap_utf8_gpt2Pretokenize] at hbytes
  refine ⟨ids.flatten, ?_, ?_⟩
  · rw [encode, bind_eq_ok]
    exact ⟨ids, hids, congrArg Except.ok (List.append_nil _)⟩
  · rw [decode, bind_eq_ok]
    refine ⟨pieces, hback, okOr_eq_ok.2 ?_⟩
    rw [hbytes, ofUtf8_utf8]

theorem decode_encode_sample : ∃ ids,
    Sample.tokenizer.encode (.unicode fun _ => .otherLetter) "abab ab" false = .ok ids ∧
      Sample.tokenizer.decode ids false = .ok "abab ab" :=
  decode_encode Sample.new_eq (.unicode fun _ => .otherLetter) "abab ab"

end Gpt2BpeTokenizer

end NTD97
