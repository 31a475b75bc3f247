import Mathlib
import NTD97.Spm.Lossless

/-!
# Spm/Stream — ids read one at a time

    decodeAfter p [a, b, c]    against    decodeAfter p [a], decodeAfter a [b], decodeAfter b [c]

A stream of ids is shown as it comes: every id is decoded on its own, behind the one before it.  The
space of the prefix is no trouble, since all it depends on is the id before.  Characters are: a piece
must be a text by itself, and an id that stands for one byte of a longer character is none.
-/

namespace NTD97

open Guard Wire

/-! ## Texts among the bytes -/

theorem utf8_ofList_eq_spelt (characters : List Char) :
    utf8 (String.ofList characters) = spelt characters := utf8_ofList characters

/-- **Bytes are a text if they spell characters.** -/
theorem isSome_ofUtf8_iff {b : Bytes} : (ofUtf8 b).isSome ↔ ∃ characters, spelt characters = b := by
  rw [Option.isSome_iff_exists]
  constructor
  · rintro ⟨text, h⟩
    refine ⟨text.toList, ?_⟩
    rw [← utf8_ofList_eq_spelt, String.ofList_toList]
    exact ofUtf8_eq_some.1 h
  · rintro ⟨characters, rfl⟩
    exact ⟨String.ofList characters, ofUtf8_eq_some.2 (utf8_ofList_eq_spelt characters)⟩

/-- Only a space begins with the byte of a space, and no character goes on with it. -/
theorem CharBytes.head_tail {b : Bytes} (h : CharBytes b) : ∃ first rest, b = first :: rest ∧
    (first = 0x20 → rest = []) ∧ ∀ byte ∈ rest, byte ≠ 0x20 := by
  have hnat : ∀ n < 256, n ≠ 0x20 → UInt8.ofNat n ≠ 0x20 := by
    intro n hn hne heq
    have htoNat : (UInt8.ofNat n).toNat = 0x20 := congrArg UInt8.toNat heq
    rw [UInt8.toNat_ofNat_of_lt' hn] at htoNat
    exact hne htoNat
  have htail : ∀ v : ℕ, UInt8.ofNat (v % 0x40 + 0x80) ≠ 0x20 := fun v =>
    hnat _ (by omega) (by omega)
  cases h with
  | one v hv => exact ⟨_, [], rfl, fun _ => rfl, fun byte h => absurd h List.not_mem_nil⟩
  | two v w =>
    refine ⟨_, _, rfl, fun h => absurd h (hnat _ (by omega) (by omega)), fun byte h => ?_⟩
    rw [List.mem_singleton.1 h]
    exact htail w
  | three v w x =>
    refine ⟨_, _, rfl, fun h => absurd h (hnat _ (by omega) (by omega)), fun byte h => ?_⟩
    rcases List.mem_pair.1 h with rfl | rfl
    · exact htail w
    · exact htail x
  | four v w x y =>
    refine ⟨_, _, rfl, fun h => absurd h (hnat _ (by omega) (by omega)), fun byte h => ?_⟩
    rcases List.mem_cons.1 h with rfl | h
    · exact htail w
    · rcases List.mem_pair.1 h with rfl | rfl
      · exact htail x
      · exact htail y

theorem spelt_space (characters : List Char) :
    spelt (' ' :: characters) = 0x20 :: spelt characters := by
  have hspace : utf8 ' '.toString = [0x20] := by decide +kernel
  rw [spelt_cons, hspace]
  rfl

/-- What is spelt behind a space is spelt by itself. -/
theorem spelt_eq_space_cons {characters : List Char} {rest : Bytes}
    (h : spelt characters = 0x20 :: rest) : ∃ characters', spelt characters' = rest := by
  cases characters with
  | nil => cases h
  | cons character characters =>
    obtain ⟨first, tail, hbytes, hspace, -⟩ := (charBytes character).head_tail
    rw [spelt_cons, hbytes, List.cons_append] at h
    obtain ⟨hfirst, hrest⟩ := List.cons.inj h
    rw [hspace hfirst, List.nil_append] at hrest
    exact ⟨characters, hrest⟩

/-- A space in front makes no difference. -/
theorem isSome_ofUtf8_space (rest : Bytes) :
    (ofUtf8 (0x20 :: rest)).isSome = (ofUtf8 rest).isSome := by
  rw [Bool.eq_iff_iff, isSome_ofUtf8_iff, isSome_ofUtf8_iff]
  constructor
  · rintro ⟨characters, h⟩
    exact spelt_eq_space_cons h
  · rintro ⟨characters, h⟩
    exact ⟨' ' :: characters, by rw [spelt_space, h]⟩

/-- A byte alone is a text if it is one of ASCII. -/
theorem isSome_ofUtf8_singleton (byte : UInt8) : (ofUtf8 [byte]).isSome ↔ byte < 0x80 := by
  have hall : ∀ n < 256, (ofUtf8 [UInt8.ofNat n]).isSome = decide (UInt8.ofNat n < 0x80) := by
    decide +kernel
  have h := hall byte.toNat byte.toNat_lt
  rw [UInt8.ofNat_toNat] at h
  rw [h, decide_eq_true_eq]

/-! ## Texts with their spaces escaped -/

open LlamaSpmTokenizer

/-- Bytes that are no spaces are read as they are. -/
theorem unescapeSpm_eq_append : ∀ {tail token rest : Bytes}, (∀ byte ∈ tail, byte ≠ 0x20) →
    unescapeSpm token = tail ++ rest → ∃ token', token = tail ++ token' ∧ unescapeSpm token' = rest
  | [], token, rest, _, h => ⟨token, rfl, h⟩
  | byte :: tail, [], rest, _, h => by
      rw [unescapeSpm_nil] at h
      cases h
  | byte :: tail, first :: token, rest, hne, h => by
      rw [unescapeSpm] at h
      split at h
      · exact absurd (List.cons.inj h).1.symm (hne byte List.mem_cons_self)
      · obtain ⟨rfl, htail⟩ := List.cons.inj h
        obtain ⟨token', rfl, hrest⟩ := unescapeSpm_eq_append
          (fun b hb => hne b (List.mem_cons_of_mem _ hb)) htail
        exact ⟨token', rfl, hrest⟩

/-- **What reads as characters is spelt by some.** -/
theorem exists_spelt_of_unescapeSpm (token : Bytes) : ∀ {characters : List Char},
    unescapeSpm token = spelt characters → ∃ characters', spelt characters' = token := by
  induction hlen : token.length using Nat.strong_induction_on generalizing token with
  | _ n ih =>
    intro characters h
    cases token with
    | nil => exact ⟨[], rfl⟩
    | cons byte rest =>
      cases characters with
      | nil =>
        rw [unescapeSpm] at h
        split at h <;> cases h
      | cons character characters =>
        obtain ⟨first, tail, hbytes, hspace, htail⟩ := (charBytes character).head_tail
        rw [spelt_cons, hbytes, List.cons_append] at h
        by_cases hescape : spmSpace <+: byte :: rest
        · -- an escaped space
          obtain ⟨token', htoken⟩ := hescape
          rw [← htoken, unescapeSpm_space] at h
          obtain ⟨hfirst, hrest⟩ := List.cons.inj h
          rw [hspace hfirst.symm, List.nil_append] at hrest
          have hshort : token'.length < n := by
            rw [← hlen, ← htoken, List.length_append]
            exact Nat.lt_add_of_pos_left (by decide)
          obtain ⟨characters', rfl⟩ := ih _ hshort token' rfl hrest
          exact ⟨spaceMark :: characters', by rw [spelt_cons, utf8_spaceMark, htoken]⟩
        · -- another character
          rw [unescapeSpm, if_neg hescape] at h
          obtain ⟨rfl, hrest⟩ := List.cons.inj h
          obtain ⟨token', rfl, hread⟩ := unescapeSpm_eq_append htail hrest
          have hshort : token'.length < n := by
            rw [← hlen, List.length_cons, List.length_append]
            omega
          obtain ⟨characters', rfl⟩ := ih _ hshort token' rfl hread
          exact ⟨character :: characters', by rw [spelt_cons, hbytes, List.cons_append]⟩

theorem exists_spelt_readBack : ∀ characters : List Char,
    ∃ characters', spelt characters' = characters.flatMap readBack
  | [] => ⟨[], rfl⟩
  | character :: characters => by
      obtain ⟨characters', h⟩ := exists_spelt_readBack characters
      rw [List.flatMap_cons, readBack, ← h]
      split
      · exact ⟨' ' :: characters', spelt_space _⟩
      · exact ⟨character :: characters', spelt_cons _ _⟩

/-- **Escaping spaces makes a text of a text, and of nothing else.** -/
theorem isSome_ofUtf8_unescapeSpm (token : Bytes) :
    (ofUtf8 (unescapeSpm token)).isSome ↔ (ofUtf8 token).isSome := by
  rw [isSome_ofUtf8_iff, isSome_ofUtf8_iff]
  constructor
  · rintro ⟨characters, h⟩
    exact exists_spelt_of_unescapeSpm token h.symm
  · rintro ⟨characters, rfl⟩
    rw [unescapeSpm_spelt]
    exact exists_spelt_readBack characters

namespace LlamaSpmTokenizer

/-! ## One id at a time -/

section Stream

variable (self : LlamaSpmTokenizer)

/-- The pieces of ids, each decoded behind the one before it. -/
def decodeEach (previousToken : UInt32) : List UInt32 → Except TokenizerError String
  | [] => return ""
  | id :: ids => do
    let piece ← self.decodeAfter (some previousToken) [id] true
    let rest ← decodeEach id ids
    return piece ++ rest

attribute [simp] decodeEach

/-- **A token that spells whole characters**: a skipped one, the byte of an ASCII character, or an
entry of the vocabulary that is a text. -/
def SpellsWhole (id : UInt32) : Prop :=
  self.skips true id (self.tokenTypes.getD id.toNat 0) = true ∨
    if self.tokenTypes.getD id.toNat 0 = tokenTypeByte then
      ∃ byte < 0x80, parseBytePiece (self.tokens.getD id.toNat []) = some byte
    else (ofUtf8 (self.tokens.getD id.toNat [])).isSome

/-- Whether the space of the prefix may come behind an id. -/
def stripAfter (id : UInt32) : Bool := self.addSpacePrefix && some id = self.bosToken

variable {self} {id : UInt32} {ids : List UInt32} {strip : Bool}

/-- Behind an id that is not skipped there is no prefix. -/
theorem stripAfter_of_kept {tokenType : Int32} (h : ¬ self.skips true id tokenType = true) :
    self.stripAfter id = false := by
  rw [stripAfter, Bool.and_eq_false_iff, decide_eq_false_iff_not]
  refine .inr fun hbos => h ?_
  rw [skips, Bool.true_and, decide_eq_true_eq]
  exact .inl hbos.symm

/-- What one id is read as. -/
def Yields (self : LlamaSpmTokenizer) (strip : Bool) (id : UInt32) (bytes : Bytes) : Prop :=
  ∃ token, self.tokens[id.toNat]? = some token ∧
    if self.skips true id (self.tokenTypes.getD id.toNat 0) = true then bytes = []
    else ∃ added, tokenBytes id token (self.tokenTypes.getD id.toNat 0) = .ok added ∧
      bytes = if strip ∧ added.head? = some 0x20 then added.tail else added

/-- **The first id is read by itself**, and tells all that matters to the others. -/
theorem decodeFrom_cons_eq_ok {bytes : Bytes} :
    self.decodeFrom true strip (id :: ids) = .ok bytes ↔ ∃ first rest, Yields self strip id first ∧
      self.decodeFrom true (self.stripAfter id) ids = .ok rest ∧ first ++ rest = bytes := by
  have hswap : (self.addSpacePrefix && decide (self.bosToken = some id)) = self.stripAfter id := by
    rw [stripAfter, decide_eq_decide.2 eq_comm]
  rw [decodeFrom, bind_eq_ok]
  simp only [okOr_eq_ok, Yields]
  by_cases hskips : self.skips true id (self.tokenTypes.getD id.toNat 0) = true
  · simp only [hskips, if_true, hswap]
    constructor
    · rintro ⟨token, htoken, hrest⟩
      exact ⟨[], bytes, ⟨token, htoken, rfl⟩, hrest, rfl⟩
    · rintro ⟨_, rest, ⟨token, htoken, rfl⟩, hrest, rfl⟩
      exact ⟨token, htoken, hrest⟩
  · simp only [if_neg hskips, stripAfter_of_kept hskips, bind_eq_ok, pure_eq_ok]
    constructor
    · rintro ⟨token, htoken, added, hadded, rest, hrest, rfl⟩
      exact ⟨_, rest, ⟨token, htoken, added, hadded, rfl⟩, hrest, rfl⟩
    · rintro ⟨_, rest, ⟨token, htoken, added, hadded, rfl⟩, hrest, rfl⟩
      exact ⟨token, htoken, added, hadded, rest, hrest, rfl⟩

theorem decodeFrom_singleton_eq_ok {bytes : Bytes} :
    self.decodeFrom true strip [id] = .ok bytes ↔ Yields self strip id bytes := by
  rw [decodeFrom_cons_eq_ok]
  constructor
  · rintro ⟨first, rest, hfirst, hrest, rfl⟩
    obtain rfl : [] = rest := Except.ok.inj hrest
    rwa [List.append_nil]
  · intro h
    exact ⟨bytes, [], h, rfl, List.append_nil _⟩

/-- **One id is read as a text exactly if it spells whole characters.** -/
theorem isSome_ofUtf8_iff_spellsWhole {bytes : Bytes} (h : Yields self strip id bytes) :
    (ofUtf8 bytes).isSome ↔ self.SpellsWhole id := by
  obtain ⟨token, htoken, hread⟩ := h
  have hgetD : self.tokens.getD id.toNat [] = token := by
    rw [List.getD_eq_getElem?_getD, htoken, Option.getD_some]
  rw [SpellsWhole, hgetD]
  split at hread
  · next hskips =>
    subst hread
    exact iff_of_true (congrArg Option.isSome (ofUtf8_utf8 "")) (.inl hskips)
  · next hskips =>
    obtain ⟨added, hadded, rfl⟩ := hread
    have hstripped : (ofUtf8 (if strip ∧ added.head? = some 0x20 then added.tail else added)).isSome =
        (ofUtf8 added).isSome := by
      split
      · next hspace =>
        obtain ⟨rest, rfl⟩ := List.head?_eq_some_iff.1 hspace.2
        rw [List.tail_cons, isSome_ofUtf8_space]
      · rfl
    rw [hstripped, or_iff_right hskips]
    rw [tokenBytes] at hadded
    split
    · next htype =>
      rw [if_pos htype, bind_eq_ok] at hadded
      obtain ⟨byte, hbyte, hadded⟩ := hadded
      obtain rfl := pure_eq_ok.1 hadded
      rw [isSome_ofUtf8_singleton, okOr_eq_ok.1 hbyte]
      constructor
      · intro hlt
        exact ⟨byte, hlt, rfl⟩
      · rintro ⟨byte', hlt, heq⟩
        rwa [Option.some.inj heq]
    · next htype =>
      rw [if_neg htype] at hadded
      obtain rfl := pure_eq_ok.1 hadded
      exact isSome_ofUtf8_unescapeSpm token

theorem decodeAfter_eq_ok {previous : Option UInt32} {text : String} :
    self.decodeAfter previous ids true = .ok text ↔
      self.decodeFrom true (self.addSpacePrefix && previous = self.bosToken) ids =
        .ok (utf8 text) := by
  rw [decodeAfter, bind_eq_ok]
  constructor
  · rintro ⟨bytes, hbytes, htext⟩
    rw [hbytes, ofUtf8_eq_some.1 (okOr_eq_ok.1 htext)]
  · intro h
    exact ⟨utf8 text, h, okOr_eq_ok.2 (ofUtf8_utf8 text)⟩

/-- Ids that spell whole characters are read piece by piece. -/
theorem exists_decodeEach : ∀ {ids : List UInt32} {previous : UInt32} {bytes : Bytes},
    (∀ id ∈ ids, self.SpellsWhole id) →
      self.decodeFrom true (self.stripAfter previous) ids = .ok bytes →
        ∃ text, self.decodeEach previous ids = .ok text ∧ utf8 text = bytes
  | [], previous, bytes, _, h => ⟨"", rfl, Except.ok.inj h⟩
  | id :: ids, previous, bytes, hwhole, h => by
      obtain ⟨first, rest, hfirst, hrest, rfl⟩ := decodeFrom_cons_eq_ok.1 h
      obtain ⟨text, heach, rfl⟩ :=
        exists_decodeEach (fun id hid => hwhole id (List.mem_cons_of_mem _ hid)) hrest
      have hsome := (isSome_ofUtf8_iff_spellsWhole hfirst).2 (hwhole id List.mem_cons_self)
      obtain ⟨piece, hpiece⟩ := Option.isSome_iff_exists.1 hsome
      obtain rfl := ofUtf8_eq_some.1 hpiece
      have hdecode : self.decodeAfter (some previous) [id] true = .ok piece :=
        decodeAfter_eq_ok.2 (decodeFrom_singleton_eq_ok.2 hfirst)
      refine ⟨piece ++ text, ?_, utf8_append piece text⟩
      rw [decodeEach, hdecode, heach]
      rfl

/-- Ids that are read piece by piece spell whole characters. -/
theorem spellsWhole_of_decodeEach : ∀ {ids : List UInt32} {previous : UInt32} {text : String},
    self.decodeEach previous ids = .ok text → ∀ id ∈ ids, self.SpellsWhole id
  | [], _, _, _, _, hid => absurd hid List.not_mem_nil
  | id :: ids, previous, text, h, id', hid => by
      rw [decodeEach, bind_eq_ok] at h
      obtain ⟨piece, hpiece, h⟩ := h
      obtain ⟨rest, hrest, -⟩ := bind_eq_ok.1 h
      rcases List.mem_cons.1 hid with rfl | hid
      · refine (isSome_ofUtf8_iff_spellsWhole
          (decodeFrom_singleton_eq_ok.1 (decodeAfter_eq_ok.1 hpiece))).1 ?_
        rw [ofUtf8_utf8, Option.isSome_some]
      · exact spellsWhole_of_decodeEach hrest id' hid

/-- One more id is read behind the last one. -/
theorem decodeEach_concat : ∀ {previousToken : UInt32} {ids : List UInt32} {id : UInt32}
    {text piece : String}, self.decodeEach previousToken ids = .ok text →
      self.decodeAfter (previousToken :: ids).getLast? [id] true = .ok piece →
        self.decodeEach previousToken (ids ++ [id]) = .ok (text ++ piece)
  | previousToken, [], id, text, piece, htext, hpiece => by
      obtain rfl : "" = text := Except.ok.inj htext
      have hlast : [previousToken].getLast? = some previousToken := rfl
      rw [hlast] at hpiece
      rw [List.nil_append, decodeEach, hpiece, decodeEach]
      change Except.ok (piece ++ "") = Except.ok ("" ++ piece)
      rw [String.append_empty, String.empty_append]
  | previousToken, next :: ids, id, text, piece, htext, hpiece => by
      rw [decodeEach, bind_eq_ok] at htext
      obtain ⟨first, hfirst, htext⟩ := htext
      obtain ⟨rest, hrest, htext⟩ := bind_eq_ok.1 htext
      obtain rfl := pure_eq_ok.1 htext
      rw [List.getLast?_cons_cons] at hpiece
      have hconcat := decodeEach_concat hrest hpiece
      rw [List.cons_append, decodeEach, hfirst, hconcat]
      change Except.ok (first ++ (rest ++ piece)) = Except.ok (first ++ rest ++ piece)
      rw [String.append_assoc]

/-- **Ids that decode together decode one at a time, to the same text, exactly if each of them spells
whole characters.** -/
theorem decodeEach_eq_ok_iff {tokens : List Bytes} {scoreBits : List UInt32}
    {tokenTypes : List Int32} {config : LlamaSpmConfig} {self : LlamaSpmTokenizer}
    (_hnew : new tokens scoreBits tokenTypes config = .ok self) {previousToken : UInt32}
    {ids : List UInt32} {text : String}
    (h : self.decodeAfter (some previousToken) ids true = .ok text) :
    self.decodeEach previousToken ids = .ok text ↔ ∀ id ∈ ids, self.SpellsWhole id := by
  refine ⟨spellsWhole_of_decodeEach, fun hwhole => ?_⟩
  obtain ⟨text', heach, hbytes⟩ := exists_decodeEach hwhole (decodeAfter_eq_ok.1 h)
  have hsame : some text' = some text := by rw [← ofUtf8_utf8, hbytes, ofUtf8_utf8]
  rw [heach, Option.some.inj hsame]

end Stream

/-! ## A character in two bytes -/

namespace StreamSample

def config : LlamaSpmConfig where
  bosToken := some 0
  eosToken := none
  unknownToken := none
  addSpacePrefix := true
  addBosToken := true
  addEosToken := false

/-- Tokens for the beginning, the two bytes of a character, and a letter behind a space. -/
def tokenizer : LlamaSpmTokenizer :=
  (new [utf8 "<s>", utf8 "<0xC3>", utf8 "<0xA9>", spmSpace ++ utf8 "a"] (List.replicate 4 0)
    [tokenTypeControl, tokenTypeByte, tokenTypeByte, tokenTypeNormal] config).toOption.getD
    ⟨[], [], [], none, none, none, false, false, false, ∅, []⟩

/-- What the kernel computes of them. -/
theorem computed : (new [utf8 "<s>", utf8 "<0xC3>", utf8 "<0xA9>", spmSpace ++ utf8 "a"]
      (List.replicate 4 0) [tokenTypeControl, tokenTypeByte, tokenTypeByte, tokenTypeNormal]
        config).toOption.isSome ∧
    (tokenizer.decodeAfter (some 0) [3, 3] true = .ok "a a" ∧
      tokenizer.tokenTypes.getD 3 0 ≠ tokenTypeByte ∧
        (ofUtf8 (tokenizer.tokens.getD 3 [])).isSome) ∧
    tokenizer.decodeAfter (some 3) [1, 2] true = .ok "é" ∧
      tokenizer.decodeEach 3 [1, 2] = .error .invalidUtf8 := by
  decide +kernel

theorem new_eq : new [utf8 "<s>", utf8 "<0xC3>", utf8 "<0xA9>", spmSpace ++ utf8 "a"]
    (List.replicate 4 0) [tokenTypeControl, tokenTypeByte, tokenTypeByte, tokenTypeNormal] config =
      .ok tokenizer :=
  eq_ok_getD computed.1 _

end StreamSample

open StreamSample

theorem decodeEach_eq_ok_iff_letters : tokenizer.decodeEach 0 [3, 3] = .ok "a a" := by
  obtain ⟨-, ⟨htext, hnobyte, hspells⟩, -⟩ := computed
  refine (decodeEach_eq_ok_iff new_eq htext).2 fun id hid => ?_
  obtain rfl : id = 3 := or_self_iff.1 (List.mem_pair.1 hid)
  exact .inr ((if_neg hnobyte).mpr hspells)

/-- **Two bytes that make a character are two pieces that make none.** -/
theorem not_decodeEach_eq_ok : ¬ ∀ (tokens : List Bytes) (scoreBits : List UInt32)
    (tokenTypes : List Int32) (config : LlamaSpmConfig) (self : LlamaSpmTokenizer),
    new tokens scoreBits tokenTypes config = .ok self →
      ∀ (previousToken : UInt32) (ids : List UInt32) (text : String),
        self.decodeAfter (some previousToken) ids true = .ok text →
          self.decodeEach previousToken ids = .ok text := by
  intro h
  obtain ⟨-, -, htext, herror⟩ := computed
  have hok := h _ _ _ _ _ new_eq 3 [1, 2] "é" htext
  rw [herror] at hok
  cases hok

end LlamaSpmTokenizer

end NTD97
