import Mathlib
import NTD97.Lib.Split

/-!
# Lib/Cutting — a text cut at a word, or behind one

    left ++ " to " ++ right  ──splitOnceAt──▸  (left, right)
    keyword ++ rest          ──sliceFrom──▸    rest

Cutting takes parts out of a text and nothing else, so each part stands in it.  Fields that hold no
separator come apart again at the separators between them.
-/

namespace Text

/-! ## Parts of a text -/

/-- **The part stands in the text.** -/
def Within (part s : String) : Prop := part.toList <:+: s.toList

namespace Within

variable {part s t : String}

theorem refl (s : String) : Within s s := List.infix_rfl

theorem trans (h : Within part s) (h' : Within s t) : Within part t := List.IsInfix.trans h h'

theorem of_append (before after : List Char) (h : s.toList = before ++ part.toList ++ after) :
    Within part s := ⟨before, after, h.symm⟩

/-- What is trimmed stands in the text. -/
theorem trim (s : String) : Within (Text.trim s) s := by
  rw [Within, Text.trim, trimMatches, String.toList_ofList]
  have hback := List.dropWhile_suffix (l := (s.toList.dropWhile isWhitespace).reverse) isWhitespace
  have hfront := List.reverse_prefix.2 hback
  rw [List.reverse_reverse] at hfront
  exact hfront.isInfix.trans (List.dropWhile_suffix isWhitespace).isInfix

end Within

/-! ## Cutting at a word -/

/-- `str::starts_with`. -/
def startsWith (word s : String) : Bool := word.toList.isPrefixOf s.toList

/-- What stands before and after the first `word`. -/
def cutAt (word : List Char) : List Char → Option (List Char × List Char)
  | [] => if word = [] then some ([], []) else none
  | c :: l =>
    if word.isPrefixOf (c :: l) then some ([], (c :: l).drop word.length)
    else (cutAt word l).map fun parts => (c :: parts.1, parts.2)

/-- `str::split_once` at a word. -/
def splitOnceAt (word s : String) : Option (String × String) :=
  (cutAt word.toList s.toList).map fun parts => (String.ofList parts.1, String.ofList parts.2)

/-- `str::rsplit_once` at a word. -/
def rsplitOnceAt (word s : String) : Option (String × String) :=
  (cutAt word.toList.reverse s.toList.reverse).map fun parts =>
    (String.ofList parts.2.reverse, String.ofList parts.1.reverse)

/-- **What was cut is its two parts** with the word between them. -/
theorem cutAt_eq_some {word : List Char} : ∀ {l left right : List Char},
    cutAt word l = some (left, right) → l = left ++ word ++ right
  | [], left, right, h => by
      rw [cutAt] at h
      split at h
      · next hword =>
        obtain ⟨rfl, rfl⟩ := Prod.mk.inj (Option.some.inj h)
        rw [hword]
        rfl
      · cases h
  | c :: l, left, right, h => by
      rw [cutAt] at h
      split at h
      · next hword =>
        obtain ⟨rfl, rfl⟩ := Prod.mk.inj (Option.some.inj h)
        rw [List.nil_append]
        exact (List.prefix_iff_eq_append.1 (List.isPrefixOf_iff_prefix.1 hword)).symm
      · obtain ⟨⟨left', right'⟩, hcut, heq⟩ := Option.map_eq_some_iff.1 h
        obtain ⟨rfl, rfl⟩ := Prod.mk.inj heq
        rw [cutAt_eq_some hcut]
        rfl

theorem within_of_splitOnceAt {word s left right : String}
    (h : splitOnceAt word s = some (left, right)) : Within left s ∧ Within right s := by
  obtain ⟨⟨l, r⟩, hcut, heq⟩ := Option.map_eq_some_iff.1 h
  obtain ⟨rfl, rfl⟩ := Prod.mk.inj heq
  have hwhole := cutAt_eq_some hcut
  refine ⟨.of_append [] (word.toList ++ r) ?_,
    .of_append (l ++ word.toList) [] ?_⟩
  · rw [String.toList_ofList, List.nil_append, hwhole, List.append_assoc]
  · rw [String.toList_ofList, List.append_nil, hwhole]

theorem within_of_rsplitOnceAt {word s left right : String}
    (h : rsplitOnceAt word s = some (left, right)) : Within left s ∧ Within right s := by
  obtain ⟨⟨l, r⟩, hcut, heq⟩ := Option.map_eq_some_iff.1 h
  obtain ⟨rfl, rfl⟩ := Prod.mk.inj heq
  have hwhole : s.toList = r.reverse ++ word.toList ++ l.reverse := by
    have hreversed := congrArg List.reverse (cutAt_eq_some hcut)
    simpa only [List.reverse_reverse, List.reverse_append, List.append_assoc] using hreversed
  refine ⟨.of_append [] (word.toList ++ l.reverse) ?_,
    .of_append (r.reverse ++ word.toList) [] ?_⟩
  · rw [String.toList_ofList, List.nil_append, hwhole, List.append_assoc]
  · rw [String.toList_ofList, List.append_nil, hwhole]

theorem within_of_splitOnce {c : Char} {s left right : String}
    (h : splitOnce c s = some (left, right)) : Within left s ∧ Within right s := by
  have hwhole := congrArg String.toList (splitOnce_eq_some h)
  rw [String.toList_append, String.toList_append] at hwhole
  refine ⟨.of_append [] ((String.singleton c).toList ++ right.toList) ?_,
    .of_append (left.toList ++ (String.singleton c).toList) [] ?_⟩
  · rw [hwhole, List.nil_append, List.append_assoc]
  · rw [hwhole, List.append_nil]

/-! ## Cutting behind a keyword -/

/-- What stands behind so many bytes, if a character begins there. -/
def dropBytes : ℕ → List Char → Option (List Char)
  | 0, l => some l
  | _ + 1, [] => none
  | n + 1, c :: l => if c.utf8Size ≤ n + 1 then dropBytes (n + 1 - c.utf8Size) l else none

/-- `str::get(offset..)`. -/
def sliceFrom (offset : ℕ) (s : String) : Option String :=
  (dropBytes offset s.toList).map String.ofList

/-- A letter is one byte in either case. -/
theorem utf8Size_of_toLower {c : Char} (h : c.toLower.utf8Size = 1) : c.utf8Size = 1 := by
  unfold Char.toLower at h
  split at h
  · next hupper =>
    have hle : c.val ≤ 127 := by
      have hz : c.val ≤ 'Z'.val := hupper.2
      rw [UInt32.le_iff_toNat_le] at hz ⊢
      exact hz.trans (by decide)
    exact if_pos hle
  · exact h

theorem dropBytes_of_lower : ∀ {word l : List Char}, (∀ c ∈ word, c.utf8Size = 1) →
    word <+: l.map Char.toLower → dropBytes word.length l = some (l.drop word.length)
  | [], l, _, _ => by
      rw [List.length_nil, dropBytes, List.drop_zero]
  | w :: word, [], _, h => absurd (List.prefix_nil.1 h) (List.cons_ne_nil w word)
  | w :: word, c :: l, hsize, h => by
      obtain ⟨hw, hword⟩ := List.forall_mem_cons.1 hsize
      rw [List.map_cons, List.cons_prefix_cons] at h
      obtain ⟨rfl, h⟩ := h
      have hone : c.utf8Size = 1 := utf8Size_of_toLower hw
      rw [List.length_cons, dropBytes, hone, if_pos (Nat.le_add_left 1 _), Nat.add_sub_cancel,
        dropBytes_of_lower hword h, List.drop_succ_cons]

theorem length_le_utf8Len : ∀ l : List Char, l.length ≤ String.utf8Len l
  | [] => Nat.zero_le _
  | c :: l => by
      rw [List.length_cons, String.utf8Len_cons]
      exact Nat.add_le_add (length_le_utf8Len l) c.utf8Size_pos

/-- A text with no more bytes than characters has one for each. -/
theorem utf8Size_of_utf8Len : ∀ {l : List Char}, String.utf8Len l = l.length →
    ∀ c ∈ l, c.utf8Size = 1
  | [], _, c, hc => absurd hc List.not_mem_nil
  | d :: l, h, c, hc => by
      rw [List.length_cons, String.utf8Len_cons] at h
      have hrest := length_le_utf8Len l
      have hfirst := d.utf8Size_pos
      rcases List.mem_cons.1 hc with rfl | hc
      · omega
      · exact utf8Size_of_utf8Len (by omega) c hc

/-- **Behind a keyword begins a character**, whatever the case of the letters before. -/
theorem sliceFrom_of_lower {keyword s : String}
    (hbytes : keyword.utf8ByteSize = keyword.toList.length) (h : keyword.toList <+: (toAsciiLowercase s).toList) :
    ∃ head rest : String, s = head ++ rest ∧ toAsciiLowercase head = keyword ∧
      sliceFrom keyword.utf8ByteSize s = some rest := by
  have hsize : ∀ c ∈ keyword.toList, c.utf8Size = 1 := by
    refine utf8Size_of_utf8Len ?_
    rw [← String.utf8ByteSize_ofList, String.ofList_toList, hbytes]
  rw [toAsciiLowercase, String.toList_map] at h
  refine ⟨String.ofList (s.toList.take keyword.toList.length),
    String.ofList (s.toList.drop keyword.toList.length), ?_, ?_, ?_⟩
  · rw [← String.ofList_append, List.take_append_drop, String.ofList_toList]
  · rw [← String.toList_inj, toAsciiLowercase, String.toList_map, String.toList_ofList,
      List.map_take]
    exact (List.prefix_iff_eq_take.1 h).symm
  · rw [sliceFrom, hbytes, dropBytes_of_lower hsize h]
    rfl

/-! ## Fields -/

/-- A field in front comes off at the first separator. -/
theorem splitOnce_append {c : Char} {left right : String} (h : c ∉ left.toList) :
    splitOnce c (left ++ String.singleton c ++ right) = some (left, right) := by
  have hkeep : ∀ x ∈ left.toList, decide (x ≠ c) = true := by
    intro x hx
    exact decide_eq_true fun heq => h (heq ▸ hx)
  have hstop : ¬ (fun x => decide (x ≠ c)) c = true := by simp
  rw [splitOnce, List.span_eq_takeWhile_dropWhile]
  simp only [String.toList_append, String.toList_singleton, List.append_assoc,
    List.singleton_append]
  rw [List.takeWhile_append_of_pos hkeep, List.dropWhile_append_of_pos hkeep,
    List.takeWhile_cons_of_neg (p := fun x => decide (x ≠ c)) hstop,
    List.dropWhile_cons_of_neg (p := fun x => decide (x ≠ c)) hstop]
  simp only [List.append_nil, String.ofList_toList]

theorem splitOnce_eq_none {c : Char} {s : String} (h : c ∉ s.toList) : splitOnce c s = none := by
  cases hcut : splitOnce c s with
  | none => rfl
  | some parts =>
    obtain ⟨left, right⟩ := parts
    rw [splitOnce_eq_some hcut] at h
    simp at h

theorem splitN_joinWith_cons {c : Char} {field : String} {fields : List String} (n : ℕ)
    (h : c ∉ field.toList) (hne : fields ≠ []) : splitN (n + 2) c (joinWith c (field :: fields)) =
      field :: splitN (n + 1) c (joinWith c fields) := by
  rw [splitN, joinWith_cons hne, splitOnce_append h]

theorem splitN_of_not_mem {c : Char} {s : String} (h : c ∉ s.toList) :
    ∀ n : ℕ, splitN (n + 1) c s = [s]
  | 0 => rfl
  | n + 1 => by rw [splitN, splitOnce_eq_none h]

/-- **Fields without the separator come apart again**, if they are not too many. -/
theorem splitN_joinWith {c : Char} : ∀ {fields : List String} {n : ℕ}, fields ≠ [] →
    fields.length ≤ n → (∀ field ∈ fields, c ∉ field.toList) →
      splitN n c (joinWith c fields) = fields
  | [], _, hne, _, _ => absurd rfl hne
  | [field], n + 1, _, _, h => splitN_of_not_mem (h field List.mem_cons_self) n
  | field :: next :: fields, n + 2, _, hlength, h => by
      obtain ⟨hfield, hrest⟩ := List.forall_mem_cons.1 h
      rw [splitN_joinWith_cons n hfield (List.cons_ne_nil next fields),
        splitN_joinWith (List.cons_ne_nil next fields) (Nat.le_of_succ_le_succ hlength) hrest]

/-- Another character stands in none of the fields, so not between them either. -/
theorem not_mem_joinWith {c d : Char} (hd : d ≠ c) : ∀ {fields : List String},
    (∀ field ∈ fields, d ∉ field.toList) → d ∉ (joinWith c fields).toList
  | [], _ => by
      rw [joinWith, String.toList_empty]
      exact List.not_mem_nil
  | [field], h => h field List.mem_cons_self
  | field :: next :: fields, h => by
      obtain ⟨hfield, hrest⟩ := List.forall_mem_cons.1 h
      rw [joinWith, String.toList_append, String.toList_append, String.toList_singleton,
        List.mem_append, List.mem_append, List.mem_singleton, not_or, not_or]
      exact ⟨⟨hfield, hd⟩, not_mem_joinWith hd hrest⟩

/-- A character of a text is cut away, or stands in one of the parts. -/
theorem mem_or_eq_of_splitOn {c d : Char} : ∀ {l : List Char}, d ∈ l →
    d = c ∨ ∃ part ∈ l.splitOn c, d ∈ part
  | [], h => absurd h List.not_mem_nil
  | e :: l, h => by
      rw [List.splitOn_cons_eq_if_modifyHead]
      rcases List.mem_cons.1 h with rfl | h
      · split
        · next heq => exact .inl (eq_of_beq heq)
        · obtain ⟨first, rest, hparts⟩ := List.exists_cons_of_ne_nil (List.splitOn_ne_nil c l)
          rw [hparts, List.modifyHead_cons]
          exact .inr ⟨_, List.mem_cons_self, List.mem_cons_self⟩
      · rcases mem_or_eq_of_splitOn (c := c) h with heq | ⟨part, hpart, hmem⟩
        · exact .inl heq
        · right
          split
          · exact ⟨part, List.mem_cons_of_mem _ hpart, hmem⟩
          · obtain ⟨first, rest, hparts⟩ := List.exists_cons_of_ne_nil (List.splitOn_ne_nil c l)
            rw [hparts] at hpart
            rw [hparts, List.modifyHead_cons]
            rcases List.mem_cons.1 hpart with rfl | hpart
            · exact ⟨_, List.mem_cons_self, List.mem_cons_of_mem _ hmem⟩
            · exact ⟨part, List.mem_cons_of_mem _ hpart, hmem⟩

/-- The parts of a text between tabs. -/
def tabParts (s : String) : List String := (s.toList.splitOn '\t').map String.ofList

/-- **Fields without tabs come apart again.** -/
theorem tabParts_joinWith : ∀ {fields : List String}, fields ≠ [] →
    (∀ field ∈ fields, '\t' ∉ field.toList) → tabParts (joinWith '\t' fields) = fields
  | [], hne, _ => absurd rfl hne
  | [field], _, h => by
      rw [joinWith, tabParts, List.splitOn_eq_singleton (h field List.mem_cons_self),
        List.map_singleton, String.ofList_toList]
  | field :: next :: fields, _, h => by
      obtain ⟨hfield, hrest⟩ := List.forall_mem_cons.1 h
      have htail := tabParts_joinWith (List.cons_ne_nil next fields) hrest
      rw [tabParts] at htail
      rw [joinWith, tabParts, String.toList_append, String.toList_append, String.toList_singleton,
        List.append_assoc, List.singleton_append,
        List.splitOn_append_cons_self_of_not_mem hfield, List.map_cons, htail, String.ofList_toList]

end Text
