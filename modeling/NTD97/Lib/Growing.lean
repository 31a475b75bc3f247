import Mathlib
import NTD97.Lib.Split
import NTD97.Lib.Wire

/-!
# Lib/Growing — a text while it is written

    p  is a beginning of  s      ⟹      trim p  is a beginning of  trim s

The parts of a beginning are parts of the whole, but for the last one, which is itself only a
beginning.  So what stands on a line before the whole is there stands on a line of the whole, or it
is a line that still grows.
-/

namespace Text

open Wire

/-! ## Bytes and characters -/

theorem valid_of_append : ∀ {characters : List Char} {b : ByteArray},
    (characters.utf8Encode ++ b).IsValidUTF8 → b.IsValidUTF8
  | [], b, h => by simpa using h
  | c :: characters, b, h => by
      rw [← List.singleton_append (l := characters), List.utf8Encode_append,
        ByteArray.append_assoc, ByteArray.isValidUTF8_utf8Encode_singleton_append_iff] at h
      exact valid_of_append h

/-- **Texts grow with their bytes.** -/
theorem toList_prefix_of_utf8 {p s : String} (h : utf8 p <+: utf8 s) : p.toList <+: s.toList := by
  obtain ⟨rest, hrest⟩ := h
  have hbytes : p.toByteArray ++ ⟨rest.toArray⟩ = s.toByteArray := by
    apply ByteArray.ext
    apply Array.toList_inj.1
    rw [ByteArray.data_append, Array.toList_append]
    exact hrest
  have hvalid : (p.toList.utf8Encode ++ ⟨rest.toArray⟩ : ByteArray).IsValidUTF8 := by
    rw [String.utf8Encode_toList, hbytes]
    exact s.isValidUTF8
  obtain ⟨characters, hcharacters⟩ := valid_of_append hvalid
  refine ⟨characters, ?_⟩
  have hwhole : p ++ String.ofList characters = s := by
    rw [← String.toByteArray_inj, String.toByteArray_append, String.toByteArray_ofList, ← hbytes,
      hcharacters]
  rw [← hwhole, String.toList_append, String.toList_ofList]

/-! ## Trimming -/

section Trimming

variable {α : Type} {p : α → Bool} {l l' : List α}

theorem dropWhile_prefix_dropWhile (h : l <+: l') : l.dropWhile p <+: l'.dropWhile p := by
  obtain ⟨rest, rfl⟩ := h
  rw [List.dropWhile_append]
  split
  · next hempty =>
    rw [List.isEmpty_iff.1 hempty]
    exact List.nil_prefix
  · exact List.prefix_append ..

/-- A beginning that does not end with `p` ends before the last stretch of `p`. -/
theorem rdropWhile_prefix_rdropWhile (h : l <+: l') : l.rdropWhile p <+: l'.rdropWhile p := by
  have hwhole := (List.rdropWhile_prefix p l).trans h
  refine (List.prefix_or_prefix_of_prefix hwhole (List.rdropWhile_prefix p l')).elim id ?_
  rintro ⟨more, hmore⟩
  rcases List.eq_nil_or_concat more with rfl | ⟨more', last, rfl⟩
  · rw [List.append_nil] at hmore
    rw [hmore]
  · -- the last character of the longer one is kept, so it is not `p`; yet it is cut off in the whole
    have hkept : ¬ p last := by
      have hne : l.rdropWhile p ≠ [] := by simp [← hmore]
      have hlast := List.rdropWhile_last_not p l hne
      simpa [← hmore] using hlast
    obtain ⟨rest, hrest⟩ := hwhole
    have hcut : l'.rdropWhile p ++ (more'.concat last ++ rest) =
        l'.rdropWhile p ++ l'.rtakeWhile p := by
      rw [← List.append_assoc, hmore, hrest, List.rdropWhile_append_rtakeWhile]
    have htail := (List.append_cancel_left hcut).symm
    refine absurd (List.mem_rtakeWhile_imp (x := last) (l := l') ?_) hkept
    rw [htail]
    simp

end Trimming

theorem toList_trim (s : String) :
    (trim s).toList = (s.toList.dropWhile isWhitespace).rdropWhile isWhitespace := by
  rw [trim, trimMatches, String.toList_ofList]
  rfl

/-- **A beginning, trimmed, begins the trimmed whole.** -/
theorem trim_prefix_trim {p s : String} (h : p.toList <+: s.toList) :
    (trim p).toList <+: (trim s).toList := by
  rw [toList_trim, toList_trim]
  exact rdropWhile_prefix_rdropWhile (dropWhile_prefix_dropWhile h)

/-! ## Parts -/

/-- **The parts of a beginning** are those of the whole up to one that still grows. -/
theorem splitOn_of_prefix {c : Char} : ∀ {l l' : List Char}, l <+: l' → ∃ before part part' after,
    l.splitOn c = before ++ [part] ∧ l'.splitOn c = before ++ part' :: after ∧ part <+: part' ∧
      (part = part' → after = [] → l = l')
  | [], l', _ => by
      obtain ⟨part', after, hparts⟩ := List.exists_cons_of_ne_nil (List.splitOn_ne_nil c l')
      refine ⟨[], [], part', after, List.splitOn_nil c, hparts, List.nil_prefix, ?_⟩
      rintro rfl rfl
      have hback : [c].intercalate (l'.splitOn c) = l' := List.intercalate_splitOn ..
      rw [← hback, hparts]
      rfl
  | x :: l, [], h => absurd (List.prefix_nil.1 h) (List.cons_ne_nil x l)
  | x :: l, y :: l', h => by
      obtain ⟨rfl, htail⟩ := List.cons_prefix_cons.1 h
      obtain ⟨before, part, part', after, hl, hl', hpart, hsame⟩ := splitOn_of_prefix (c := c) htail
      rw [List.splitOn_cons_eq_if_modifyHead, List.splitOn_cons_eq_if_modifyHead, hl, hl']
      split
      · exact ⟨[] :: before, part, part', after, rfl, rfl, hpart,
          fun h₁ h₂ => congrArg (x :: ·) (hsame h₁ h₂)⟩
      · cases before with
        | nil => exact ⟨[], x :: part, x :: part', after, rfl, rfl,
            List.cons_prefix_cons.2 ⟨rfl, hpart⟩,
            fun h₁ h₂ => congrArg (x :: ·) (hsame (List.cons.inj h₁).2 h₂)⟩
        | cons first before => exact ⟨(x :: first) :: before, part, part', after, rfl, rfl, hpart,
            fun h₁ h₂ => congrArg (x :: ·) (hsame h₁ h₂)⟩

/-- The last part is empty only behind a separator. -/
theorem getLast?_of_splitOn {c : Char} : ∀ {l : List Char} {before : List (List Char)},
    l.splitOn c = before ++ [[]] → l = [] ∨ l.getLast? = some c
  | [], _, _ => .inl rfl
  | x :: l, before, h => by
      rw [List.splitOn_cons_eq_if_modifyHead] at h
      split at h
      · next hx =>
        cases before with
        | nil => exact absurd (List.cons.inj h).2 (List.splitOn_ne_nil c l)
        | cons first before =>
          rcases getLast?_of_splitOn (List.cons.inj h).2 with rfl | hlast
          · exact .inr (congrArg some (eq_of_beq hx))
          · right
            rw [List.getLast?_cons, hlast]
            rfl
      · obtain ⟨part, after, hparts⟩ := List.exists_cons_of_ne_nil (List.splitOn_ne_nil c l)
        rw [hparts, List.modifyHead_cons] at h
        cases before with
        | nil => exact absurd (List.cons.inj h).1 (List.cons_ne_nil x part)
        | cons first before =>
          have hsame : l.splitOn c = (part :: before) ++ [[]] :=
            hparts.trans (congrArg (part :: ·) (List.cons.inj h).2)
          rcases getLast?_of_splitOn hsame with rfl | hlast
          · obtain ⟨rfl, rfl⟩ := List.cons.inj hparts
            exact absurd (List.cons.inj h).2.symm (List.append_ne_nil_of_right_ne_nil _ (by simp))
          · right
            rw [List.getLast?_cons, hlast]
            rfl

theorem suffix_of_splitOn {c : Char} : ∀ {l last : List Char} {before : List (List Char)},
    l.splitOn c = before ++ [last] → last <:+ l
  | [], last, before, h => by
      rw [List.splitOn_nil] at h
      have hlast : last ∈ [[]] := h ▸ List.mem_append_right before (List.mem_singleton_self last)
      rw [List.mem_singleton.1 hlast]
  | x :: l, last, before, h => by
      rw [List.splitOn_cons_eq_if_modifyHead] at h
      split at h
      · cases before with
        | nil => exact absurd (List.cons.inj h).2 (List.splitOn_ne_nil c l)
        | cons first before =>
          exact (suffix_of_splitOn (List.cons.inj h).2).trans (List.suffix_cons x l)
      · obtain ⟨part, after, hparts⟩ := List.exists_cons_of_ne_nil (List.splitOn_ne_nil c l)
        rw [hparts, List.modifyHead_cons] at h
        cases before with
        | nil =>
          have hback : [c].intercalate (l.splitOn c) = l := List.intercalate_splitOn ..
          rw [← (List.cons.inj h).1, ← hback, hparts, (List.cons.inj h).2]
          simp
        | cons first before =>
          have hsame : l.splitOn c = (part :: before) ++ [last] :=
            hparts.trans (congrArg (part :: ·) (List.cons.inj h).2)
          exact (suffix_of_splitOn hsame).trans (List.suffix_cons x l)

theorem prefix_of_splitOn {c : Char} : ∀ {l first : List Char} {after : List (List Char)},
    l.splitOn c = first :: after → first <+: l
  | [], first, after, h => by
      rw [List.splitOn_nil] at h
      rw [← (List.cons.inj h).1]
  | x :: l, first, after, h => by
      rw [List.splitOn_cons_eq_if_modifyHead] at h
      split at h
      · rw [← (List.cons.inj h).1]
        exact List.nil_prefix
      · obtain ⟨part, after', hparts⟩ := List.exists_cons_of_ne_nil (List.splitOn_ne_nil c l)
        rw [hparts, List.modifyHead_cons] at h
        rw [← (List.cons.inj h).1]
        exact List.cons_prefix_cons.2 ⟨rfl, prefix_of_splitOn hparts⟩

/-! ## Lines -/

/-- A line that ends at a line feed. -/
def ended (part : List Char) : List Char :=
  if part.getLast? = some '\r' then part.dropLast else part

theorem prefix_ended {part part' : List Char} (h : part <+: part')
    (hlast : part.getLast? ≠ some '\r') : part <+: ended part' := by
  unfold ended
  split
  · next hreturn =>
    obtain ⟨more, rfl⟩ := h
    rcases List.eq_nil_or_concat more with rfl | ⟨more', c, rfl⟩
    · rw [List.append_nil] at hreturn
      exact absurd hreturn hlast
    · rw [List.concat_eq_append, ← List.append_assoc, List.dropLast_concat]
      exact List.prefix_append ..
  · exact h

theorem lines_of_splitOn {s : String} {before : List (List Char)} {last : List Char}
    (h : s.toList.splitOn '\n' = before ++ [last]) :
    lines s = (before.map ended ++ [last].filter (· ≠ [])).map String.ofList := by
  have hfilter : ([last].filter fun part => decide (part ≠ [])) =
      (some last).toList.filter (· ≠ []) := rfl
  rw [lines, h, List.dropLast_concat, List.getLast?_concat, hfilter]
  rfl

theorem ended_isPrefix (part : List Char) : ended part <+: part := by
  unfold ended
  split
  · exact List.dropLast_prefix part
  · exact List.prefix_rfl

/-- The first line begins the text. -/
theorem first_line_prefix {s line : String} {rest : List String} (h : lines s = line :: rest) :
    line.toList <+: s.toList := by
  obtain ⟨before, last, hparts⟩ : ∃ before last, s.toList.splitOn '\n' = before ++ [last] :=
    ⟨_, _, (List.dropLast_append_getLast (List.splitOn_ne_nil '\n' s.toList)).symm⟩
  rw [lines_of_splitOn hparts] at h
  cases before with
  | nil =>
    rw [List.map_nil, List.nil_append] at h
    obtain ⟨first, hfirst, rfl⟩ := List.mem_map.1 (h ▸ List.mem_cons_self)
    obtain rfl := List.mem_singleton.1 (List.mem_of_mem_filter hfirst)
    rw [String.toList_ofList]
    exact prefix_of_splitOn hparts
  | cons first before =>
    rw [← (List.cons.inj h).1, String.toList_ofList]
    exact (ended_isPrefix first).trans (prefix_of_splitOn hparts)

/-- The lines of a text that does not end with white space. -/
theorem lines_of_trimmed {s : String} (hs : s = trim s) (hne : s ≠ "")
    {before : List (List Char)} {last : List Char}
    (h : s.toList.splitOn '\n' = before ++ [last]) :
    last ≠ [] ∧ lines s = (before.map ended).map String.ofList ++ [String.ofList last] := by
  have hlast : last ≠ [] := by
    rintro rfl
    rcases getLast?_of_splitOn h with hnil | hfeed
    · exact hne (String.toList_inj.1 (hnil.trans String.toList_empty.symm))
    · exact absurd (isWhitespace_getLast hs '\n' hfeed) (by decide)
  refine ⟨hlast, ?_⟩
  rw [lines_of_splitOn h, List.filter_cons_of_pos (by simpa using hlast), List.filter_nil,
    List.map_append, List.map_singleton]

/-- The last line of a text that does not end with white space is not blank. -/
theorem last_line_of_trimmed {s : String} (hs : s = trim s) (hne : s ≠ "") :
    ∃ before last, lines s = before ++ [last] ∧ isBlank last = false := by
  obtain ⟨before, last, hparts⟩ : ∃ before last, s.toList.splitOn '\n' = before ++ [last] :=
    ⟨_, _, (List.dropLast_append_getLast (List.splitOn_ne_nil '\n' s.toList)).symm⟩
  obtain ⟨hlast, hlines⟩ := lines_of_trimmed hs hne hparts
  refine ⟨_, _, hlines, Bool.eq_false_iff.2 fun hblank => ?_⟩
  rw [isBlank_iff, String.toList_ofList] at hblank
  have hend : s.toList.getLast? = some (last.getLast hlast) := by
    obtain ⟨front, hfront⟩ := suffix_of_splitOn hparts
    rw [← hfront, List.getLast?_append_of_ne_nil _ hlast, List.getLast?_eq_some_getLast hlast]
  have hkept := isWhitespace_getLast hs _ hend
  rw [hblank _ (List.getLast_mem hlast)] at hkept
  exact Bool.false_ne_true hkept.symm

/-- **A line of a beginning** is a line before the last one of the whole, or it still grows. -/
theorem mem_lines_of_prefix {p s : String} (h : p.toList <+: s.toList) (hne : p ≠ s)
    (hp : p = trim p) (hs : s = trim s) {line : String} (hline : line ∈ lines p) :
    ∃ line' ∈ lines s, line.toList <+: line'.toList ∧
      (line = line' → line' ∈ (lines s).dropLast) := by
  have hs' : s ≠ "" := by
    rintro rfl
    exact hne (String.toList_inj.1 (List.prefix_nil.1 h))
  obtain ⟨before, part, part', after, hparts, hparts', hpart, hsame⟩ := splitOn_of_prefix h
  obtain ⟨middle, last, hmiddle⟩ : ∃ middle last, part' :: after = middle ++ [last] :=
    ⟨_, _, (List.dropLast_append_getLast (List.cons_ne_nil part' after)).symm⟩
  have hwhole : s.toList.splitOn '\n' = before ++ middle ++ [last] := by
    rw [hparts', hmiddle, List.append_assoc]
  obtain ⟨-, hlines⟩ := lines_of_trimmed hs hs' hwhole
  have hdrop : (lines s).dropLast = ((before ++ middle).map ended).map String.ofList := by
    rw [hlines, List.dropLast_concat]
  rw [lines_of_splitOn hparts, List.map_append, List.mem_append] at hline
  rcases hline with hline | hline
  · -- a line that has its line feed is a line of the whole
    have hmem : line ∈ (lines s).dropLast := by
      rw [hdrop, List.map_append, List.map_append]
      exact List.mem_append_left _ hline
    exact ⟨line, List.mem_of_mem_dropLast hmem, List.prefix_rfl, fun _ => hmem⟩
  · obtain ⟨growing, hgrowing, rfl⟩ := List.mem_map.1 hline
    obtain rfl := List.mem_singleton.1 (List.mem_of_mem_filter hgrowing)
    rw [String.toList_ofList]
    cases after with
    | nil =>
      have hsplit : [] ++ [part'] = middle ++ [last] := hmiddle
      obtain ⟨rfl, hlast⟩ := List.append_inj' hsplit rfl
      obtain rfl := (List.cons.inj hlast).1
      refine ⟨String.ofList part', ?_, by rwa [String.toList_ofList], fun heq => ?_⟩
      · rw [hlines]
        exact List.mem_append_right _ (List.mem_singleton_self _)
      · exact absurd (String.toList_inj.1 (hsame (String.ofList_injective heq) rfl)) hne
    | cons next after =>
      have hmem : part' ∈ middle := by
        cases middle with
        | nil => exact absurd (List.cons.inj hmiddle).2 (List.cons_ne_nil next after)
        | cons first middle =>
          rw [(List.cons.inj hmiddle).1]
          exact List.mem_cons_self
      have hdropped : String.ofList (ended part') ∈ (lines s).dropLast := by
        rw [hdrop]
        exact List.mem_map_of_mem (List.mem_map_of_mem (List.mem_append_right _ hmem))
      refine ⟨_, List.mem_of_mem_dropLast hdropped, ?_, fun _ => hdropped⟩
      rw [String.toList_ofList]
      refine prefix_ended hpart fun hreturn => ?_
      have hlast : p.toList.getLast? = some '\r' := by
        obtain ⟨front, hfront⟩ := suffix_of_splitOn hparts
        rw [← hfront, List.getLast?_append, hreturn]
        rfl
      exact absurd (isWhitespace_getLast hp '\r' hlast) (by decide)

end Text
