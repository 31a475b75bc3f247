import Mathlib
import NTD97.Lib.Text

/-!
# Lib/Split — texts cut at a character, and put together again

    left ++ c ++ right  ──splitOnce──▸  (left, right)
    line ++ LF ++ … ++ last  ──lines──▸  [line, …, last]

Cutting forgets nothing but the separators, so what was cut is put together from its parts.
-/

namespace Text

/-! ## Trimming -/

/-- What begins and ends with other characters has no white space to trim. -/
theorem trim_eq_self {s : String} (hfirst : ∀ c ∈ s.toList.head?, isWhitespace c = false)
    (hlast : ∀ c ∈ s.toList.getLast?, isWhitespace c = false) : trim s = s := by
  have hdrop : ∀ l : List Char, (∀ c ∈ l.head?, isWhitespace c = false) →
      l.dropWhile isWhitespace = l := by
    rintro (_ | ⟨c, l⟩) h
    · rfl
    · rw [List.dropWhile_cons_of_neg]
      rw [h c rfl]
      exact Bool.false_ne_true
  rw [← String.toList_inj, trim, trimMatches, String.toList_ofList, hdrop _ hfirst, hdrop,
    List.reverse_reverse]
  rwa [List.head?_reverse]

/-- The last character of a text without white space at its ends. -/
theorem isWhitespace_getLast {s : String} (h : s = trim s) :
    ∀ c ∈ s.toList.getLast?, isWhitespace c = false := by
  intro c hc
  rw [h, trim, trimMatches, String.toList_ofList, List.getLast?_reverse] at hc
  have hne : (s.toList.dropWhile isWhitespace).reverse.dropWhile isWhitespace ≠ [] := by
    rintro hnil
    simp [hnil] at hc
  rw [List.head?_eq_some_head hne, Option.mem_some_iff] at hc
  rw [← hc]
  exact List.head_dropWhile_not isWhitespace hne

/-- A text that ends with white space is not trimmed. -/
theorem ne_trim_of_append {s t : String} (ht : t ≠ "") (h : ∀ c ∈ t.toList, isWhitespace c = true) :
    s ++ t ≠ trim (s ++ t) := by
  intro heq
  have hne : t.toList ≠ [] := fun hnil => ht (String.toList_inj.1 (hnil.trans String.toList_empty.symm))
  have hlast := isWhitespace_getLast heq (t.toList.getLast hne) (by
    rw [String.toList_append, List.getLast?_append_of_ne_nil _ hne, List.getLast?_eq_some_getLast hne]
    rfl)
  rw [h _ (List.getLast_mem hne)] at hlast
  exact Bool.false_ne_true hlast.symm

/-! ## Cutting at a character -/

/-- Texts with a character between them. -/
def joinWith (c : Char) : List String → String
  | [] => ""
  | [s] => s
  | s :: t :: l => s ++ String.singleton c ++ joinWith c (t :: l)

theorem joinWith_cons {c : Char} {s : String} {l : List String} (h : l ≠ []) :
    joinWith c (s :: l) = s ++ String.singleton c ++ joinWith c l := by
  obtain ⟨t, l, rfl⟩ := List.exists_cons_of_ne_nil h
  rfl

/-- Cutting once, and what it was cut from. -/
theorem splitOnce_eq_some {c : Char} {s left right : String}
    (h : splitOnce c s = some (left, right)) : s = left ++ String.singleton c ++ right := by
  rw [splitOnce, List.span_eq_takeWhile_dropWhile] at h
  have hsplit := List.takeWhile_append_dropWhile (p := fun x => decide (x ≠ c)) (l := s.toList)
  rcases hrest : s.toList.dropWhile (fun x => decide (x ≠ c)) with _ | ⟨d, rest⟩
  · rw [hrest] at h
    exact nomatch h
  · rw [hrest] at h hsplit
    obtain ⟨rfl, rfl⟩ := Prod.mk.inj (Option.some.inj h)
    have hd : d = c := by
      have hne : s.toList.dropWhile (fun x => decide (x ≠ c)) ≠ [] := hrest ▸ List.cons_ne_nil _ _
      have hnot := List.head_dropWhile_not (fun x => decide (x ≠ c)) hne
      simp only [hrest, List.head_cons] at hnot
      exact of_not_not (of_decide_eq_false hnot)
    subst hd
    rw [← String.toList_inj, String.toList_append, String.toList_append, String.toList_ofList,
      String.toList_ofList, String.toList_singleton, List.append_assoc]
    exact hsplit.symm

theorem splitN_ne_nil (c : Char) : ∀ (n : ℕ) (s : String), splitN (n + 1) c s ≠ []
  | 0, s => List.cons_ne_nil s []
  | n + 1, s => by
      rw [splitN]
      split <;> exact List.cons_ne_nil _ _

theorem length_splitN_le (c : Char) : ∀ (n : ℕ) (s : String), (splitN n c s).length ≤ n
  | 0, _ => le_rfl
  | 1, _ => le_rfl
  | n + 2, s => by
      rw [splitN]
      split
      · exact Nat.succ_le_succ (Nat.zero_le _)
      · exact Nat.succ_le_succ (length_splitN_le c (n + 1) _)

/-- **What was cut is its parts**, with the separator between them. -/
theorem joinWith_splitN (c : Char) : ∀ (n : ℕ) (s : String), joinWith c (splitN (n + 1) c s) = s
  | 0, s => rfl
  | n + 1, s => by
      rw [splitN]
      split
      · rfl
      · next left right hcut =>
        rw [joinWith_cons (splitN_ne_nil c n right), joinWith_splitN c n right]
        exact (splitOnce_eq_some hcut).symm

/-- Characters with a separator between them, as texts. -/
theorem joinWith_map_ofList (c : Char) : ∀ ls : List (List Char),
    joinWith c (ls.map String.ofList) = String.ofList ([c].intercalate ls)
  | [] => rfl
  | [l] => by
      rw [List.map_singleton, joinWith, List.intercalate_singleton]
  | l :: l' :: ls => by
      have hrest := joinWith_map_ofList c (l' :: ls)
      rw [List.map_cons, List.map_cons, joinWith, ← List.map_cons, hrest,
        List.intercalate_cons_cons, String.singleton_eq_ofList, ← String.ofList_append,
        ← String.ofList_append]

/-- **What was cut everywhere is its parts.** -/
theorem joinWith_splitOn (c : Char) (s : String) :
    joinWith c ((s.toList.splitOn c).map String.ofList) = s := by
  rw [joinWith_map_ofList, List.intercalate_splitOn, String.ofList_toList]

/-! ## Lines -/

theorem not_mem_of_mem_splitOn {c : Char} : ∀ {l part : List Char}, part ∈ l.splitOn c → c ∉ part
  | [], part, h => by
      rw [List.splitOn_nil, List.mem_singleton] at h
      rw [h]
      exact List.not_mem_nil
  | d :: l, part, h => by
      rw [List.splitOn_cons_eq_if_modifyHead] at h
      split at h
      · rcases List.mem_cons.1 h with rfl | h
        · exact List.not_mem_nil
        · exact not_mem_of_mem_splitOn h
      · next hd =>
        obtain ⟨first, rest, hparts⟩ := List.exists_cons_of_ne_nil (List.splitOn_ne_nil c l)
        rw [hparts, List.modifyHead_cons] at h
        rcases List.mem_cons.1 h with rfl | h
        · rw [List.mem_cons, not_or]
          refine ⟨fun hc => hd (by rw [hc]; exact BEq.refl _), ?_⟩
          exact not_mem_of_mem_splitOn (hparts ▸ List.mem_cons_self)
        · exact not_mem_of_mem_splitOn (hparts ▸ List.mem_cons_of_mem _ h)

/-- **A line holds no line feed.** -/
theorem not_mem_of_mem_lines {s line : String} (h : line ∈ lines s) : '\n' ∉ line.toList := by
  rw [lines, List.mem_map] at h
  obtain ⟨part, hpart, rfl⟩ := h
  rw [String.toList_ofList]
  rcases List.mem_append.1 hpart with hended | hrest
  · obtain ⟨whole, hwhole, rfl⟩ := List.mem_map.1 hended
    have hnot := not_mem_of_mem_splitOn (List.mem_of_mem_dropLast hwhole)
    split
    · exact fun hmem => hnot (List.mem_of_mem_dropLast hmem)
    · exact hnot
  · have hlast := List.mem_of_mem_filter hrest
    rw [Option.mem_toList] at hlast
    exact not_mem_of_mem_splitOn (List.mem_of_getLast? hlast)

/-- Lines, each with its line feed. -/
def unlines (ls : List String) : String := String.join (ls.map (· ++ "\n"))

@[simp] theorem unlines_nil : unlines [] = "" := rfl

theorem unlines_cons (line : String) (ls : List String) :
    unlines (line :: ls) = line ++ "\n" ++ unlines ls := by
  rw [unlines, List.map_cons, String.join_cons]
  rfl

theorem unlines_append : ∀ ls ls' : List String, unlines (ls ++ ls') = unlines ls ++ unlines ls'
  | [], ls' => by rw [List.nil_append, unlines_nil, String.empty_append]
  | line :: ls, ls' => by
      rw [List.cons_append, unlines_cons, unlines_cons, unlines_append ls ls']
      simp only [String.append_assoc]

theorem splitOn_unlines {last : String} (hlast : '\n' ∉ last.toList) : ∀ {ls : List String},
    (∀ line ∈ ls, '\n' ∉ line.toList) →
      (unlines ls ++ last).toList.splitOn '\n' = ls.map String.toList ++ [last.toList]
  | [], _ => by
      rw [unlines_nil, String.empty_append]
      exact List.splitOn_eq_singleton hlast
  | line :: ls, h => by
      obtain ⟨hline, hls⟩ := List.forall_mem_cons.1 h
      have hfeed : "\n".toList = ['\n'] := rfl
      rw [unlines_cons, String.append_assoc, String.append_assoc, String.toList_append,
        String.toList_append, hfeed, List.singleton_append,
        List.splitOn_append_cons_self_of_not_mem hline, splitOn_unlines hlast hls]
      rfl

/-- **Lines that are put together** are read back, if no carriage return stands before a line
feed. -/
theorem lines_unlines {ls : List String} {last : String}
    (h : ∀ line ∈ ls, '\n' ∉ line.toList ∧ line.toList.getLast? ≠ some '\r')
    (hlast : '\n' ∉ last.toList) (hne : last.toList ≠ []) :
    lines (unlines ls ++ last) = ls ++ [last] := by
  have hended : (ls.map String.toList).map (fun line =>
      if line.getLast? = some '\r' then line.dropLast else line) = ls.map String.toList := by
    rw [List.map_map]
    refine List.map_congr_left fun line hline => ?_
    exact if_neg (h line hline).2
  have hback : (ls.map String.toList).map String.ofList = ls := by
    rw [List.map_map]
    exact (List.map_congr_left fun line _ => String.ofList_toList).trans (List.map_id ls)
  rw [lines, splitOn_unlines hlast fun line hline => (h line hline).1]
  simp only [List.dropLast_concat, List.getLast?_concat, Option.toList_some, hended]
  rw [List.filter_cons_of_pos (by simpa using hne), List.filter_nil, List.map_append, hback,
    List.map_singleton, String.ofList_toList]

end Text
