import Mathlib
import NTD97.Gpt2
import NTD97.Lib.Regex

/-!
# Gpt2/Pattern — the words are the matches of the GPT-2 pattern

    's|'t|'re|'ve|'m|'ll|'d| ?L+| ?N+| ?[^\\sLN]+|\\s+(?!\\S)|\\s+

The words are cut by hand; the pattern is read as a backtracking engine reads it.  Each alternative
of the pattern takes what one step of the hand-written code takes: `drop_wordLength` says so of one
word, and the words of the text follow.
-/

namespace NTD97

/-- No character is in two of the classes. -/
structure CharClasses.Disjoint (classes : CharClasses) : Prop where
  letter_number : ∀ c, classes.isLetter c = true → classes.isNumber c = false
  letter_whitespace : ∀ c, classes.isLetter c = true → classes.isWhitespace c = false
  number_whitespace : ∀ c, classes.isNumber c = true → classes.isWhitespace c = false

namespace Gpt2BpeTokenizer

/-! ## The pattern -/

/-- `'s|'t|'re|'ve|'m|'ll|'d` -/
def contractions : Regex Char :=
  .first [.word ['\'', 's'], .word ['\'', 't'], .word ['\'', 'r', 'e'], .word ['\'', 'v', 'e'],
    .word ['\'', 'm'], .word ['\'', 'l', 'l'], .word ['\'', 'd']]

/-- ` ?p+` -/
def spaced (p : Char → Bool) : Regex Char := .seq (.opt (.one (· = ' '))) (.plus (.one p))

section Pattern

variable (classes : CharClasses)

/-- `\\s+(?!\\S)|\\s+` -/
def whitespaces : Regex Char :=
  .alt (.seq (.plus (.one classes.isWhitespace)) (.notAhead (.one fun c => !classes.isWhitespace c)))
    (.plus (.one classes.isWhitespace))

/-- The pattern, its alternatives in order. -/
def pattern : Regex Char :=
  .alt contractions <| .alt (spaced classes.isLetter) <| .alt (spaced classes.isNumber) <|
    .alt (spaced (isOther classes)) <| whitespaces classes

end Pattern

variable {classes : CharClasses} {p : Char → Bool} {characters : List Char}

/-! ## One alternative after the other -/

/-- The contractions by what they are the beginning of. -/
theorem rests_contractions (characters : List Char) : Regex.rests contractions characters =
    [['\'', 's'], ['\'', 't'], ['\'', 'r', 'e'], ['\'', 'v', 'e'], ['\'', 'm'], ['\'', 'l', 'l'],
      ['\'', 'd']].flatMap fun w => if w <+: characters then [characters.drop w.length] else [] := by
  simp only [contractions, Regex.first, Regex.rests, Regex.rests_word, List.flatMap_cons,
    List.flatMap_nil, List.append_nil]

/-- A contraction begins with an apostrophe. -/
theorem contraction_of_ne {c : Char} (hc : c ≠ '\'') (rest : List Char) :
    contraction (c :: rest) = none := by
  unfold contraction
  split
  · next heq => exact absurd (List.cons.inj heq).1 hc
  · rfl

/-- The first alternatives agree with the hand-written contractions. -/
theorem head?_contractions (characters : List Char) :
    (Regex.rests contractions characters).head? = (contraction characters).map characters.drop := by
  rw [rests_contractions]
  cases characters with
  | nil => rfl
  | cons c characters =>
    by_cases hc : c = '\''
    · subst hc
      rcases characters with _ | ⟨d, rest⟩
      · rfl
      · by_cases hd : d ∈ ['s', 't', 'm', 'd']
        · have hcases : d = 's' ∨ d = 't' ∨ d = 'm' ∨ d = 'd' := by simpa using hd
          rcases hcases with rfl | rfl | rfl | rfl <;>
            simp [contraction, List.cons_prefix_cons]
        · obtain ⟨hs, ht, hm, hdd⟩ : ¬ 's' = d ∧ ¬ 't' = d ∧ ¬ 'm' = d ∧ ¬ 'd' = d := by
            simpa [eq_comm] using hd
          rcases rest with _ | ⟨e, rest⟩
          · simp [contraction, List.cons_prefix_cons, hd, hs, ht, hm, hdd]
          · by_cases hde : (d, e) ∈ [('r', 'e'), ('v', 'e'), ('l', 'l')]
            · have hcases : (d = 'r' ∧ e = 'e') ∨ (d = 'v' ∧ e = 'e') ∨ (d = 'l' ∧ e = 'l') := by
                simpa using hde
              rcases hcases with ⟨rfl, rfl⟩ | ⟨rfl, rfl⟩ | ⟨rfl, rfl⟩ <;>
                simp [contraction, List.cons_prefix_cons]
            · obtain ⟨hre, hve, hll⟩ : ¬ ('r' = d ∧ 'e' = e) ∧ ¬ ('v' = d ∧ 'e' = e) ∧
                  ¬ ('l' = d ∧ 'l' = e) := by simpa [eq_comm] using hde
              simp [contraction, List.cons_prefix_cons, hd, hde, hs, ht, hm, hdd, hre, hve, hll]
    · have hc' : ¬ '\'' = c := fun h => hc h.symm
      rw [contraction_of_ne hc]
      simp [List.cons_prefix_cons, hc']

/-- After the space, if there is one. -/
theorem classRun_space (rest : List Char) : classRun p (' ' :: rest) =
    if rest.head?.any p then some (1 + (rest.takeWhile p).length) else none := rfl

/-- A run that does not begin with a space. -/
theorem classRun_of_ne {c : Char} (h : c ≠ ' ') (rest : List Char) : classRun p (c :: rest) =
    if p c then some ((c :: rest).takeWhile p).length else none := by
  have hhead : ¬ (c :: rest).head? = some ' ' := fun heq => h (Option.some.inj heq)
  rw [classRun, if_neg hhead, if_neg hhead, Nat.zero_add]
  rfl

/-- An alternative with an optional space agrees with the hand-written run of a class. -/
theorem head?_spaced (hp : p ' ' = false) (characters : List Char) :
    (Regex.rests (spaced p) characters).head? = (classRun p characters).map characters.drop := by
  cases characters with
  | nil => rfl
  | cons c rest =>
    by_cases hc : c = ' '
    · subst hc
      have hspace : ¬ (' ' :: rest).head?.any p = true := Bool.eq_false_iff.1 hp
      have hways : Regex.rests (spaced p) (' ' :: rest) =
          Regex.rests (.plus (.one p)) rest ++ Regex.rests (.plus (.one p)) (' ' :: rest) := by
        simp [spaced, Regex.rests]
      rw [hways, List.head?_append, Regex.head?_plus, Regex.head?_plus, if_neg hspace,
        Option.or_none, classRun_space]
      split
      · rw [Option.map_some, Nat.add_comm, List.drop_succ_cons]
      · rfl
    · have hways : Regex.rests (spaced p) (c :: rest) =
          Regex.rests (.plus (.one p)) (c :: rest) := by
        simp [spaced, Regex.rests, hc]
      rw [hways, Regex.head?_plus, classRun_of_ne hc]
      change (if p c = true then _ else _) = _
      split <;> rfl

/-- The last two alternatives agree with the hand-written run of white space. -/
theorem head?_whitespaces {c : Char} (hc : classes.isWhitespace c = true) (rest : List Char) :
    (Regex.rests (whitespaces classes) (c :: rest)).head? =
      some ((c :: rest).drop (whitespaceRun classes (c :: rest))) := by
  have hahead : (Regex.rests (.seq (.plus (.one classes.isWhitespace))
      (.notAhead (.one fun c => !classes.isWhitespace c))) (c :: rest)).head? =
      if rest.dropWhile classes.isWhitespace = [] then some []
      else if rest.head?.any classes.isWhitespace then
        some (rest.drop ((rest.takeWhile classes.isWhitespace).length - 1)) else none := by
    rw [Regex.rests, Regex.rests_plus_cons, if_pos hc]
    exact Regex.head?_runs_notAhead (fun _ => rfl) rest
  have hhead : (c :: rest).head?.any classes.isWhitespace = true := hc
  have hlength : (rest.takeWhile classes.isWhitespace).length +
      (rest.dropWhile classes.isWhitespace).length = rest.length := by
    rw [← List.length_append, List.takeWhile_append_dropWhile]
  rw [whitespaces, Regex.head?_alt, hahead, Regex.head?_plus, if_pos hhead, whitespaceRun,
    List.takeWhile_cons_of_pos hc, List.length_cons, List.length_cons]
  generalize hn : (rest.takeWhile classes.isWhitespace).length = n at hlength ⊢
  by_cases hend : rest.dropWhile classes.isWhitespace = []
  · -- white space to the end of the text
    rw [hend, List.length_nil, Nat.add_zero] at hlength
    rw [if_pos hend, Option.some_or, if_neg (by omega), if_pos (by omega), List.drop_succ_cons,
      hlength, List.drop_length]
  · have hpos : 0 < (rest.dropWhile classes.isWhitespace).length := List.length_pos_of_ne_nil hend
    rw [if_neg hend]
    by_cases hnext : rest.head?.any classes.isWhitespace = true
    · -- the last of several goes to the next word
      have hn1 : 0 < n := hn ▸ length_takeWhile_pos hnext
      obtain ⟨m, rfl⟩ : ∃ m, n = m + 1 := ⟨n - 1, by omega⟩
      rw [if_pos hnext, Option.some_or, if_pos (by omega), Nat.add_sub_cancel, Nat.add_sub_cancel,
        List.drop_succ_cons]
    · have hn0 : n = 0 := by
        rw [← hn]
        cases rest with
        | nil => rfl
        | cons d rest =>
          have hd : ¬ classes.isWhitespace d = true := hnext
          rw [List.takeWhile_cons_of_neg hd, List.length_nil]
      rw [if_neg hnext, Option.none_or, hn0, if_neg (by omega), if_pos (by omega)]

/-! ## The words -/

/-- A character that no class run takes is white space. -/
theorem isWhitespace_of_none (hspace : classes.isWhitespace ' ' = true) {c : Char}
    {rest : List Char} (hletter : classRun classes.isLetter (c :: rest) = none)
    (hnumber : classRun classes.isNumber (c :: rest) = none)
    (hother : classRun (isOther classes) (c :: rest) = none) : classes.isWhitespace c = true := by
  by_cases hc : c = ' '
  · exact hc ▸ hspace
  · have hnot : ∀ p : Char → Bool, classRun p (c :: rest) = none → p c = false := by
      intro p hnone
      rw [classRun_of_ne hc] at hnone
      by_contra hp
      rw [if_pos (Bool.not_eq_false _ ▸ hp)] at hnone
      exact nomatch hnone
    have hboth := hnot _ hother
    rw [isOther, hnot _ hletter, hnot _ hnumber] at hboth
    simpa using hboth

/-- **The pattern takes the first word.** -/
theorem head?_pattern (h : classes.Disjoint) (hspace : classes.isWhitespace ' ' = true)
    {characters : List Char} (hne : characters ≠ []) :
    (Regex.rests (pattern classes) characters).head? =
      some (characters.drop (wordLength classes characters)) := by
  have hletter : classes.isLetter ' ' = false :=
    Bool.eq_false_iff.2 fun hl => Bool.eq_false_iff.1 (h.letter_whitespace ' ' hl) hspace
  have hnumber : classes.isNumber ' ' = false :=
    Bool.eq_false_iff.2 fun hn => Bool.eq_false_iff.1 (h.number_whitespace ' ' hn) hspace
  have hother : isOther classes ' ' = false := by
    rw [isOther, hspace]
    rfl
  rw [pattern, Regex.head?_alt, Regex.head?_alt, Regex.head?_alt, Regex.head?_alt,
    head?_contractions, head?_spaced hletter, head?_spaced hnumber, head?_spaced hother, wordLength]
  -- the first step that takes something is the first alternative that matches
  cases contraction characters with
  | some n => rfl
  | none =>
    cases hl : classRun classes.isLetter characters with
    | some n => rfl
    | none =>
      cases hn : classRun classes.isNumber characters with
      | some n => rfl
      | none =>
        cases ho : classRun (isOther classes) characters with
        | some n => rfl
        | none =>
          obtain ⟨c, rest, rfl⟩ := List.exists_cons_of_ne_nil hne
          exact head?_whitespaces (isWhitespace_of_none hspace hl hn ho) rest

/-- What stands before a rest. -/
theorem take_length_sub_drop {α : Type} (l : List α) (n : ℕ) :
    l.take (l.length - (l.drop n).length) = l.take n := by
  rw [List.length_drop]
  rcases le_total n l.length with hle | hge
  · have hsub : l.length - (l.length - n) = n := by omega
    rw [hsub]
  · rw [List.take_of_length_le hge, List.take_of_length_le (by omega)]

/-- The words are the matches. -/
theorem words_eq_findAll (h : classes.Disjoint) (hspace : classes.isWhitespace ' ' = true)
    (characters : List Char) : words classes characters = (pattern classes).findAll characters := by
  rw [words, Regex.findAll.eq_def]
  split
  · next hnil =>
    subst hnil
    rfl
  · next hne =>
    have hpos := wordLength_pos classes characters
    have hlen := List.length_pos_of_ne_nil hne
    have hshorter :
        (characters.drop (wordLength classes characters)).length < characters.length := by
      rw [List.length_drop]
      omega
    rw [head?_pattern h hspace hne]
    dsimp only
    rw [if_pos hshorter, take_length_sub_drop, words_eq_findAll h hspace]
termination_by characters.length

/-- **The words of a text are the leftmost matches of the GPT-2 pattern.** -/
theorem gpt2Pretokenize_eq_findAll (h : classes.Disjoint)
    (hspace : classes.isWhitespace ' ' = true) (text : String) :
    gpt2Pretokenize classes text =
      ((pattern classes).findAll text.toList).map String.ofList := by
  rw [gpt2Pretokenize, words_eq_findAll h hspace]

/-! ## A sample text -/

/-- One letter and one number. -/
def sampleCategory (c : Char) : GeneralCategory :=
  if c = 'a' then .lowercaseLetter else if c = '1' then .decimalNumber else .other

theorem isLetter_sample {c : Char} (h : (CharClasses.unicode sampleCategory).isLetter c = true) :
    c = 'a' := by
  by_contra hc
  by_cases h1 : c = '1' <;> simp [CharClasses.unicode, sampleCategory, hc, h1] at h

theorem isNumber_sample {c : Char} (h : (CharClasses.unicode sampleCategory).isNumber c = true) :
    c = '1' := by
  by_contra hc
  by_cases ha : c = 'a' <;> simp [CharClasses.unicode, sampleCategory, hc, ha] at h

theorem disjoint_sample : (CharClasses.unicode sampleCategory).Disjoint where
  letter_number _ h := isLetter_sample h ▸ rfl
  letter_whitespace _ h := isLetter_sample h ▸ rfl
  number_whitespace _ h := isNumber_sample h ▸ rfl

theorem gpt2Pretokenize_eq_findAll_sample :
    gpt2Pretokenize (.unicode sampleCategory) "a'll  a1 '" =
      ((pattern (.unicode sampleCategory)).findAll "a'll  a1 '".toList).map String.ofList :=
  gpt2Pretokenize_eq_findAll disjoint_sample rfl "a'll  a1 '"

end Gpt2BpeTokenizer

end NTD97
