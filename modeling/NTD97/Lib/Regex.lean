import Mathlib

/-!
# Lib/Regex — patterns as a backtracking engine reads them

    rests r l  :  what is left after each way of matching, the preferred way first

Alternatives are tried in order, `opt` and `star` take before they leave, and what follows a part
decides among its ways: `seq` goes back to the next one.  `findAll` is the sequence of leftmost
matches.
-/

/-- Patterns over letters, with a lookahead that must fail. -/
inductive Regex (α : Type) where
  | empty
  | one (p : α → Bool)
  | seq (r s : Regex α)
  | alt (r s : Regex α)
  | opt (r : Regex α)
  | star (r : Regex α)
  | notAhead (r : Regex α)

namespace Regex

variable {α : Type}

/-- Behind a run stands what is left when the run is dropped. -/
theorem drop_length_takeWhile (p : α → Bool) : ∀ l : List α,
    l.drop (l.takeWhile p).length = l.dropWhile p
  | [] => rfl
  | a :: l => by
      by_cases ha : p a = true
      · rw [List.takeWhile_cons_of_pos ha, List.dropWhile_cons_of_pos ha, List.length_cons,
          List.drop_succ_cons, drop_length_takeWhile p l]
      · rw [List.takeWhile_cons_of_neg ha, List.dropWhile_cons_of_neg ha]
        rfl

/-- At least once. -/
def plus (r : Regex α) : Regex α := .seq r (.star r)

/-- Exactly these. -/
def word [DecidableEq α] : List α → Regex α
  | [] => .empty
  | a :: l => .seq (.one (· = a)) (word l)

/-- The first alternative that matches. -/
def first : List (Regex α) → Regex α
  | [] => .one fun _ => false
  | [r] => r
  | r :: rs => .alt r (first rs)

/-- As often as possible, every time at least one element. -/
def starRests (next : List α → List (List α)) : ℕ → List α → List (List α)
  | 0, l => [l]
  | n + 1, l => ((next l).filter (·.length < l.length)).flatMap (starRests next n) ++ [l]

/-- **The ways to match**: what each leaves, in the order they are tried. -/
def rests : Regex α → List α → List (List α)
  | .empty, l => [l]
  | .one _, [] => []
  | .one p, a :: l => if p a then [l] else []
  | .seq r s, l => (rests r l).flatMap (rests s)
  | .alt r s, l => rests r l ++ rests s l
  | .opt r, l => rests r l ++ [l]
  | .star r, l => starRests (rests r) l.length l
  | .notAhead r, l => if (rests r l).isEmpty then [l] else []

attribute [simp] rests

/-- **The leftmost matches**, one after the other; where nothing matches, an element is passed. -/
def findAll (r : Regex α) (l : List α) : List (List α) :=
  match (rests r l).head? with
  | some rest =>
    if rest.length < l.length then l.take (l.length - rest.length) :: findAll r rest
    else
      [] :: match l with
        | [] => []
        | _ :: l => findAll r l
  | none =>
    match l with
    | [] => []
    | _ :: l => findAll r l
termination_by l.length

/-! ## The ways of the parts -/

/-- The first alternative is preferred. -/
theorem head?_alt (r s : Regex α) (l : List α) :
    (rests (.alt r s) l).head? = (rests r l).head?.or (rests s l).head? := by
  rw [rests, List.head?_append]

/-- A word leaves what is after it. -/
theorem rests_word [DecidableEq α] : ∀ w l : List α,
    rests (word w) l = if w <+: l then [l.drop w.length] else []
  | [], l => by
      rw [if_pos (List.nil_prefix), word, rests]
      rfl
  | a :: w, [] => by
      rw [if_neg (by simp), word, rests, rests]
      rfl
  | a :: w, b :: l => by
      rw [word, rests, rests]
      by_cases hab : b = a
      · subst hab
        simp [rests_word w l, List.cons_prefix_cons]
      · have hba : ¬ a = b := fun h => hab h.symm
        simp [hab, hba, List.cons_prefix_cons]

section Runs

variable (p : α → Bool)

/-- What the runs of a class leave, the longest first. -/
def runs : List α → List (List α)
  | [] => [[]]
  | a :: l => if p a then runs l ++ [a :: l] else [a :: l]

variable {p}

/-- A starred letter class leaves what its runs leave, the longest first. -/
theorem starRests_one : ∀ {n : ℕ} {l : List α}, l.length ≤ n →
    starRests (rests (.one p)) n l = runs p l
  | 0, [], _ => rfl
  | n + 1, [], _ => rfl
  | n + 1, a :: l, h => by
      rw [starRests, rests, runs]
      split
      · have hlt : l.length < (a :: l).length := Nat.lt_succ_self _
        simp [starRests_one (Nat.le_of_succ_le_succ h)]
      · rfl

/-- A starred letter class, with all the fuel it needs. -/
theorem rests_star_one (l : List α) : rests (.star (.one p)) l = runs p l := by
  rw [rests, starRests_one le_rfl]

/-- The longest run is preferred. -/
theorem head?_runs : ∀ l : List α, (runs p l).head? = some (l.dropWhile p)
  | [] => rfl
  | a :: l => by
      rw [runs]
      split
      · next h => rw [List.head?_append, head?_runs l, List.dropWhile_cons_of_pos h, Option.some_or]
      · next h => rw [List.dropWhile_cons_of_neg h, List.head?_cons]

/-- One letter of a class, and then as many as there are. -/
theorem rests_plus_cons (a : α) (l : List α) :
    rests (plus (.one p)) (a :: l) = if p a then runs p l else [] := by
  rw [plus, rests, rests]
  split
  · rw [List.flatMap_singleton, rests_star_one]
  · rfl

/-- A class as often as possible, at least once. -/
theorem head?_plus (l : List α) : (rests (plus (.one p)) l).head? =
    if l.head?.any p then some (l.drop (l.takeWhile p).length) else none := by
  cases l with
  | nil => rfl
  | cons a l =>
    rw [rests_plus_cons]
    by_cases ha : p a = true
    · have hhead : (a :: l).head?.any p = true := ha
      rw [if_pos ha, if_pos hhead, head?_runs, drop_length_takeWhile, List.dropWhile_cons_of_pos ha]
    · have hhead : ¬ (a :: l).head?.any p = true := ha
      rw [if_neg ha, if_neg hhead]
      rfl

/-- A lookahead takes nothing. -/
theorem rests_notAhead_cons {q : α → Bool} (a : α) (l : List α) :
    rests (.notAhead (.one q)) (a :: l) = if q a then [] else [a :: l] := by
  rw [rests, rests]
  by_cases h : q a = true
  · rw [if_pos h, if_pos h]
    rfl
  · rw [if_neg h, if_neg h]
    rfl

/-- **A run that must not be followed by the rest of its kind** gives back its last element, unless
it goes to the end. -/
theorem head?_runs_notAhead {q : α → Bool} (hq : ∀ a, q a = !p a) : ∀ l : List α,
    ((runs p l).flatMap (rests (.notAhead (.one q)))).head? =
      if l.dropWhile p = [] then some []
      else if l.head?.any p then some (l.drop ((l.takeWhile p).length - 1)) else none
  | [] => rfl
  | a :: l => by
      have ih := head?_runs_notAhead hq l
      rw [runs]
      by_cases ha : p a = true
      · have hqa : ¬ q a = true := by
          rw [hq, ha]
          exact Bool.false_ne_true
        have hhead : (a :: l).head?.any p = true := ha
        rw [if_pos ha, List.flatMap_append, List.head?_append, ih, List.flatMap_singleton,
          rests_notAhead_cons, if_neg hqa, List.head?_cons, List.dropWhile_cons_of_pos ha,
          if_pos hhead, List.takeWhile_cons_of_pos ha, List.length_cons, Nat.add_sub_cancel]
        by_cases hend : l.dropWhile p = []
        · rw [if_pos hend, if_pos hend, Option.some_or]
        · rw [if_neg hend, if_neg hend]
          cases l with
          | nil => exact absurd rfl hend
          | cons b l =>
            by_cases hb : p b = true
            · have hnext : (b :: l).head?.any p = true := hb
              rw [if_pos hnext, Option.some_or, List.takeWhile_cons_of_pos hb]
              rfl
            · have hnext : ¬ (b :: l).head?.any p = true := hb
              rw [if_neg hnext, Option.none_or, List.takeWhile_cons_of_neg hb]
              rfl
      · have hqa : q a = true := by
          rw [hq, Bool.eq_false_iff.2 ha]
          rfl
        have hhead : ¬ (a :: l).head?.any p = true := ha
        rw [if_neg ha, List.flatMap_singleton, rests_notAhead_cons, if_pos hqa,
          List.dropWhile_cons_of_neg ha, if_neg (List.cons_ne_nil a l), if_neg hhead]
        rfl

end Runs

end Regex
