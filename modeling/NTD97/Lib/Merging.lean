import Mathlib

/-!
# Lib/Merging — merging neighbours, the best pair first

    a ∙ b ∙ c ∙ d ──b∙c of lowest rank──▸ a ∙ bc ∙ d ──▸ …

Neighbours may have a rank.  `mergeAll` merges the pair of lowest rank, the leftmost of equal ones,
until no pair has one; `mergeRounds` merges in each round all occurrences of the lowest pair, left to
right.  Where a merge only comes after the merges that make its parts, the two end alike
(`mergeAll_eq_mergeRounds`): a round's merges are the next single merges, because what they put
next to each other ranks higher.
-/

namespace Merging

variable {α κ : Type} [LinearOrder κ] (rank : α → α → Option κ) (merge : α → α → α)

/-! ## One merge at a time -/

/-- The better of a pair's rank and the best one further right. -/
def prefer : Option κ → Option (κ × ℕ) → Option (κ × ℕ)
  | some k, some (k', i) => if k' < k then some (k', i + 1) else some (k, 0)
  | some k, none => some (k, 0)
  | none, rest => rest.map fun r => (r.1, r.2 + 1)

/-- The lowest rank of neighbours, and the index of the leftmost pair that has it. -/
def bestPair : List α → Option (κ × ℕ)
  | a :: b :: l => prefer (rank a b) (bestPair (b :: l))
  | _ => none

/-- The element at an index is merged with the one after it. -/
def mergeAt : ℕ → List α → List α
  | 0, a :: b :: l => merge a b :: l
  | i + 1, a :: l => a :: mergeAt i l
  | _, l => l

variable {rank merge}

/-- A merge makes one symbol out of two. -/
theorem length_mergeAt : ∀ {i : ℕ} {l : List α}, i + 1 < l.length →
    (mergeAt merge i l).length + 1 = l.length
  | 0, _ :: _ :: _, _ => rfl
  | _ + 1, _ :: _, h => congrArg (· + 1) (length_mergeAt (Nat.lt_of_succ_lt_succ h))

/-- The merge at a position leaves what is before it and after it. -/
theorem mergeAt_append (merge : α → α → α) (a b : α) (l : List α) : ∀ before : List α,
    mergeAt merge before.length (before ++ a :: b :: l) = before ++ merge a b :: l
  | [] => rfl
  | c :: before => congrArg (c :: ·) (mergeAt_append merge a b l before)

/-- The best pair is a pair of neighbours, and has that rank. -/
theorem bestPair_spec : ∀ {l : List α} {k : κ} {i : ℕ}, bestPair rank l = some (k, i) →
    ∃ before a b after, l = before ++ a :: b :: after ∧ before.length = i ∧ rank a b = some k
  | a :: b :: l, k, i, h => by
      have ih := @bestPair_spec (b :: l)
      rw [bestPair] at h
      cases hrank : rank a b with
      | none =>
        rw [hrank, prefer] at h
        obtain ⟨⟨k', i'⟩, hrest, heq⟩ := Option.map_eq_some_iff.1 h
        cases heq
        obtain ⟨before, a', b', after, hl, hi, hab⟩ := ih hrest
        exact ⟨a :: before, a', b', after, by rw [hl]; rfl, congrArg (· + 1) hi, hab⟩
      | some j =>
        rw [hrank] at h
        cases hrest : bestPair rank (b :: l) with
        | none =>
          rw [hrest, prefer] at h
          cases h
          exact ⟨[], a, b, l, rfl, rfl, hrank⟩
        | some r =>
          obtain ⟨k', i'⟩ := r
          rw [hrest, prefer] at h
          split at h
          · cases h
            obtain ⟨before, a', b', after, hl, hi, hab⟩ := ih hrest
            exact ⟨a :: before, a', b', after, by rw [hl]; rfl, congrArg (· + 1) hi, hab⟩
          · cases h
            exact ⟨[], a, b, l, rfl, rfl, hrank⟩

/-- The best pair stands in the list. -/
theorem lt_length_of_bestPair {l : List α} {k : κ} {i : ℕ} (h : bestPair rank l = some (k, i)) :
    i + 1 < l.length := by
  obtain ⟨before, a, b, after, rfl, rfl, -⟩ := bestPair_spec h
  simp

variable (rank merge)

/-- **Merge the best pair until none has a rank.** -/
def mergeAll (l : List α) : List α :=
  match _h : bestPair rank l with
  | none => l
  | some (_, i) => mergeAll (mergeAt merge i l)
termination_by l.length
decreasing_by
  have hlen : (mergeAt merge i l).length + 1 = l.length :=
    length_mergeAt (lt_length_of_bestPair _h)
  omega

variable {rank merge}

/-- Without a pair, merging is over. -/
theorem mergeAll_of_none {l : List α} (h : bestPair rank l = none) : mergeAll rank merge l = l := by
  rw [mergeAll]
  split
  · rfl
  · next h' => exact nomatch h.symm.trans h'

/-- With a pair, merging goes on behind it. -/
theorem mergeAll_of_some {l : List α} {k : κ} {i : ℕ} (h : bestPair rank l = some (k, i)) :
    mergeAll rank merge l = mergeAll rank merge (mergeAt merge i l) := by
  rw [mergeAll]
  split
  · next h' => exact nomatch h.symm.trans h'
  · next h' =>
    cases h.symm.trans h'
    rfl

/-- **What every merge keeps** holds when no pair has a rank any more. -/
theorem mergeAll_induct {I : List α → Prop} (hstep : ∀ before a b after k, rank a b = some k →
    I (before ++ a :: b :: after) → I (before ++ merge a b :: after)) (l : List α) (hl : I l) :
    I (mergeAll rank merge l) := by
  cases hbest : bestPair rank l with
  | none => rwa [mergeAll_of_none hbest]
  | some r =>
    obtain ⟨before, a, b, after, rfl, hi, hab⟩ := bestPair_spec hbest
    have hlt : (mergeAt merge r.2 (before ++ a :: b :: after)).length <
        (before ++ a :: b :: after).length :=
      Nat.lt_of_succ_le (length_mergeAt (lt_length_of_bestPair hbest)).le
    rw [mergeAll_of_some hbest]
    refine mergeAll_induct hstep _ ?_
    rw [← hi, mergeAt_append]
    exact hstep before a b after _ hab hl
termination_by l.length

/-! ## Where the best pair is -/

/-- No pair of neighbours ranks below `k`. -/
def Floor (rank : α → α → Option κ) (k : κ) : List α → Prop :=
  List.IsChain fun a b => ∀ j, rank a b = some j → k ≤ j

/-- No pair of neighbours ranks `k`. -/
def Free (rank : α → α → Option κ) (k : κ) : List α → Prop :=
  List.IsChain fun a b => rank a b ≠ some k

/-- A pair of the floor goes before what is not below the floor. -/
theorem prefer_now {k : κ} {r : Option (κ × ℕ)} (h : ∀ k' i, r = some (k', i) → k ≤ k') :
    prefer (some k) r = some (k, 0) := by
  cases r with
  | none => rfl
  | some r => exact if_neg (not_lt.2 (h r.1 r.2 rfl))

/-- A pair above the floor leaves the choice to those further right. -/
theorem prefer_later {o : Option κ} {k : κ} {i : ℕ} (hfloor : ∀ j, o = some j → k ≤ j)
    (hfree : o ≠ some k) : prefer o (some (k, i)) = some (k, i + 1) := by
  cases o with
  | none => rfl
  | some j => exact if_pos (lt_of_le_of_ne (hfloor j rfl) fun heq => hfree (by rw [heq]))

/-- The best pair is not below the floor. -/
theorem Floor.le_bestPair {k k' : κ} {i : ℕ} {l : List α} (h : Floor rank k l)
    (hbest : bestPair rank l = some (k', i)) : k ≤ k' := by
  obtain ⟨before, a, b, after, rfl, -, hab⟩ := bestPair_spec hbest
  exact (List.isChain_append_cons_cons.1 h).2.1 k' hab

/-- **The first pair of the lowest rank is the best one.** -/
theorem bestPair_append {k : κ} {a b : α} {l : List α} (hab : rank a b = some k) :
    ∀ {before : List α}, Floor rank k (before ++ a :: b :: l) → Free rank k (before ++ [a]) →
      bestPair rank (before ++ a :: b :: l) = some (k, before.length)
  | [], hfloor, _ => by
      rw [List.nil_append, bestPair, hab]
      exact prefer_now fun _ _ hbest => Floor.le_bestPair (List.isChain_cons_cons.1 hfloor).2 hbest
  | [c], hfloor, hfree => by
      obtain ⟨hle, hrest⟩ := List.isChain_cons_cons.1 hfloor
      obtain ⟨hne, -⟩ := List.isChain_cons_cons.1 hfree
      have hbest : bestPair rank ([] ++ a :: b :: l) = some (k, 0) :=
        bestPair_append hab hrest (List.isChain_singleton a)
      change prefer (rank c a) (bestPair rank ([] ++ a :: b :: l)) = some (k, 1)
      rw [hbest, prefer_later hle hne]
  | c :: d :: before, hfloor, hfree => by
      obtain ⟨hle, hrest⟩ := List.isChain_cons_cons.1 hfloor
      obtain ⟨hne, hfree⟩ := List.isChain_cons_cons.1 hfree
      have hbest : bestPair rank (d :: before ++ a :: b :: l) = some (k, before.length + 1) :=
        bestPair_append hab hrest hfree
      change prefer (rank c d) (bestPair rank (d :: before ++ a :: b :: l)) = _
      rw [hbest, prefer_later hle hne]
      rfl

/-- Nothing is preferred exactly if there is nothing. -/
theorem prefer_eq_none {o : Option κ} {r : Option (κ × ℕ)} :
    prefer o r = none ↔ o = none ∧ r = none := by
  cases o with
  | none => rw [prefer, Option.map_eq_none_iff, eq_self, true_and]
  | some k =>
    have hsome : prefer (some k) r ≠ none := by
      cases r with
      | none => exact Option.some_ne_none _
      | some r =>
        rw [prefer]
        split <;> exact Option.some_ne_none _
    exact ⟨fun h => absurd h hsome, fun h => nomatch h.1⟩

/-- There is no best pair exactly if no neighbours have a rank. -/
theorem bestPair_eq_none : ∀ {l : List α},
    bestPair rank l = none ↔ l.IsChain fun a b => rank a b = none
  | [] => by simp [bestPair]
  | [a] => by simp [bestPair]
  | a :: b :: l => by
      rw [bestPair, prefer_eq_none, List.isChain_cons_cons, bestPair_eq_none]

/-- The preferred rank is below both. -/
theorem le_of_prefer {o : Option κ} {r : Option (κ × ℕ)} {k : κ} {i : ℕ}
    (h : prefer o r = some (k, i)) :
    (∀ j, o = some j → k ≤ j) ∧ ∀ k' i', r = some (k', i') → k ≤ k' := by
  cases o with
  | none =>
    obtain ⟨r', rfl, heq⟩ := Option.map_eq_some_iff.1 h
    cases heq
    exact ⟨fun _ h => (nomatch h), fun k' i' h => by cases h; exact le_rfl⟩
  | some j =>
    cases r with
    | none =>
      cases h
      exact ⟨fun j' h => by cases h; exact le_rfl, fun _ _ h => (nomatch h)⟩
    | some r =>
      rw [prefer] at h
      split at h
      · next hlt =>
        cases h
        exact ⟨fun j' h => by cases h; exact hlt.le, fun k' i' h => by cases h; exact le_rfl⟩
      · next hge =>
        cases h
        exact ⟨fun j' h => by cases h; exact le_rfl, fun k' i' h => by
          cases h
          exact not_lt.1 hge⟩

/-- The best rank is a floor. -/
theorem floor_of_bestPair : ∀ {l : List α} {k : κ} {i : ℕ}, bestPair rank l = some (k, i) →
    Floor rank k l
  | a :: b :: l, k, i, h => by
      obtain ⟨hab, hrest⟩ := le_of_prefer h
      refine List.isChain_cons_cons.2 ⟨hab, ?_⟩
      cases hbest : bestPair rank (b :: l) with
      | none =>
        exact (bestPair_eq_none.1 hbest).imp fun _ _ hnone j hj => nomatch hnone.symm.trans hj
      | some r =>
        exact (floor_of_bestPair hbest).imp fun _ _ hle j hj =>
          (hrest r.1 r.2 hbest).trans (hle j hj)

/-! ## All occurrences in one round -/

variable (rank merge)

/-- All pairs that `p` accepts are merged, left to right. -/
def mergeRound (p : α → α → Bool) : List α → List α
  | a :: b :: l => if p a b then merge a b :: mergeRound p l else a :: mergeRound p (b :: l)
  | l => l

variable {rank merge}

/-- A round adds no symbols. -/
theorem length_mergeRound_le (p : α → α → Bool) :
    ∀ l : List α, (mergeRound merge p l).length ≤ l.length
  | [] => Nat.le_refl 0
  | [_] => Nat.le_refl 1
  | a :: b :: l => by
      rw [mergeRound]
      split
      · exact Nat.succ_le_succ ((length_mergeRound_le p l).trans (Nat.le_succ _))
      · exact Nat.succ_le_succ (length_mergeRound_le p (b :: l))

/-- A round with something to merge shortens the list. -/
theorem length_mergeRound_lt {p : α → α → Bool} {a b : α} {after : List α} (hp : p a b = true) :
    ∀ before : List α, (mergeRound merge p (before ++ a :: b :: after)).length <
      (before ++ a :: b :: after).length
  | [] => by
      rw [List.nil_append, mergeRound, if_pos hp]
      exact Nat.succ_lt_succ (Nat.lt_succ_of_le (length_mergeRound_le p after))
  | [c] => by
      change (mergeRound merge p (c :: a :: b :: after)).length < _
      rw [mergeRound]
      split
      · exact Nat.succ_lt_succ (Nat.lt_succ_of_le (length_mergeRound_le p (b :: after)))
      · exact Nat.succ_lt_succ (length_mergeRound_lt hp [])
  | c :: d :: before => by
      change (mergeRound merge p (c :: d :: (before ++ a :: b :: after))).length < _
      rw [mergeRound]
      split
      · exact Nat.succ_lt_succ (Nat.lt_succ_of_le (length_mergeRound_le p _))
      · exact Nat.succ_lt_succ (length_mergeRound_lt hp (d :: before))

/-- The best pair, with what is before it and after it. -/
theorem drop_of_bestPair {l : List α} {k : κ} {i : ℕ} (h : bestPair rank l = some (k, i)) :
    ∃ before a b after, l = before ++ a :: b :: after ∧ l.drop i = a :: b :: after ∧
      before.length = i ∧ rank a b = some k := by
  obtain ⟨before, a, b, after, rfl, rfl, hab⟩ := bestPair_spec h
  exact ⟨before, a, b, after, rfl, List.drop_left, rfl, hab⟩

variable (rank merge)

/-- **Merge all occurrences of the best pair**, round after round, until no pair has a rank. -/
def mergeRounds [DecidableEq α] (l : List α) : List α :=
  match _h : bestPair rank l with
  | none => l
  | some (_, i) =>
    match _hdrop : l.drop i with
    | a :: b :: _ => mergeRounds (mergeRound merge (fun x y => x = a ∧ y = b) l)
    | _ => l
termination_by l.length
decreasing_by
  obtain ⟨before, a', b', after, hl, hdrop', -, -⟩ := drop_of_bestPair _h
  cases _hdrop.symm.trans hdrop'
  have hpair : (decide (a = a ∧ b = b)) = true := decide_eq_true ⟨rfl, rfl⟩
  conv => rhs; rw [hl]
  rw [hl]
  exact length_mergeRound_lt hpair before

variable {rank merge}

/-- Without a pair, the rounds are over. -/
theorem mergeRounds_of_none [DecidableEq α] {l : List α} (h : bestPair rank l = none) :
    mergeRounds rank merge l = l := by
  rw [mergeRounds]
  split
  · rfl
  · next h' => exact nomatch h.symm.trans h'

/-- With a pair, the rounds go on behind all its occurrences. -/
theorem mergeRounds_of_some [DecidableEq α] {l after : List α} {k : κ} {i : ℕ} {a b : α}
    (h : bestPair rank l = some (k, i)) (hdrop : l.drop i = a :: b :: after) :
    mergeRounds rank merge l =
      mergeRounds rank merge (mergeRound merge (fun x y => x = a ∧ y = b) l) := by
  conv => lhs; rw [mergeRounds]
  split
  · next h' => exact nomatch h.symm.trans h'
  · next h' =>
    cases h.symm.trans h'
    split
    · next hdrop' =>
      cases hdrop.symm.trans hdrop'
      rfl
    · next hnone => exact absurd hdrop (hnone a b after)

/-! ## The two schedules -/

/-- **Merges come after the merges that make their parts**, and a rank names a pair. -/
structure Ordered (rank : α → α → Option κ) (merge : α → α → α) : Prop where
  injective : ∀ {a b c d : α} {k : κ}, rank a b = some k → rank c d = some k → a = c ∧ b = d
  parts : ∀ {a b c d : α} {j k : κ}, rank a b = some j → rank c d = some k →
    merge a b = c ∨ merge a b = d → j < k

/-- The last element of a chain may be replaced by what everything is related to. -/
theorem isChain_concat_of_forall {R : α → α → Prop} {before : List α} {a m : α}
    (h : List.IsChain R (before ++ [a])) (hm : ∀ x, R x m) : List.IsChain R (before ++ [m]) := by
  refine List.isChain_append.2 ⟨(List.isChain_append.1 h).1, List.isChain_singleton m, ?_⟩
  intro x _ y hy
  obtain rfl := Option.some.inj hy
  exact hm x

/-- **The merges of a round are the next single merges**: `before` is what the round has passed. -/
theorem mergeAll_mergeRound (h : Ordered rank merge) {k : κ} {p : α → α → Bool}
    (hp : ∀ a b, p a b = true ↔ rank a b = some k) : ∀ (l before : List α),
    Floor rank k (before ++ l) → Free rank k (before ++ l.take 1) →
      mergeAll rank merge (before ++ l) = mergeAll rank merge (before ++ mergeRound merge p l)
  | [], _, _, _ => rfl
  | [_], _, _, _ => rfl
  | a :: b :: l, before, hfloor, hfree => by
      rw [mergeRound]
      split
      · next hab =>
        have hrank := (hp a b).1 hab
        have hbest := bestPair_append hrank hfloor hfree
        rw [mergeAll_of_some hbest, mergeAt_append]
        have ih := mergeAll_mergeRound h hp l (before ++ [merge a b])
        simp only [List.append_assoc, List.singleton_append] at ih
        -- what the product comes to stand next to ranks above the round
        have hright : ∀ x j, rank x (merge a b) = some j → k < j :=
          fun x j hj => h.parts hrank hj (.inr rfl)
        have hleft : ∀ y j, rank (merge a b) y = some j → k < j :=
          fun y j hj => h.parts hrank hj (.inl rfl)
        obtain ⟨hbefore, -, hl⟩ := List.isChain_append_cons_cons.1 hfloor
        refine ih (List.isChain_split.2 ⟨?_, ?_⟩) (List.isChain_split.2 ⟨?_, ?_⟩)
        · exact isChain_concat_of_forall hbefore fun x j hj => (hright x j hj).le
        · exact List.isChain_cons.2 ⟨fun y _ j hj => (hleft y j hj).le, hl.tail⟩
        · exact isChain_concat_of_forall hfree fun x hx => lt_irrefl k (hright x k hx)
        · refine List.isChain_cons.2 ⟨fun y _ hy => lt_irrefl k (hleft y k hy), ?_⟩
          cases l with
          | nil => exact List.isChain_nil
          | cons c l => exact List.isChain_singleton c
      · next hab =>
        have ih := mergeAll_mergeRound h hp (b :: l) (before ++ [a])
        simp only [List.append_assoc, List.singleton_append] at ih
        refine ih hfloor (List.isChain_append_cons_cons.2 ⟨hfree, ?_, List.isChain_singleton b⟩)
        exact fun hrank => hab ((hp a b).2 hrank)

/-- **One at a time or round by round**, the merges end alike. -/
theorem mergeAll_eq_mergeRounds [DecidableEq α] (h : Ordered rank merge) (l : List α) :
    mergeAll rank merge l = mergeRounds rank merge l := by
  cases hbest : bestPair rank l with
  | none => rw [mergeAll_of_none hbest, mergeRounds_of_none hbest]
  | some r =>
    obtain ⟨k, i⟩ := r
    obtain ⟨before, a, b, after, hl, hdrop, -, hab⟩ := drop_of_bestPair hbest
    have hp : ∀ x y, decide (x = a ∧ y = b) = true ↔ rank x y = some k := by
      intro x y
      rw [decide_eq_true_eq]
      constructor
      · rintro ⟨rfl, rfl⟩
        exact hab
      · exact fun hxy => h.injective hxy hab
    have hlt : (mergeRound merge (fun x y => x = a ∧ y = b) l).length < l.length := by
      rw [hl]
      exact length_mergeRound_lt (decide_eq_true ⟨rfl, rfl⟩) before
    have hfree : Free rank k ([] ++ l.take 1) := by
      cases l with
      | nil => exact List.isChain_nil
      | cons c l => exact List.isChain_singleton c
    have hround := mergeAll_mergeRound h hp l [] (floor_of_bestPair hbest) hfree
    rw [mergeRounds_of_some hbest hdrop, ← mergeAll_eq_mergeRounds h]
    exact hround
termination_by l.length
decreasing_by simpa only [Bool.decide_and] using hlt

end Merging
