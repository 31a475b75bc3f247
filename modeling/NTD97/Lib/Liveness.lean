import Mathlib

/-!
# Lib/Liveness — forgetting values after their last use

    remaining : key ↦ uses still to come        values : key ↦ value

A pool counts the uses of its values down and forgets a value with its last use, unless the value is
to be kept.  `Backs` compares it with the pool that forgets nothing: both hold the same for every
key that is still to be used.
-/

namespace Liveness

open Std

variable {κ β : Type} [Ord κ]

abbrev Counts (κ : Type) [Ord κ] := ExtTreeMap κ ℕ

/-- Values with the number of uses still to come. -/
structure Pool (κ β : Type) [Ord κ] where
  remaining : Counts κ
  values : ExtTreeMap κ β

variable [TransOrd κ]

/-- One more use. -/
def addUse (remaining : Counts κ) (k : κ) : Counts κ := remaining.insert k (remaining[k]?.getD 0 + 1)

def countUses (keys : List κ) : Counts κ := keys.foldl addUse ∅

/-- One use less; a value is forgotten with its last one. -/
def release (keep : κ → Prop) [DecidablePred keep] (pool : Pool κ β) (k : κ) : Pool κ β :=
  match pool.remaining[k]? with
  | none => pool
  | some n =>
    { remaining := pool.remaining.insert k (n - 1)
      values := if n - 1 = 0 ∧ ¬ keep k then pool.values.erase k else pool.values }

variable [DecidableEq κ] {keep : κ → Prop} {pool : Pool κ β}
  {full : ExtTreeMap κ β} {k k' : κ} {rest keys : List κ}

/-- **A pool backs the full values** while `rest` is still to be used: its counts are those of
`rest`, and it holds every value that is used there or to be kept. -/
structure Backs (keep : κ → Prop) (pool : Pool κ β) (full : ExtTreeMap κ β) (rest : List κ) :
    Prop where
  counts : ∀ k, pool.remaining[k]?.getD 0 = rest.count k
  values : ∀ k, k ∈ rest ∨ keep k → pool.values[k]? = full[k]?

/-- A value may be added on both sides. -/
theorem Backs.insert (h : Backs keep pool full rest) (k : κ) (v : β) :
    Backs keep { pool with values := pool.values.insert k v } (full.insert k v) rest where
  counts := h.counts
  values k' hk' := by
    simp only [ExtTreeMap.getElem?_insert, h.values k' hk']

variable [LawfulEqOrd κ]

theorem getElem?_addUse {remaining : Counts κ} :
    (addUse remaining k)[k']?.getD 0 = remaining[k']?.getD 0 + [k].count k' := by
  rw [addUse, ExtTreeMap.getElem?_insert, List.count_singleton]
  by_cases h : k = k'
  · subst h
    simp
  · have hcompare : ¬ compare k k' = .eq := fun he => h (LawfulEqOrd.compare_eq_iff_eq.1 he)
    simp [hcompare, h]

theorem getElem?_foldl_addUse : ∀ {keys : List κ} {remaining : Counts κ},
    (keys.foldl addUse remaining)[k]?.getD 0 = remaining[k]?.getD 0 + keys.count k
  | [], _ => rfl
  | k' :: keys, remaining => by
      have hcount : (k' :: keys).count k = [k'].count k + keys.count k := by
        rw [← List.count_append]
        rfl
      rw [List.foldl_cons, getElem?_foldl_addUse, getElem?_addUse, hcount, Nat.add_assoc]

theorem getElem?_countUses : (countUses keys)[k]?.getD 0 = keys.count k := by
  rw [countUses, getElem?_foldl_addUse, ExtTreeMap.getElem?_empty, Option.getD_none, Nat.zero_add]

theorem backs_start (values : ExtTreeMap κ β) :
    Backs keep ⟨countUses keys, values⟩ values keys :=
  ⟨fun _ => getElem?_countUses, fun _ _ => rfl⟩

namespace Backs

variable [DecidablePred keep]

theorem release (h : Backs keep pool full (k :: rest)) : Backs keep (release keep pool k) full rest := by
  have hcount := h.counts k
  rw [List.count_cons_self] at hcount
  obtain ⟨n, hn⟩ : ∃ n, pool.remaining[k]? = some n := by
    cases hget : pool.remaining[k]? with
    | none => simp [hget] at hcount
    | some n => exact ⟨n, rfl⟩
  obtain rfl : n = rest.count k + 1 := by simpa [hn] using hcount
  simp only [Liveness.release, hn, Nat.add_sub_cancel]
  constructor
  · intro k'
    by_cases hk' : k = k'
    · subst hk'
      simp
    · have hcompare : ¬ compare k k' = .eq := fun he => hk' (LawfulEqOrd.compare_eq_iff_eq.1 he)
      rw [ExtTreeMap.getElem?_insert, if_neg hcompare, h.counts, List.count_cons_of_ne hk']
  · intro k' hk'
    have hbefore := h.values k' (hk'.imp_left (List.mem_cons_of_mem k))
    split
    · next hdead =>
      -- a forgotten value is neither used again nor kept
      have hne : ¬ compare k k' = .eq := by
        intro he
        obtain rfl := LawfulEqOrd.compare_eq_iff_eq.1 he
        rcases hk' with hk' | hk'
        · exact List.count_eq_zero.1 hdead.1 hk'
        · exact hdead.2 hk'
      rw [ExtTreeMap.getElem?_erase, if_neg hne, hbefore]
    · exact hbefore

theorem releaseAll : ∀ {keys : List κ} {pool : Pool κ β}, Backs keep pool full (keys ++ rest) →
    Backs keep (keys.foldl (Liveness.release keep) pool) full rest
  | [], _, h => h
  | k :: keys, pool, h =>
      have hnext : Backs keep (Liveness.release keep pool k) full (keys ++ rest) := release h
      show Backs keep (keys.foldl (Liveness.release keep) (Liveness.release keep pool k)) full rest
        from releaseAll hnext

end Backs

end Liveness
