import Mathlib

/-!
# Lib/Choosing — one entry for each need, no key twice

    needs     n₁   n₂   …   nₖ
    entries   e₁   e₂   …   eₖ        each fits its need, and their keys differ

Some choice exists or not, whatever the order of the entries.  The greedy choice takes the first
entry that fits, so it depends on that order; `greedy_iff_choosable_perm` says when it does not.
-/

namespace Choosing

variable {ι α κ : Type*} {fits : ι → α → Prop} {key : α → κ} {entries entries' : List α}
  {needs : List ι} {chosen : List α}

/-! ## The choices -/

/-- One entry for each need, in the order of the needs, with pairwise distinct keys. -/
def Chosen (fits : ι → α → Prop) (key : α → κ) (entries : List α) (needs : List ι)
    (chosen : List α) : Prop :=
  List.Forall₂ (fun need entry => entry ∈ entries ∧ fits need entry) needs chosen ∧
    (chosen.map key).Nodup

/-- Each need can be given an entry of its own key. -/
def Choosable (fits : ι → α → Prop) (key : α → κ) (entries : List α) (needs : List ι) : Prop :=
  ∃ chosen, Chosen fits key entries needs chosen

/-- No two needs, at different places of the list, have entries with the same key. -/
def Clashless (fits : ι → α → Prop) (key : α → κ) (entries : List α) (needs : List ι) : Prop :=
  needs.Pairwise fun need need' => ∀ entry ∈ entries, ∀ entry' ∈ entries, fits need entry →
    fits need' entry' → key entry ≠ key entry'

theorem Chosen.of_perm (h : entries.Perm entries') (hc : Chosen fits key entries needs chosen) :
    Chosen fits key entries' needs chosen :=
  ⟨hc.1.imp fun _ _ he => ⟨h.mem_iff.1 he.1, he.2⟩, hc.2⟩

/-- Whether a choice exists does not depend on the order of the entries. -/
theorem choosable_perm (h : entries.Perm entries') :
    Choosable fits key entries needs ↔ Choosable fits key entries' needs :=
  exists_congr fun _ => ⟨.of_perm h, .of_perm h.symm⟩

theorem exists_of_mem_chosen {R : ι → α → Prop} {entry : α} : ∀ {needs : List ι} {chosen : List α},
    List.Forall₂ R needs chosen → entry ∈ chosen → ∃ need ∈ needs, R need entry
  | _, _, .nil, h => absurd h List.not_mem_nil
  | need :: _, first :: _, .cons hfirst hrest, h => by
      rcases List.mem_cons.1 h with rfl | h
      · exact ⟨need, List.mem_cons_self, hfirst⟩
      · obtain ⟨need', hneed', hentry⟩ := exists_of_mem_chosen hrest h
        exact ⟨need', List.mem_cons_of_mem _ hneed', hentry⟩

/-- Where no two needs clash, every choice has distinct keys. -/
theorem Clashless.nodup : ∀ {needs : List ι} {chosen : List α},
    Clashless fits key entries needs →
      List.Forall₂ (fun need entry => entry ∈ entries ∧ fits need entry) needs chosen →
        (chosen.map key).Nodup
  | [], _, _, .nil => List.nodup_nil
  | need :: needs, entry :: chosen, h, .cons ⟨hmem, hfits⟩ hrest => by
      obtain ⟨hhead, htail⟩ := List.pairwise_cons.1 h
      rw [List.map_cons, List.nodup_cons]
      refine ⟨fun hkey => ?_, Clashless.nodup htail hrest⟩
      obtain ⟨entry', hentry', hsame⟩ := List.mem_map.1 hkey
      obtain ⟨need', hneed', hmem', hfits'⟩ := exists_of_mem_chosen hrest hentry'
      exact hhead need' hneed' entry hmem entry' hmem' hfits hfits' hsame.symm

/-! ## The greedy choice -/

section Greedy

variable [∀ need, DecidablePred (fits need)]

/-- The first entry that fits each need, if each has one. -/
def firsts (fits : ι → α → Prop) [∀ need, DecidablePred (fits need)] (entries : List α)
    (needs : List ι) : Option (List α) :=
  needs.mapM fun need => entries.find? fun entry => decide (fits need entry)

/-- Every need has an entry, and the first ones have distinct keys. -/
def Greedy (fits : ι → α → Prop) [∀ need, DecidablePred (fits need)] (key : α → κ)
    (entries : List α) (needs : List ι) : Prop :=
  ∃ chosen, firsts fits entries needs = some chosen ∧ (chosen.map key).Nodup

theorem firsts_cons {need : ι} :
    firsts fits entries (need :: needs) = some chosen ↔ ∃ entry rest,
      entries.find? (fun entry => decide (fits need entry)) = some entry ∧
        firsts fits entries needs = some rest ∧ chosen = entry :: rest := by
  simp only [firsts, List.mapM_cons, Option.bind_eq_bind, Option.bind_eq_some_iff, Option.pure_def,
    Option.some.injEq]
  exact ⟨fun ⟨e, he, rest, hr, heq⟩ => ⟨e, rest, he, hr, heq.symm⟩,
    fun ⟨e, rest, he, hr, heq⟩ => ⟨e, he, rest, hr, heq.symm⟩⟩

theorem firsts_forall₂ : ∀ {needs : List ι} {chosen : List α},
    firsts fits entries needs = some chosen →
      List.Forall₂ (fun need entry => entry ∈ entries ∧ fits need entry) needs chosen
  | [], chosen, h => by
      obtain rfl : [] = chosen := Option.some.inj h
      exact .nil
  | need :: needs, chosen, h => by
      obtain ⟨entry, rest, hfirst, hrest, rfl⟩ := firsts_cons.1 h
      exact .cons ⟨List.mem_of_find?_eq_some hfirst,
        of_decide_eq_true (List.find?_some (p := fun e => decide (fits need e)) hfirst)⟩
        (firsts_forall₂ hrest)

/-- The greedy choice is a choice. -/
theorem Greedy.choosable : Greedy fits key entries needs → Choosable fits key entries needs
  | ⟨chosen, hfirsts, hnodup⟩ => ⟨chosen, firsts_forall₂ hfirsts, hnodup⟩

theorem exists_firsts : ∀ {needs : List ι} {chosen : List α},
    List.Forall₂ (fun need entry => entry ∈ entries ∧ fits need entry) needs chosen →
      ∃ greedy, firsts fits entries needs = some greedy
  | [], _, .nil => ⟨[], rfl⟩
  | need :: needs, _, .cons ⟨hmem, hfits⟩ hrest => by
      obtain ⟨rest, hrest⟩ := exists_firsts hrest
      obtain ⟨entry, hfirst⟩ := Option.isSome_iff_exists.1
        (List.find?_isSome (p := fun e => decide (fits need e)).2 ⟨_, hmem, decide_eq_true hfits⟩)
      exact ⟨entry :: rest, firsts_cons.2 ⟨entry, rest, hfirst, hrest, rfl⟩⟩

/-- A part of the needs is given a part of the entries. -/
theorem firsts_sublist {some_needs : List ι} (h : some_needs.Sublist needs) : ∀ {chosen : List α},
    firsts fits entries needs = some chosen →
      ∃ part, firsts fits entries some_needs = some part ∧ part.Sublist chosen := by
  induction h with
  | slnil => exact fun h => ⟨_, h, .refl _⟩
  | cons need _ ih =>
    intro chosen h
    obtain ⟨entry, rest, -, hrest, rfl⟩ := firsts_cons.1 h
    obtain ⟨part, hpart, hsub⟩ := ih hrest
    exact ⟨part, hpart, .cons entry hsub⟩
  | cons_cons need _ ih =>
    intro chosen h
    obtain ⟨entry, rest, hfirst, hrest, rfl⟩ := firsts_cons.1 h
    obtain ⟨part, hpart, hsub⟩ := ih hrest
    exact ⟨entry :: part, firsts_cons.2 ⟨entry, part, hfirst, hpart, rfl⟩, .cons_cons entry hsub⟩

/-- Two needs of a greedy choice have first entries with different keys. -/
theorem Greedy.key_ne {need need' : ι} (h : Greedy fits key entries needs)
    (hsub : [need, need'].Sublist needs) : ∃ entry entry',
      entries.find? (fun entry => decide (fits need entry)) = some entry ∧
        entries.find? (fun entry => decide (fits need' entry)) = some entry' ∧
          key entry ≠ key entry' := by
  obtain ⟨chosen, hchosen, hnodup⟩ := h
  obtain ⟨part, hpart, hsub⟩ := firsts_sublist hsub hchosen
  obtain ⟨entry, rest, hfirst, hrest, rfl⟩ := firsts_cons.1 hpart
  obtain ⟨entry', rest', hsecond, -, rfl⟩ := firsts_cons.1 hrest
  refine ⟨entry, entry', hfirst, hsecond, fun heq => ?_⟩
  have hkeys := hnodup.sublist (hsub.map key)
  rw [List.map_cons, List.map_cons, heq] at hkeys
  exact (List.nodup_cons.1 hkeys).1 List.mem_cons_self

/-- **When the greedy choice is as good as any, in whatever order the entries stand**: there is no
choice at all, or no two needs clash. -/
theorem greedy_iff_choosable_perm [DecidableEq α]
    (hone : ∀ need need' entry, fits need entry → fits need' entry → need = need') :
    (∀ entries', entries.Perm entries' →
      (Greedy fits key entries' needs ↔ Choosable fits key entries needs)) ↔
        ¬ Choosable fits key entries needs ∨ Clashless fits key entries needs := by
  constructor
  · intro h
    by_contra hnot
    obtain ⟨hchoosable, hclash⟩ := not_or.1 hnot
    rw [not_not] at hchoosable
    refine hclash (List.pairwise_iff_forall_sublist.2 fun {need need'} hsub entry hentry entry'
      hentry' hfits hfits' hsame => ?_)
    by_cases hneed : need = need'
    · -- one need at two places is given the same entry twice
      subst hneed
      obtain ⟨a, b, ha, hb, hne⟩ := ((h entries (.refl _)).2 hchoosable).key_ne hsub
      exact hne (congrArg key (Option.some.inj (ha.symm.trans hb)))
    · -- the two entries with the same key can stand in front
      have hother : ¬ fits need' entry := fun hf => hneed (hone _ _ _ hfits hf)
      have hmem : entry' ∈ entries.erase entry :=
        (List.mem_erase_of_ne fun heq : entry' = entry => hother (heq ▸ hfits')).2 hentry'
      have hperm : entries.Perm (entry :: entry' :: (entries.erase entry).erase entry') :=
        (List.perm_cons_erase hentry).trans ((List.perm_cons_erase hmem).cons entry)
      obtain ⟨a, b, ha, hb, hne⟩ := ((h _ hperm).2 hchoosable).key_ne hsub
      rw [List.find?_cons_of_pos (by simpa using hfits)] at ha
      rw [List.find?_cons_of_neg (by simpa using hother),
        List.find?_cons_of_pos (by simpa using hfits')] at hb
      cases ha
      cases hb
      exact hne hsame
  · intro h entries' hperm
    rw [choosable_perm hperm]
    refine ⟨Greedy.choosable, fun hchoosable => ?_⟩
    rcases h with h | h
    · exact absurd ((choosable_perm hperm).2 hchoosable) h
    · obtain ⟨chosen, hchosen, -⟩ := hchoosable
      obtain ⟨greedy, hgreedy⟩ := exists_firsts hchosen
      refine ⟨greedy, hgreedy, h.nodup ?_⟩
      exact (firsts_forall₂ hgreedy).imp fun _ _ he => ⟨hperm.mem_iff.2 he.1, he.2⟩

end Greedy

/-! ## A set of the keys seen -/

section Seen

variable [Ord κ] [Std.TransOrd κ]

/-- The keys are pairwise distinct, and none was seen before. -/
def Fresh (key : α → κ) (seen : Std.ExtTreeSet κ) (chosen : List α) : Prop :=
  (chosen.map key).Nodup ∧ ∀ entry ∈ chosen, key entry ∉ seen

theorem fresh_nil {seen : Std.ExtTreeSet κ} : Fresh key seen [] :=
  ⟨List.nodup_nil, fun _ h => absurd h List.not_mem_nil⟩

theorem fresh_empty : Fresh key ∅ chosen ↔ (chosen.map key).Nodup :=
  and_iff_left fun _ _ => Std.ExtTreeSet.not_mem_empty

/-- The first key is new, and the others are once it has been seen. -/
theorem fresh_cons [Std.LawfulEqOrd κ] {entry : α} {seen : Std.ExtTreeSet κ} :
    Fresh key seen (entry :: chosen) ↔
      key entry ∉ seen ∧ Fresh key (seen.insert (key entry)) chosen := by
  rw [Fresh, Fresh, List.map_cons, List.nodup_cons, List.forall_mem_cons]
  constructor
  · rintro ⟨⟨hnot, hnodup⟩, hnew, hrest⟩
    refine ⟨hnew, hnodup, fun other hother hmem => ?_⟩
    rcases Std.ExtTreeSet.mem_insert.1 hmem with heq | hmem
    · exact hnot (List.mem_map.2 ⟨other, hother, (Std.LawfulEqCmp.eq_of_compare heq).symm⟩)
    · exact hrest other hother hmem
  · rintro ⟨hnew, hnodup, hrest⟩
    refine ⟨⟨fun hmem => ?_, hnodup⟩, hnew, fun other hother hmem => ?_⟩
    · obtain ⟨other, hother, hsame⟩ := List.mem_map.1 hmem
      exact hrest other hother (hsame ▸ Std.ExtTreeSet.mem_insert_self)
    · exact hrest other hother (Std.ExtTreeSet.mem_insert.2 (.inr hmem))

end Seen

end Choosing
