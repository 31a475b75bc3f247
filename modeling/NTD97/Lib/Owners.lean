import Mathlib
import NTD97.Lib.FileCalls

/-!
# Lib/Owners — programs that take turns on one tree, each with at most one file of its own

    nothing ──create──▸ its file, empty ──append──▸ its file ──remove──▸ nothing

A program says by its calls what it owns.  As long as it makes its file where there is none, and
writes and removes only what is its own, the others cannot disturb it: whatever the turns are, the
files that nobody owns are those of the beginning, and an owner finds what it wrote.
-/

namespace Files

open Steps

variable {C : Type} {R : C → Type} {ε α β ι : Type} {t t' t₀ : Tree} {path path' : Path}
  {own own' : Option (List UInt8)} {refuses : Path → Option IoError}

/-- The tree holds what a program owns. -/
def Fits (refuses : Path → Option IoError) (path : Path) : Option (List UInt8) → Tree → Prop
  | none, _ => True
  | some bytes, t => reach refuses t path = .ok (some (.file bytes))

/-- **What one call of a program may change**, by what it owns before and after. -/
inductive Takes (path : Path) : Option (List UInt8) → Option (List UInt8) → Tree → Tree → Prop
  | quiet {own : Option (List UInt8)} {t t' : Tree} (h : MoreDirs (fun _ => True) t t') :
      Takes path own own t t'
  | creates {t : Tree} (bytes : List UInt8) (h : t.at path = none) :
      Takes path none (some bytes) t (Function.update t path (some (.file bytes)))
  | writes {t : Tree} (old bytes : List UInt8) :
      Takes path (some old) (some bytes) t (Function.update t path (some (.file bytes)))
  | removes {t : Tree} (old : List UInt8) :
      Takes path (some old) none t (Function.update t path none)

/-- **A program that keeps to what it owns**, whatever the others do between its calls. -/
def Owns (refuses : Path → Option IoError) (does : Does R Tree)
    (condition : Tree → Called R → Prop) (path : Path)
    (Q : Except ε α → Option (List UInt8) → Prop) : Option (List UInt8) → Prog R ε α → Prop
  | own, .ret r => Q r own
  | own, .call c k => ∀ t r t', Fits refuses path own t → does c t r t' → condition t ⟨c, r⟩ →
      ∃ own', Takes path own own' t t' ∧ Fits refuses path own' t' ∧
        Owns refuses does condition path Q own' (k r)

section Owns

variable {does : Does R Tree} {condition : Tree → Called R → Prop}
  {Q Q' : Except ε α → Option (List UInt8) → Prop}

theorem Owns.imp (himp : ∀ r own, Q r own → Q' r own) : ∀ {p : Prog R ε α}
    {own : Option (List UInt8)}, Owns refuses does condition path Q own p →
      Owns refuses does condition path Q' own p
  | .ret r, own, h => himp r own h
  | .call _ _, _, h => fun t r t' hfits hdoes hcondition => by
      obtain ⟨own', htakes, hfits', hrest⟩ := h t r t' hfits hdoes hcondition
      exact ⟨own', htakes, hfits', hrest.imp himp⟩

/-- What a program goes on with owns what it leaves. -/
def thenOwns (refuses : Path → Option IoError) (does : Does R Tree)
    (condition : Tree → Called R → Prop) (path : Path)
    (Q : Except ε β → Option (List UInt8) → Prop) (f : α → Prog R ε β) :
    Except ε α → Option (List UInt8) → Prop
  | .ok a, own => Owns refuses does condition path Q own (f a)
  | .error e, own => Q (.error e) own

theorem Owns.bind {Q : Except ε β → Option (List UInt8) → Prop} {f : α → Prog R ε β} :
    ∀ {p : Prog R ε α} {own : Option (List UInt8)},
      Owns refuses does condition path (thenOwns refuses does condition path Q f) own p →
      Owns refuses does condition path Q own (p >>= f)
  | .ret (.ok _), _, h => h
  | .ret (.error _), _, h => h
  | .call _ _, _, h => fun t r t' hfits hdoes hcondition => by
      obtain ⟨own', htakes, hfits', hrest⟩ := h t r t' hfits hdoes hcondition
      exact ⟨own', htakes, hfits', Owns.bind hrest⟩

end Owns

/-! ## One call of one program, and what the others own -/

/-- An owner was one, or there was nothing. -/
theorem Takes.owned (h : Takes path own own' t t') (hown' : own' ≠ none) :
    own ≠ none ∨ t.at path = none := by
  cases h with
  | quiet => exact .inl hown'
  | creates bytes hnone => exact .inr hnone
  | writes => exact .inl (by simp)
  | removes => exact absurd rfl hown'

theorem Fits.at_eq (h : Fits refuses path own t) (hown : own ≠ none) :
    ∃ bytes, t.at path = some (.file bytes) := by
  cases own with
  | none => exact absurd rfl hown
  | some bytes => exact ⟨bytes, (reach_eq_ok.1 h).2.2⟩

theorem ne_nil_of_at_file {bytes : List UInt8} (h : t.at path = some (.file bytes)) : path ≠ [] :=
  ne_nil_of_at (by rw [h]; simp)

/-- What one call changes is no file but that of its program. -/
theorem Takes.at_file_iff {q : Path} {bytes : List UInt8} (h : Takes path own own' t t')
    (hfits : Fits refuses path own t) (hq : own ≠ none ∨ own' ≠ none → q ≠ path) :
    t'.at q = some (.file bytes) ↔ t.at q = some (.file bytes) := by
  cases h with
  | quiet hmore => exact hmore.at_file_iff
  | creates new hnone =>
    rw [at_update (ne_nil_of_at (by rw [hnone]; simp)), if_neg (hq (.inr (by simp)))]
  | writes old new =>
    obtain ⟨there, hat⟩ := hfits.at_eq (by simp)
    rw [at_update (ne_nil_of_at_file hat), if_neg (hq (.inr (by simp)))]
  | removes old =>
    obtain ⟨there, hat⟩ := hfits.at_eq (by simp)
    rw [at_update (ne_nil_of_at_file hat), if_neg (hq (.inl (by simp)))]

/-- What is given up is removed. -/
theorem Takes.at_none (h : Takes path own none t t') (hfits : Fits refuses path own t)
    (hown : own ≠ none) : t'.at path = none := by
  obtain ⟨there, hat⟩ := hfits.at_eq hown
  cases h with
  | quiet => exact absurd rfl hown
  | removes => rw [at_update (ne_nil_of_at_file hat), if_pos rfl]

/-- A path that can be reached past a change of another one. -/
theorem reach_update {e : Option Entry} {bytes : List UInt8} (hpath : path ≠ [])
    (hdir : t.at path ≠ some .directory) (hne : path' ≠ path)
    (h : reach refuses t path' = .ok (some (.file bytes))) :
    reach refuses (Function.update t path e) path' = .ok (some (.file bytes)) := by
  obtain ⟨hrefuses, hwalk, hat⟩ := reach_eq_ok.1 h
  refine reach_eq_ok.2 ⟨hrefuses, fun q hq => ?_, ?_⟩
  · have hthere := hwalk q hq
    rw [at_update hpath, if_neg]
    · exact hthere
    · rintro rfl
      exact hdir hthere
  · rw [at_update hpath, if_neg hne]
    exact hat

/-- **What one program does, another one does not notice**, if the two do not own one file. -/
theorem Takes.fits_other {other : Option (List UInt8)} (h : Takes path own own' t t')
    (hfits : Fits refuses path own t) (hother : Fits refuses path' other t)
    (hapart : path = path' → own ≠ none → other = none) : Fits refuses path' other t' := by
  cases other with
  | none => exact trivial
  | some bytes =>
    have hat : t.at path' = some (.file bytes) := (reach_eq_ok.1 hother).2.2
    cases h with
    | quiet hmore => exact hmore.reach_some hother
    | creates new hnone =>
      have hdir : t.at path ≠ some .directory := by rw [hnone]; simp
      refine reach_update (ne_nil_of_at hdir) hdir ?_ hother
      rintro rfl
      rw [hnone] at hat
      cases hat
    | writes old new | removes old =>
      have hdir : t.at path ≠ some .directory := by rw [(reach_eq_ok.1 hfits).2.2]; simp
      refine reach_update (ne_nil_of_at hdir) hdir ?_ hother
      rintro rfl
      cases hapart rfl (by simp)

/-! ## All turns -/

section Shared

variable [DecidableEq ι] {does : Does R Tree} {condition : Tree → Called R → Prop}
  {paths : ι → Path} {Q : ι → Except ε α → Option (List UInt8) → Prop}
  {threads threads' start : Threads ι R Tree ε α}

/-- **Programs that share a tree**, and what each of them owns. -/
structure Shared (refuses : Path → Option IoError) (does : Does R Tree)
    (condition : Tree → Called R → Prop) (paths : ι → Path)
    (Q : ι → Except ε α → Option (List UInt8) → Prop) (t₀ : Tree)
    (threads : Threads ι R Tree ε α) (owned : ι → Option (List UInt8)) : Prop where
  owns : ∀ i, Owns refuses does condition (paths i) (Q i) (owned i) (threads.programs i)
  fits : ∀ i, Fits refuses (paths i) (owned i) threads.state
  apart : ∀ i j, paths i = paths j → owned i ≠ none → owned j ≠ none → i = j
  fresh : ∀ i bytes, owned i ≠ none → t₀.at (paths i) ≠ some (.file bytes)
  rest : ∀ q bytes, (∀ i, owned i ≠ none → paths i ≠ q) →
    (threads.state.at q = some (.file bytes) ↔ t₀.at q = some (.file bytes))

theorem Shared.turn {owned : ι → Option (List UInt8)} {event : Called R}
    (h : Shared refuses does condition paths Q t₀ threads owned)
    (hturn : Turn does threads event threads') (hcondition : condition threads.state event) :
    ∃ owned', Shared refuses does condition paths Q t₀ threads' owned' ∧
      ∀ i r, threads.programs i = .ret r → threads'.programs i = .ret r ∧ owned' i = owned i := by
  cases hturn with
  | @call i c k r s' hprogram hdoes =>
    have howns := h.owns i
    rw [hprogram] at howns
    obtain ⟨own', htakes, hfits, hrest⟩ := howns _ r s' (h.fits i) hdoes hcondition
    -- what the others own is not where this program makes its file
    have hothers (j : ι) (hj : owned j ≠ none) (hown' : own' ≠ none) (hpath : paths i = paths j) :
        i = j := by
      rcases htakes.owned hown' with hown | hnone
      · exact h.apart i j hpath hown hj
      · obtain ⟨bytes, hat⟩ := (h.fits j).at_eq hj
        rw [hpath, hat] at hnone
        cases hnone
    refine ⟨Function.update owned i own', ⟨fun j => ?_, fun j => ?_, fun j j' => ?_, fun j => ?_,
      fun q bytes hfree => ?_⟩, fun j r' hr' => ?_⟩
    · change Owns _ _ _ _ _ _ (Function.update threads.programs i (k r) j)
      by_cases hj : j = i
      · rw [hj, Function.update_self, Function.update_self]
        exact hrest
      · rw [Function.update_of_ne hj, Function.update_of_ne hj]
        exact h.owns j
    · by_cases hj : j = i
      · rw [hj, Function.update_self]
        exact hfits
      · rw [Function.update_of_ne hj]
        refine htakes.fits_other (h.fits i) (h.fits j) fun hpath hi => ?_
        by_contra hown
        exact hj (h.apart i j hpath hi hown).symm
    · rw [Function.update_apply, Function.update_apply]
      split <;> split <;> intro hpath hown hown'
      · next hj hj' => exact hj.trans hj'.symm
      · next hj _ => exact hj.trans (hothers j' hown' hown (hj ▸ hpath))
      · next hj' => exact ((hothers j hown hown' (hj' ▸ hpath.symm)).symm).trans hj'.symm
      · exact h.apart j j' hpath hown hown'
    · intro bytes hown hat
      by_cases hj : j = i
      · rw [hj, Function.update_self] at hown
        rw [hj] at hat
        rcases htakes.owned hown with hmine | hnone
        · exact h.fresh i bytes hmine hat
        · have hthere := (h.rest (paths i) bytes fun k hk hpath => ?_).2 hat
          · rw [hnone] at hthere
            cases hthere
          · obtain ⟨there, hfile⟩ := (h.fits k).at_eq hk
            rw [hpath, hnone] at hfile
            cases hfile
      · rw [Function.update_of_ne hj] at hown
        exact h.fresh j bytes hown hat
    · have hold (j : ι) (hji : j ≠ i) (hj : owned j ≠ none) : paths j ≠ q :=
        hfree j (by rwa [Function.update_of_ne hji])
      by_cases hown' : own' = none
      · subst hown'
        by_cases hq : q = paths i ∧ owned i ≠ none
        · rw [hq.1, htakes.at_none (h.fits i) hq.2]
          exact iff_of_false (fun hfile => by cases hfile) (h.fresh i bytes hq.2)
        · refine (htakes.at_file_iff (h.fits i) fun hown hqi => ?_).trans (h.rest q bytes fun j hj => ?_)
          · exact hq ⟨hqi, hown.elim id fun hne => absurd rfl hne⟩
          · by_cases hji : j = i
            · rw [hji] at hj ⊢
              exact fun hqi => hq ⟨hqi.symm, hj⟩
            · exact hold j hji hj
      · have hqi : paths i ≠ q := hfree i (by rwa [Function.update_self])
        refine (htakes.at_file_iff (h.fits i) fun _ => hqi.symm).trans (h.rest q bytes fun j hj => ?_)
        by_cases hji : j = i
        · rwa [hji]
        · exact hold j hji hj
    · have hj : j ≠ i := by
        rintro rfl
        rw [hprogram] at hr'
        cases hr'
      change Function.update threads.programs i (k r) j = _ ∧ _
      rw [Function.update_of_ne hj, Function.update_of_ne hj]
      exact ⟨hr', rfl⟩

/-- **In every state that is reached, the programs share the tree**, and a finished one still owns
what it owned. -/
theorem Shared.reached {owned : ι → Option (List UInt8)}
    (h : Shared refuses does condition paths Q t₀ threads owned)
    (hreached : Reached does condition threads threads') :
    ∃ owned', Shared refuses does condition paths Q t₀ threads' owned' ∧
      ∀ i r, threads.programs i = .ret r → threads'.programs i = .ret r ∧ owned' i = owned i := by
  refine hreached.invariant (I := fun threads' =>
    ∃ owned', Shared refuses does condition paths Q t₀ threads' owned' ∧
      ∀ i r, threads.programs i = .ret r → threads'.programs i = .ret r ∧ owned' i = owned i)
    ⟨owned, h, fun _ _ hr => ⟨hr, rfl⟩⟩ ?_
  rintro threads₁ event threads₂ ⟨owned₁, h₁, hsame⟩ hturn hcondition
  obtain ⟨owned₂, h₂, hsame'⟩ := h₁.turn hturn hcondition
  refine ⟨owned₂, h₂, fun i r hr => ?_⟩
  obtain ⟨hr₁, howned₁⟩ := hsame i r hr
  obtain ⟨hr₂, howned₂⟩ := hsame' i r hr₁
  exact ⟨hr₂, howned₂.trans howned₁⟩

omit [DecidableEq ι] in
/-- At the beginning nobody owns anything. -/
theorem Shared.of_start (paths : ι → Path) (Q : ι → Except ε α → Option (List UInt8) → Prop)
    (start : Threads ι R Tree ε α)
    (hstart : ∀ i, Owns refuses does condition (paths i) (Q i) none (start.programs i)) :
    Shared refuses does condition paths Q start.state start fun _ => none where
  owns := hstart
  fits _ := trivial
  apart _ _ _ h := absurd rfl h
  fresh _ _ h := absurd rfl h
  rest _ _ _ := .rfl

end Shared

end Files
