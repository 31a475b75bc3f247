import Mathlib
import NTD97.Lib.Guard

/-!
# Lib/Lockstep — what one computation does, and two that stop together

    Outcome Q E x          Match R x y          Alike x y

`Outcome` says what a computation answers and what it stops with.  `Match` says of two that either
both stop, with one error, or both answer, and the answers are related.  `Alike` compares their
answers only.  The rules follow the binds and the loops.
-/

namespace Lockstep

open Guard

variable {ε α β γ δ σ τ : Type}

/-! ## One computation -/

/-- **It answers with `Q`, or it stops with `E`.** -/
def Outcome (Q : α → Prop) (E : ε → Prop) : Except ε α → Prop
  | .ok a => Q a
  | .error e => E e

namespace Outcome

variable {Q : α → Prop} {S : β → Prop} {E : ε → Prop} {x : Except ε α}

theorem bind {f : α → Except ε β} (h : Outcome Q E x) (hf : ∀ a, Q a → Outcome S E (f a)) :
    Outcome S E (x >>= f) := by
  cases x with
  | error e => exact h
  | ok a => exact hf a h

theorem mono {Q' : α → Prop} (h : Outcome Q E x) (hQ : ∀ a, Q a → Q' a) : Outcome Q' E x := by
  cases x with
  | error e => exact h
  | ok a => exact hQ a h

theorem refuse {c : Prop} [Decidable c] {e : ε} (h : E e) :
    Outcome (fun _ => ¬ c) E (refuse c e : Except ε Unit) := by
  by_cases hc : c
  · rw [Guard.refuse, if_pos hc]
    exact h
  · rw [Guard.refuse, if_neg hc]
    exact hc

theorem okOr {o : Option α} {e : ε} (h : o = none → E e) :
    Outcome (fun a => o = some a) E (okOr o e : Except ε α) := by
  cases o with
  | none => exact h rfl
  | some a => exact rfl

theorem mapError {δ : Type} {x : Except δ α} {g : δ → ε} (h : ∀ e, E (g e)) :
    Outcome (fun a => x = .ok a) E (x.mapError g) := by
  cases x with
  | error e => exact h e
  | ok a => exact rfl

/-- **Loop rule**, for a property that knows what is still to be done. -/
theorem foldlM {R : List γ → σ → Prop} {f : σ → γ → Except ε σ}
    (hstep : ∀ a l s, R (a :: l) s → Outcome (R l) E (f s a)) :
    ∀ {l : List γ} {s : σ}, R l s → Outcome (R []) E (l.foldlM f s)
  | [], _, h => h
  | a :: l, s, h => (hstep a l s h).bind fun _ h => foldlM hstep h

theorem mapM {S : γ → α → Prop} {f : γ → Except ε α} :
    ∀ {l : List γ}, (∀ c ∈ l, Outcome (S c) E (f c)) → Outcome (List.Forall₂ S l) E (l.mapM f)
  | [], _ => .nil
  | c :: l, h => by
      obtain ⟨hc, hl⟩ := List.forall_mem_cons.1 h
      rw [List.mapM_cons]
      refine hc.bind fun a ha => (mapM hl).bind fun r hr => ?_
      exact List.Forall₂.cons ha hr

end Outcome

/-! ## Two computations -/

/-- **Both stop with one error, or both answer**, and `R` relates the answers. -/
inductive Match (R : α → β → Prop) : Except ε α → Except ε β → Prop
  | error (e : ε) : Match R (.error e) (.error e)
  | ok {a : α} {b : β} (h : R a b) : Match R (.ok a) (.ok b)

namespace Match

variable {R : α → β → Prop} {S : γ → δ → Prop} {x : Except ε α} {y : Except ε β}

theorem refl (x : Except ε α) : Match Eq x x := by
  cases x with
  | error e => exact .error e
  | ok a => exact .ok rfl

theorem dest (h : Match R x y) :
    (∃ e, x = .error e ∧ y = .error e) ∨ ∃ a b, x = .ok a ∧ y = .ok b ∧ R a b := by
  cases h with
  | error e => exact .inl ⟨e, rfl, rfl⟩
  | ok h => exact .inr ⟨_, _, rfl, rfl, h⟩

/-- Computations related by equality are equal. -/
theorem eq {x y : Except ε α} (h : Match Eq x y) : x = y := by
  cases h with
  | error e => rfl
  | ok h => rw [h]

theorem bind {f : α → Except ε γ} {g : β → Except ε δ} (h : Match R x y)
    (hfg : ∀ a b, R a b → Match S (f a) (g b)) : Match S (x >>= f) (y >>= g) := by
  cases h with
  | error e => exact .error e
  | ok h => exact hfg _ _ h

/-- One of them goes on alone. -/
theorem bind_left {S : γ → β → Prop} {f : α → Except ε γ} (h : Match R x y)
    (hf : ∀ a b, R a b → Match S (f a) (.ok b)) : Match S (x >>= f) y := by
  cases h with
  | error e => exact .error e
  | ok h => exact hf _ _ h

/-- Both do the same check first. -/
theorem check {c : Except ε σ} {f : σ → Except ε γ} {g : σ → Except ε δ}
    (hfg : ∀ a, Match S (f a) (g a)) : Match S (c >>= f) (c >>= g) :=
  (refl c).bind fun a _ h => h ▸ hfg a

theorem mono {R' : α → β → Prop} (h : Match R x y) (hR : ∀ a b, R a b → R' a b) :
    Match R' x y := by
  cases h with
  | error e => exact .error e
  | ok h => exact .ok (hR _ _ h)

/-- What each of them does on its own holds of both. -/
theorem outcomes {P : α → Prop} {Q : β → Prop} {E F : ε → Prop} (h : Match R x y)
    (hx : Outcome P E x) (hy : Outcome Q F y) : Match (fun a b => R a b ∧ P a ∧ Q b) x y := by
  cases h with
  | error e => exact .error e
  | ok h => exact .ok ⟨h, hx, hy⟩

theorem error_iff (h : Match R x y) {e : ε} : x = .error e ↔ y = .error e := by
  cases h with
  | error e' => exact Iff.of_eq (by simp)
  | ok h => exact ⟨fun h => (nomatch h), fun h => (nomatch h)⟩

/-- **Loop rule**, for a relation that knows what is still to be done. -/
theorem foldlM {R : List γ → σ → τ → Prop} {f : σ → γ → Except ε σ} {g : τ → γ → Except ε τ}
    (hstep : ∀ a l s t, R (a :: l) s t → Match (R l) (f s a) (g t a)) :
    ∀ {l : List γ} {s : σ} {t : τ}, R l s t → Match (R []) (l.foldlM f s) (l.foldlM g t)
  | [], _, _, h => .ok h
  | a :: l, s, t, h => (hstep a l s t h).bind fun _ _ h => foldlM hstep h

/-- **Loop rule** for a loop with steps of its own, which always succeed. -/
theorem foldlM_sublist {R : σ → τ → Prop} {f : σ → γ → Except ε σ} {g : τ → γ → Except ε τ}
    {P : γ → Prop} (hboth : ∀ a s t, R s t → Match R (f s a) (g t a))
    (hown : ∀ a s t, P a → R s t → ∃ t', g t a = .ok t' ∧ R s t') {l l' : List γ}
    (h : l.Sublist l') (hnodup : l'.Nodup) (hP : ∀ a ∈ l', a ∉ l → P a) :
    ∀ {s : σ} {t : τ}, R s t → Match R (l.foldlM f s) (l'.foldlM g t) := by
  induction h with
  | slnil => exact fun h => .ok h
  | @cons l l' a hsub ih =>
    obtain ⟨ha, hnodup⟩ := List.nodup_cons.1 hnodup
    intro s t hst
    obtain ⟨t', ht', hst'⟩ := hown a s t (hP a (by simp) fun hmem => ha (hsub.subset hmem)) hst
    rw [List.foldlM_cons, ht']
    exact ih hnodup (fun b hb => hP b (List.mem_cons_of_mem a hb)) hst'
  | @cons_cons l l' a hsub ih =>
    obtain ⟨ha, hnodup⟩ := List.nodup_cons.1 hnodup
    intro s t hst
    rw [List.foldlM_cons, List.foldlM_cons]
    refine (hboth a s t hst).bind fun s' t' h => ih hnodup (fun b hb hmem => ?_) h
    refine hP b (List.mem_cons_of_mem a hb) fun hcons => ?_
    exact (List.mem_cons.1 hcons).elim (fun heq => ha (heq ▸ hb)) hmem

theorem mapM {S : γ → δ → Prop} {f : α → Except ε γ} {g : β → Except ε δ} {l : List α} {l' : List β}
    (h : List.Forall₂ (fun a b => Match S (f a) (g b)) l l') :
    Match (List.Forall₂ S) (l.mapM f) (l'.mapM g) := by
  induction h with
  | nil => exact .ok .nil
  | cons hab _ ih =>
    rw [List.mapM_cons, List.mapM_cons]
    exact hab.bind fun _ _ hcd => ih.bind fun _ _ hrest => .ok (.cons hcd hrest)

end Match

/-! ## Two computations that may stop with different errors -/

/-- **Both answer alike**, whatever they stop with. -/
def Alike (x y : Except ε α) : Prop := ∀ a, x = .ok a ↔ y = .ok a

namespace Alike

variable {x y : Except ε α}

theorem refl (x : Except ε α) : Alike x x := fun _ => Iff.rfl

theorem bind {f g : α → Except ε β} (h : Alike x y) (hfg : ∀ a, Alike (f a) (g a)) :
    Alike (x >>= f) (y >>= g) := by
  intro b
  rw [bind_eq_ok, bind_eq_ok]
  exact exists_congr fun a => and_congr (h a) (hfg a b)

theorem mapError {x y : Except δ α} (h : Alike x y) (g : δ → ε) :
    Alike (x.mapError g) (y.mapError g) := by
  intro a
  rw [mapError_eq_ok, mapError_eq_ok]
  exact h a

/-- **Loop rule.** -/
theorem foldlM {f g : σ → γ → Except ε σ} (h : ∀ s a, Alike (f s a) (g s a)) :
    ∀ (l : List γ) (s : σ), Alike (l.foldlM f s) (l.foldlM g s)
  | [], s => refl _
  | a :: l, s => by
      rw [List.foldlM_cons, List.foldlM_cons]
      exact (h s a).bind fun s' => foldlM h l s'

end Alike

/-- Loops whose bodies agree on the list are one loop. -/
theorem mapM_congr {f g : α → Except ε β} :
    ∀ {l : List α}, (∀ a ∈ l, f a = g a) → l.mapM f = l.mapM g
  | [], _ => rfl
  | a :: l, h => by
      obtain ⟨ha, hl⟩ := List.forall_mem_cons.1 h
      rw [List.mapM_cons, List.mapM_cons, ha, mapM_congr hl]

/-- A loop whose body never fails is a map. -/
theorem mapM_ok {f : α → Except ε β} {g : α → β} {l : List α} (h : ∀ a ∈ l, f a = .ok (g a)) :
    l.mapM f = .ok (l.map g) :=
  (mapM_congr h).trans List.mapM_pure

/-- What a loop met, its body answered. -/
theorem exists_of_mapM {f : α → Except ε β} : ∀ {l : List α} {r : List β}, l.mapM f = .ok r →
    ∀ a ∈ l, ∃ b, f a = .ok b
  | [], _, _ => fun _ h => (nomatch h)
  | a :: l, r, h => by
      rw [List.mapM_cons] at h
      obtain ⟨b, hb, h⟩ := bind_eq_ok.1 h
      obtain ⟨bs, hbs, -⟩ := bind_eq_ok.1 h
      exact List.forall_mem_cons.2 ⟨⟨b, hb⟩, exists_of_mapM hbs⟩

end Lockstep
