import Mathlib

/-!
# Lib/Guard — when a sequence of checks succeeds

A validator is a sequence of checks in `Except`; the lemmas here read its success off the checks,
so a validator is unfolded once, into the conjunction it decides.
-/

namespace Guard

variable {ε α β : Type}

/-- Both parts of a sequence succeed. -/
@[simp] theorem bind_eq_ok {x : Except ε α} {f : α → Except ε β} {b : β} :
    x >>= f = .ok b ↔ ∃ a, x = .ok a ∧ f a = .ok b := by
  cases x with
  | error e => exact ⟨fun h => (nomatch h), fun ⟨_, h, _⟩ => (nomatch h)⟩
  | ok a => exact ⟨fun h => ⟨a, rfl, h⟩, fun ⟨_, h, hf⟩ => by cases h; exact hf⟩

@[simp] theorem throw_ne_ok {e : ε} {a : α} : (throw e : Except ε α) = .ok a ↔ False :=
  ⟨fun h => (nomatch h), False.elim⟩

@[simp] theorem pure_eq_ok {a b : α} : (pure a : Except ε α) = .ok b ↔ a = b :=
  ⟨fun h => Except.ok.inj h, fun h => congrArg _ h⟩

/-- **Refuse with `e` when `c` holds**, and go on otherwise. -/
def refuse {m : Type → Type} [Monad m] [MonadExcept ε m] (c : Prop) [Decidable c] (e : ε) :
    m Unit :=
  if c then throw e else pure ()

/-- A check lets through what it does not refuse. -/
@[simp] theorem refuse_eq_ok {c : Prop} [Decidable c] {e : ε} :
    (refuse c e : Except ε Unit) = .ok () ↔ ¬ c := by
  by_cases hc : c
  · simp [refuse, hc]
  · simp [refuse, hc]

/-- **The value of an option, or the refusal `e`.** -/
def okOr {m : Type → Type} [Monad m] [MonadExcept ε m] (o : Option α) (e : ε) : m α :=
  match o with
  | some a => pure a
  | none => throw e

/-- An option that has a value. -/
@[simp] theorem okOr_eq_ok {o : Option α} {e : ε} {a : α} :
    (okOr o e : Except ε α) = .ok a ↔ o = some a := by
  cases o <;> simp [okOr]

/-- Another error is no other success. -/
@[simp] theorem mapError_eq_ok {ε' : Type} {g : ε → ε'} {x : Except ε α} {a : α} :
    x.mapError g = .ok a ↔ x = .ok a := by
  cases x with
  | error e => exact ⟨fun h => (nomatch h), fun h => (nomatch h)⟩
  | ok b => exact ⟨fun h => congrArg _ (Except.ok.inj h), fun h => congrArg _ (Except.ok.inj h)⟩

/-- A computation that answers, answers its value. -/
theorem eq_ok_getD {x : Except ε α} (h : x.toOption.isSome) (d : α) :
    x = .ok (x.toOption.getD d) := by
  cases x with
  | error e => exact nomatch h
  | ok a => rfl

theorem toOption_eq_some {x : Except ε α} {a : α} (h : x.toOption = some a) : x = .ok a := by
  cases x with
  | error e => exact nomatch h
  | ok b => exact congrArg Except.ok (Option.some.inj h)

theorem exists_eq_ok {x : Except ε α} (h : x.toOption.isSome) : ∃ a, x = .ok a := by
  cases x with
  | error e => exact nomatch h
  | ok a => exact ⟨a, rfl⟩

@[simp] theorem exists_unit {p : Unit → Prop} : (∃ u, p u) ↔ p () :=
  ⟨fun ⟨(), h⟩ => h, fun h => ⟨(), h⟩⟩

/-! ## Where a refusal comes from

The first part of a sequence that fails gives its error. -/

/-- A sequence fails in its first part, or in its second after the first. -/
theorem bind_eq_error {x : Except ε α} {f : α → Except ε β} {e : ε} :
    x >>= f = .error e ↔ x = .error e ∨ ∃ a, x = .ok a ∧ f a = .error e := by
  cases x with
  | error e' =>
    exact ⟨fun h => .inl (congrArg _ (Except.error.inj h)), fun h => h.elim
      (fun h => congrArg _ (Except.error.inj h)) fun ⟨_, h, _⟩ => (nomatch h)⟩
  | ok a =>
    exact ⟨fun h => .inr ⟨a, rfl, h⟩, fun h => h.elim (fun h => (nomatch h))
      fun ⟨_, h, hf⟩ => by cases h; exact hf⟩

theorem refuse_eq_error {c : Prop} [Decidable c] {e e' : ε} :
    (refuse c e : Except ε Unit) = .error e' ↔ c ∧ e = e' := by
  by_cases hc : c
  · rw [refuse, if_pos hc]
    exact ⟨fun h => ⟨hc, Except.error.inj h⟩, fun h => congrArg _ h.2⟩
  · rw [refuse, if_neg hc]
    exact ⟨fun h => (nomatch h), fun h => absurd h.1 hc⟩

theorem mapError_eq_error {ε' : Type} {g : ε → ε'} {x : Except ε α} {e : ε'} :
    x.mapError g = .error e ↔ ∃ e', x = .error e' ∧ g e' = e := by
  cases x with
  | error e' =>
    exact ⟨fun h => ⟨e', rfl, Except.error.inj h⟩, fun ⟨_, h, hg⟩ => by cases h; exact congrArg _ hg⟩
  | ok a => exact ⟨fun h => (nomatch h), fun ⟨_, h, _⟩ => (nomatch h)⟩

/-! ## Loops -/

/-- A loop of checks succeeds exactly when each of them does. -/
theorem forM_eq_ok {f : α → Except ε Unit} :
    ∀ {l : List α}, l.forM f = .ok () ↔ ∀ a ∈ l, f a = .ok ()
  | [] => by simp
  | a :: l => by
      rw [List.forM, bind_eq_ok, List.forall_mem_cons]
      exact ⟨fun ⟨(), ha, hl⟩ => ⟨ha, forM_eq_ok.1 hl⟩, fun ⟨ha, hl⟩ => ⟨(), ha, forM_eq_ok.2 hl⟩⟩

/-- A loop that builds a list succeeds exactly when each of its steps does. -/
theorem mapM_eq_ok {f : α → Except ε β} :
    ∀ {l : List α} {r : List β}, l.mapM f = .ok r ↔ List.Forall₂ (fun a b => f a = .ok b) l r
  | [], r => by rw [List.mapM_nil, pure_eq_ok, List.forall₂_nil_left_iff, eq_comm]
  | a :: l, r => by
      rw [List.mapM_cons, bind_eq_ok, List.forall₂_cons_left_iff]
      constructor
      · rintro ⟨b, hb, hr⟩
        obtain ⟨bs, hbs, hr⟩ := bind_eq_ok.1 hr
        exact ⟨b, bs, hb, mapM_eq_ok.1 hbs, (pure_eq_ok.1 hr).symm⟩
      · rintro ⟨b, bs, hb, hbs, rfl⟩
        exact ⟨b, hb, bind_eq_ok.2 ⟨bs, mapM_eq_ok.2 hbs, rfl⟩⟩

/-- **A loop over a numbered list** keeps what each of its rounds keeps. -/
theorem foldlM_zipIdx {σ : Type} {I : ℕ → σ → Prop} {f : σ → α × ℕ → Except ε σ} :
    ∀ {l : List α} {n : ℕ} {s s' : σ},
      (∀ i a s s', l[i]? = some a → I (n + i) s → f s (a, n + i) = .ok s' → I (n + i + 1) s') →
      I n s → (l.zipIdx n).foldlM f s = .ok s' → I (n + l.length) s'
  | [], n, s, s', _, hs, h => by
      obtain rfl := Except.ok.inj h
      exact hs
  | a :: l, n, s, s', hstep, hs, h => by
      rw [List.zipIdx_cons, List.foldlM_cons, bind_eq_ok] at h
      obtain ⟨t, ht, hrest⟩ := h
      have hnext : I (n + 1) t := hstep 0 a s t rfl hs ht
      have hrec := foldlM_zipIdx (l := l) (fun i b s s' hb hI hf => ?_) hnext hrest
      · rw [List.length_cons, Nat.add_comm l.length, ← Nat.add_assoc]
        exact hrec
      · have hassoc : n + 1 + i = n + (i + 1) := by omega
        rw [hassoc] at hI hf ⊢
        exact hstep (i + 1) b s s' hb hI hf

end Guard
