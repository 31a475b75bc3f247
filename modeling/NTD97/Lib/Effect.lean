import Mathlib
import NTD97.Lib.Guard

/-!
# Lib/Effect — computations over a mutable state that may stop with an error

    exec x s  :  Except ε α × σ

`Eff σ ε` is the exception monad over the state monad, so an early exit keeps every write made
before it — a method on a mutable receiver that leaves through an error.  `exec` runs such a
computation; `Triple` states what it does on both exits, and its rules follow the binds.
-/

namespace Effect

open Guard

variable {σ ε α β : Type}

/-- **A computation over a mutable state `σ` that may stop with an error `ε`.** -/
abbrev Eff (σ ε : Type) := ExceptT ε (StateM σ)

/-- Run a computation: its answer, and the state it leaves on either exit. -/
def exec (x : Eff σ ε α) (s : σ) : Except ε α × σ := x.run.run s

/-- Lift a pure check, embedding its error. -/
def check {ε' : Type} (embed : ε' → ε) : Except ε' α → Eff σ ε α
  | .ok a => pure a
  | .error e => throw (embed e)

/-- Run a computation on one part of the state, embedding its error. -/
def zoom {τ ε' : Type} (part : σ → τ) (put : σ → τ → σ) (embed : ε' → ε) (x : Eff τ ε' α) :
    Eff σ ε α := do
  let s ← get
  let (r, t) := exec x (part s)
  modify (put · t)
  check embed r

/-! ## What each primitive does

The equations by which a computation is run step by step. -/

@[simp] theorem exec_pure (a : α) (s : σ) : exec (pure a : Eff σ ε α) s = (.ok a, s) := rfl

@[simp] theorem exec_throw (e : ε) (s : σ) : exec (throw e : Eff σ ε α) s = (.error e, s) := rfl

@[simp] theorem exec_get (s : σ) : exec (get : Eff σ ε σ) s = (.ok s, s) := rfl

@[simp] theorem exec_modify (f : σ → σ) (s : σ) :
    exec (modify f : Eff σ ε PUnit) s = (.ok ⟨⟩, f s) := rfl

@[simp] theorem exec_check_ok {ε' : Type} (embed : ε' → ε) (a : α) (s : σ) :
    exec (check embed (.ok a) : Eff σ ε α) s = (.ok a, s) := rfl

@[simp] theorem exec_check_error {ε' : Type} (embed : ε' → ε) (e : ε') (s : σ) :
    exec (check embed (.error e) : Eff σ ε α) s = (.error (embed e), s) := rfl

/-- A bind runs the rest on the state its first part left, or stops where that part stopped. -/
theorem exec_bind (x : Eff σ ε α) (f : α → Eff σ ε β) (s : σ) :
    exec (x >>= f) s = match exec x s with
      | (.ok a, t) => exec (f a) t
      | (.error e, t) => (.error e, t) := by
  simp only [exec, ExceptT.run_bind, StateT.run_bind]
  change (match x.run.run s with | (r, t) => _) = _
  rcases x.run.run s with ⟨r, t⟩
  cases r <;> rfl

/-- After a first part that succeeds. -/
theorem exec_bind_ok {x : Eff σ ε α} {f : α → Eff σ ε β} {s t : σ} {a : α}
    (h : exec x s = (.ok a, t)) : exec (x >>= f) s = exec (f a) t := by
  rw [exec_bind, h]

/-- After a first part that fails nothing happens. -/
theorem exec_bind_error {x : Eff σ ε α} {f : α → Eff σ ε β} {s t : σ} {e : ε}
    (h : exec x s = (.error e, t)) : exec (x >>= f) s = (.error e, t) := by
  rw [exec_bind, h]

/-- What a sequence answers, its second part does. -/
theorem exists_of_exec_bind {x : Eff σ ε α} {f : α → Eff σ ε β} {s : σ} {b : β}
    (h : (exec (x >>= f) s).1 = .ok b) : ∃ a t, exec x s = (.ok a, t) ∧ (exec (f a) t).1 = .ok b := by
  rw [exec_bind] at h
  rcases hx : exec x s with ⟨e | a, t⟩ <;> rw [hx] at h
  · exact nomatch h
  · exact ⟨a, t, rfl, h⟩

/-- What is made of an answer leaves the state alone. -/
theorem exec_bind_pure (x : Eff σ ε α) (f : α → β) (s : σ) :
    exec (x >>= fun a => pure (f a)) s = ((exec x s).1.map f, (exec x s).2) := by
  rw [exec_bind]
  rcases exec x s with ⟨_ | _, t⟩ <;> rfl

@[simp] theorem exec_pure_bind (a : α) (f : α → Eff σ ε β) (s : σ) :
    exec (pure a >>= f) s = exec (f a) s := exec_bind_ok rfl

@[simp] theorem exec_throw_bind (e : ε) (f : α → Eff σ ε β) (s : σ) :
    exec ((throw e : Eff σ ε α) >>= f) s = (.error e, s) := exec_bind_error rfl

@[simp] theorem exec_get_bind (f : σ → Eff σ ε β) (s : σ) :
    exec (get >>= f) s = exec (f s) s := exec_bind_ok rfl

@[simp] theorem exec_modify_bind (g : σ → σ) (f : PUnit → Eff σ ε β) (s : σ) :
    exec (modify g >>= f) s = exec (f ⟨⟩) (g s) := exec_bind_ok rfl

@[simp] theorem exec_check_ok_bind {ε' : Type} (embed : ε' → ε) (a : α) (f : α → Eff σ ε β)
    (s : σ) : exec (check embed (.ok a) >>= f) s = exec (f a) s := exec_bind_ok rfl

@[simp] theorem exec_check_error_bind {ε' : Type} (embed : ε' → ε) (e : ε') (f : α → Eff σ ε β)
    (s : σ) : exec ((check embed (.error e) : Eff σ ε α) >>= f) s = (.error (embed e), s) :=
  exec_bind_error rfl

@[simp] theorem exec_okOr_none_bind (e : ε) (f : α → Eff σ ε β) (s : σ) :
    exec ((okOr none e : Eff σ ε α) >>= f) s = (.error e, s) := exec_bind_error rfl

@[simp] theorem exec_okOr_some_bind (a : α) (e : ε) (f : α → Eff σ ε β) (s : σ) :
    exec (okOr (some a) e >>= f) s = exec (f a) s := exec_bind_ok rfl

/-- A check that refuses. -/
theorem exec_refuse_of_pos {c : Prop} [Decidable c] (h : c) (e : ε) (f : Unit → Eff σ ε β) (s : σ) :
    exec (refuse c e >>= f) s = (.error e, s) := by
  rw [refuse, if_pos h, exec_throw_bind]

/-- A check that does not. -/
theorem exec_refuse_of_neg {c : Prop} [Decidable c] (h : ¬ c) (e : ε) (f : Unit → Eff σ ε β)
    (s : σ) : exec (refuse c e >>= f) s = exec (f ()) s := by
  rw [refuse, if_neg h, exec_pure_bind]

/-- A computation on a part of the state. -/
theorem exec_zoom {τ ε' : Type} (part : σ → τ) (put : σ → τ → σ) (embed : ε' → ε)
    (x : Eff τ ε' α) (s : σ) : exec (zoom part put embed x) s =
      ((exec x (part s)).1.mapError embed, put s (exec x (part s)).2) := by
  rw [zoom, exec_get_bind]
  rcases exec x (part s) with ⟨e | a, t⟩ <;> rfl

/-! ## Pre- and postconditions

`Triple P x Q E`: from a state with `P`, a normal exit answers `a` in a state with `Q a`, and an
error exit `e` leaves a state with `E e`. -/

/-- **A computation keeps its promise on both exits.** -/
def Triple (P : σ → Prop) (x : Eff σ ε α) (Q : α → σ → Prop) (E : ε → σ → Prop) : Prop :=
  ∀ s, P s → match exec x s with
    | (.ok a, t) => Q a t
    | (.error e, t) => E e t

namespace Triple

variable {P : σ → Prop} {Q : α → σ → Prop} {R : β → σ → Prop} {E : ε → σ → Prop}

/-- The meaning of a promise. -/
theorem of_exec {x : Eff σ ε α} (h : ∀ s, P s → match exec x s with
    | (.ok a, t) => Q a t
    | (.error e, t) => E e t) : Triple P x Q E := h

/-- A triple, read at one state. -/
theorem exec_of {x : Eff σ ε α} (h : Triple P x Q E) {s : σ} (hs : P s) : match exec x s with
    | (.ok a, t) => Q a t
    | (.error e, t) => E e t := h s hs

/-- A triple, read at a success. -/
theorem ok_of {x : Eff σ ε α} (h : Triple P x Q E) {s t : σ} {a : α} (hs : P s)
    (hx : exec x s = (.ok a, t)) : Q a t := by
  have h := h s hs
  rw [hx] at h
  exact h

theorem ret {a : α} (h : ∀ s, P s → Q a s) : Triple P (pure a) Q E := h

theorem raise {e : ε} (h : ∀ s, P s → E e s) : Triple P (throw e : Eff σ ε α) Q E := h

theorem write {f : σ → σ} {Q : PUnit → σ → Prop} (h : ∀ s, P s → Q ⟨⟩ (f s)) :
    Triple P (modify f : Eff σ ε PUnit) Q E := h

/-- **Sequencing.** -/
theorem bind {x : Eff σ ε α} {f : α → Eff σ ε β} (hx : Triple P x Q E)
    (hf : ∀ a, Triple (Q a) (f a) R E) : Triple P (x >>= f) R E := by
  intro s hs
  have h := hx s hs
  rw [exec_bind]
  rcases hxs : exec x s with ⟨e | a, t⟩ <;> rw [hxs] at h
  · exact h
  · exact hf a t h

/-- Reading the state hands it to the rest. -/
theorem read_bind {f : σ → Eff σ ε β} (h : ∀ s, P s → Triple (· = s) (f s) R E) :
    Triple P (get >>= f) R E := by
  intro s hs
  rw [exec_get_bind]
  exact h s hs s rfl

theorem check_bind {ε' : Type} {embed : ε' → ε} {r : Except ε' α} {f : α → Eff σ ε β}
    (hok : ∀ a, r = .ok a → Triple P (f a) R E)
    (herr : ∀ e, r = .error e → ∀ s, P s → E (embed e) s) :
    Triple P (check embed r >>= f) R E := by
  intro s hs
  cases r with
  | ok a => exact hok a rfl s hs
  | error e => exact herr e rfl s hs

theorem okOr_bind {o : Option α} {e : ε} {f : α → Eff σ ε β}
    (hsome : ∀ a, o = some a → Triple P (f a) R E) (hnone : o = none → ∀ s, P s → E e s) :
    Triple P (okOr o e >>= f) R E := by
  intro s hs
  cases o with
  | none => exact hnone rfl s hs
  | some a => exact hsome a rfl s hs

theorem refuse_bind {c : Prop} [Decidable c] {e : ε} {f : Unit → Eff σ ε β}
    (hneg : ¬ c → Triple P (f ()) R E) (hpos : c → ∀ s, P s → E e s) :
    Triple P (refuse c e >>= f) R E := by
  intro s hs
  by_cases hc : c
  · rw [exec_refuse_of_pos hc]
    exact hpos hc s hs
  · rw [exec_refuse_of_neg hc]
    exact hneg hc s hs

/-- Writing the state hands what is then known to the rest. -/
theorem write_bind {g : σ → σ} {J : σ → Prop} {f : PUnit → Eff σ ε β} (hf : Triple J (f ⟨⟩) R E)
    (h : ∀ s, P s → J (g s)) : Triple P (modify g >>= f) R E := by
  intro s hs
  rw [exec_modify_bind]
  exact hf (g s) (h s hs)

theorem branch {c : Prop} [Decidable c] {x y : Eff σ ε α} (hx : c → Triple P x Q E)
    (hy : ¬ c → Triple P y Q E) : Triple P (if c then x else y) Q E := by
  split
  · exact hx ‹_›
  · exact hy ‹_›

/-- Strengthen the precondition, weaken both exits. -/
theorem conseq {x : Eff σ ε α} {P' : σ → Prop} {Q' : α → σ → Prop} {E' : ε → σ → Prop}
    (h : Triple P x Q E) (hP : ∀ s, P' s → P s) (hQ : ∀ a s, Q a s → Q' a s)
    (hE : ∀ e s, E e s → E' e s) : Triple P' x Q' E' := by
  intro s hs
  have h := h s (hP s hs)
  rcases hxs : exec x s with ⟨e | a, t⟩ <;> rw [hxs] at h
  · exact hE e t h
  · exact hQ a t h

/-- A loop keeps what each of its rounds keeps, on every exit. -/
theorem mapM {f : α → Eff σ ε β} {I : σ → Prop}
    (h : ∀ a, Triple I (f a) (fun _ => I) (fun _ => I)) :
    ∀ l : List α, Triple I (l.mapM f) (fun _ => I) (fun _ => I)
  | [] => by
      rw [List.mapM_nil]
      exact ret fun _ hs => hs
  | a :: l => by
      rw [List.mapM_cons]
      exact (h a).bind fun _ => (mapM h l).bind fun _ => ret fun _ hs => hs

/-- What holds on both exits holds of the state left. -/
theorem final {x : Eff σ ε α} {I : σ → Prop} (h : Triple P x (fun _ => I) (fun _ => I)) {s : σ}
    (hs : P s) : I (exec x s).2 := by
  have h := h s hs
  rcases hxs : exec x s with ⟨e | a, t⟩ <;> rw [hxs] at h <;> exact h

end Triple

/-! ## What a computation keeps on every exit

An invariant is kept if every exit keeps it, errors included. -/

/-- **The computation keeps `I`**, whichever way it exits. -/
def Keeps (I : σ → Prop) (x : Eff σ ε α) : Prop := Triple I x (fun _ => I) (fun _ => I)

namespace Keeps

variable {I J : σ → Prop} {x : Eff σ ε α} {f : α → Eff σ ε β}

/-- An invariant as a triple. -/
theorem triple (h : Keeps I x) : Triple I x (fun _ => I) (fun _ => I) := h

/-- While the computation runs, a stronger condition may fall back to a weaker one on an error. -/
theorem triple_of (h : Keeps J x) (hJI : ∀ s, J s → I s) :
    Triple J x (fun _ => J) (fun _ => I) :=
  Triple.conseq h (fun _ hs => hs) (fun _ _ hs => hs) fun _ s hs => hJI s hs

theorem of_triple (h : Triple I x (fun _ => I) (fun _ => I)) : Keeps I x := h

theorem final (h : Keeps I x) {s : σ} (hs : I s) : I (exec x s).2 := Triple.final h hs

/-- The other way round. -/
theorem of_final (h : ∀ s, I s → I (exec x s).2) : Keeps I x := by
  intro s hs
  have ht := h s hs
  rcases hx : exec x s with ⟨e | a, t⟩ <;> rw [hx] at ht <;> exact ht

theorem ret (a : α) : Keeps I (pure a : Eff σ ε α) := Triple.ret fun _ hs => hs

theorem read : Keeps I (get : Eff σ ε σ) := fun _ hs => hs

theorem write {g : σ → σ} (h : ∀ s, I s → I (g s)) : Keeps I (modify g : Eff σ ε PUnit) :=
  Triple.write h

theorem bind (hx : Keeps I x) (hf : ∀ a, Keeps I (f a)) : Keeps I (x >>= f) := Triple.bind hx hf

/-- Reading the state hands it to the rest. -/
theorem read_bind {f : σ → Eff σ ε β}
    (h : ∀ s, I s → Triple (· = s) (f s) (fun _ => I) (fun _ => I)) : Keeps I (get >>= f) :=
  Triple.read_bind h

theorem checked {ε' : Type} (embed : ε' → ε) (r : Except ε' α) :
    Keeps I (check embed r : Eff σ ε α) := by
  cases r <;> exact fun _ hs => hs

theorem option (o : Option α) (e : ε) : Keeps I (okOr o e : Eff σ ε α) := by
  cases o <;> exact fun _ hs => hs

theorem refuse_bind {c : Prop} [Decidable c] {e : ε} {f : Unit → Eff σ ε β}
    (h : ¬ c → Keeps I (f ())) : Keeps I (refuse c e >>= f) :=
  Triple.refuse_bind h fun _ _ hs => hs

theorem branch {c : Prop} [Decidable c] {y : Eff σ ε α} (hx : c → Keeps I x)
    (hy : ¬ c → Keeps I y) : Keeps I (if c then x else y) := Triple.branch hx hy

/-- A loop keeps what each round keeps. -/
theorem forM {f : α → Eff σ ε Unit} (h : ∀ a, Keeps I (f a)) : ∀ l : List α, Keeps I (l.forM f)
  | [] => .ret _
  | a :: l => .bind (h a) fun _ => forM h l

/-- What is kept on every exit is kept on the normal one. -/
theorem weaken (h : Keeps I x) : Triple I x (fun _ => I) (fun _ _ => True) :=
  h.triple.conseq (fun _ hs => hs) (fun _ _ hs => hs) fun _ _ _ => trivial

end Keeps

/-! ## Computations on a part -/

section Zoom

variable {τ ε' : Type} {part : σ → τ} {put : σ → τ → σ} {embed : ε' → ε} {x : Eff τ ε' α}

/-- What a computation promises on a part of the state. -/
theorem Triple.zoom {P : σ → Prop} {Q : α → σ → Prop} {E : ε → σ → Prop} {P' : τ → Prop}
    {Q' : α → τ → Prop} {E' : ε' → τ → Prop} (h : Triple P' x Q' E') (hP : ∀ s, P s → P' (part s))
    (hQ : ∀ s a t, P s → Q' a t → Q a (put s t))
    (hE : ∀ s e t, P s → E' e t → E (embed e) (put s t)) :
    Triple P (Effect.zoom part put embed x) Q E := by
  refine Triple.of_exec fun s hs => ?_
  have hx := h.exec_of (hP s hs)
  rw [exec_zoom]
  rcases hxs : exec x (part s) with ⟨e | a, t⟩ <;> rw [hxs] at hx
  · exact hE s e t hs hx
  · exact hQ s a t hs hx

/-- What a computation keeps of a part, it keeps of the whole. -/
theorem Keeps.zoom {I : σ → Prop} {J : τ → Prop} (h : Keeps J x) (hI : ∀ s, I s → J (part s))
    (hput : ∀ s t, I s → J t → I (put s t)) : Keeps I (Effect.zoom part put embed x) :=
  .of_triple (h.triple.zoom hI (fun s _ t hs ht => hput s t hs ht) fun s _ t hs ht => hput s t hs ht)

/-- A computation on a part leaves alone what does not depend on the part. -/
theorem Keeps.zoom_of_put {I : σ → Prop} (hput : ∀ s t, I s → I (put s t)) :
    Keeps I (Effect.zoom part put embed x) :=
  .zoom (J := fun _ => True) (.of_final fun _ _ => trivial) (fun _ _ => trivial)
    fun s t hs _ => hput s t hs

end Zoom

-- proofs go through the rules; unfolding them by accident runs the computation
attribute [irreducible] Triple Keeps

end Effect
