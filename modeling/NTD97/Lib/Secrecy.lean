import Mathlib
import NTD97.Lib.Effect

/-!
# Lib/Secrecy — computations that tell nothing of the hidden part of a state

    s  ──x──▸ (a, t)
    R               R'        the answers are equal
    s' ──x──▸ (a, t')

A relation says which states differ only in what is hidden.  A computation is `Blind` to the hidden
part if any two related states make it answer alike, and it leaves them related, perhaps by another
relation.  The relation can hold an invariant as well, and the answers may be known to have a
property; the rules follow the binds.
-/

namespace Secrecy

open Guard Effect

variable {σ ε α β : Type}

/-- Run a computation to its end, and answer how it ended. -/
def attempt {ε' : Type} (x : Eff σ ε α) : Eff σ ε' (Except ε α) :=
  (fun s => (.ok (exec x s).1, (exec x s).2) : StateM σ (Except ε' (Except ε α)))

/-- What a computation keeps, it keeps when its error is an answer. -/
theorem keeps_attempt {ε' : Type} {I : σ → Prop} {x : Eff σ ε α} (h : Keeps I x) :
    Keeps I (attempt x : Eff σ ε' (Except ε α)) :=
  .of_final fun _ hs => h.final hs

/-- A call answers alike on two states, and leaves related ones. -/
def Agrees (R : σ → σ → Prop) (call : σ → α × σ) (s s' : σ) : Prop :=
  (call s).1 = (call s').1 ∧ R (call s).2 (call s').2

/-- A computation agrees where what is left of it agrees. -/
theorem Agrees.of_eq {R : σ → σ → Prop} {x y : Eff σ ε α} {s s' : σ} (hs : exec x s = exec y s)
    (hs' : exec x s' = exec y s') (h : Agrees R (exec y) s s') : Agrees R (exec x) s s' := by
  rw [Agrees, hs, hs']
  exact h

/-- **Sequencing** of two runs: an error ends both, and otherwise the rest starts alike. -/
theorem Agrees.bind {R : σ → σ → Prop} {x : Eff σ ε α} {f : α → Eff σ ε β} {s s' : σ}
    (hx : Agrees R (exec x) s s') (hf : ∀ a t t', exec x s = (.ok a, t) → exec x s' = (.ok a, t') →
      R t t' → Agrees R (exec (f a)) t t') : Agrees R (exec (x >>= f)) s s' := by
  obtain ⟨hanswer, hleft⟩ := hx
  rcases hrun : exec x s with ⟨answer, t⟩
  rcases hrun' : exec x s' with ⟨answer', t'⟩
  rw [hrun, hrun'] at hanswer hleft
  obtain rfl : answer = answer' := hanswer
  rw [Agrees, exec_bind, exec_bind, hrun, hrun']
  cases answer with
  | error e => exact ⟨rfl, hleft⟩
  | ok a => exact hf a t t' hrun hrun' hleft

/-- A call that tells nothing of what is hidden. -/
def BlindCall (R : σ → σ → Prop) (call : σ → α × σ) : Prop := ∀ s s', R s s' → Agrees R call s s'

/-- **A computation that tells nothing of what is hidden**: from states related by `R` it answers
alike, and leaves states related by `R'`. -/
def Blind (R R' : σ → σ → Prop) (x : Eff σ ε α) (Q : α → Prop) : Prop :=
  ∀ s s', R s s' → (exec x s).1 = (exec x s').1 ∧ R' (exec x s).2 (exec x s').2 ∧
    ∀ a, (exec x s).1 = .ok a → Q a

namespace Blind

variable {R R₁ R' : σ → σ → Prop} {Q : α → Prop} {P : β → Prop} {x : Eff σ ε α}
  {f : α → Eff σ ε β}

theorem ret {a : α} (h : Q a) : Blind R R (pure a : Eff σ ε α) Q := by
  refine fun s s' hR => ⟨rfl, hR, fun b hb => ?_⟩
  rw [← Except.ok.inj hb]
  exact h

theorem raise (e : ε) : Blind R R (throw e : Eff σ ε α) Q :=
  fun _ _ hR => ⟨rfl, hR, fun _ h => (nomatch h)⟩

/-- **Sequencing**, where the first part leaves states related by another relation. -/
theorem seq (hx : Blind R R₁ x Q) (hf : ∀ a, Q a → Blind R₁ R' (f a) P)
    (hle : ∀ s s', R₁ s s' → R' s s') : Blind R R' (x >>= f) P := by
  intro s s' hs
  obtain ⟨hanswer, hleft, hq⟩ := hx s s' hs
  rw [exec_bind, exec_bind]
  rcases hrun : exec x s with ⟨answer, t⟩
  rcases hrun' : exec x s' with ⟨answer', t'⟩
  rw [hrun, hrun'] at hanswer hleft
  rw [hrun] at hq
  obtain rfl : answer = answer' := hanswer
  cases answer with
  | error e => exact ⟨rfl, hle _ _ hleft, fun a ha => (nomatch ha)⟩
  | ok a => exact hf a (hq a rfl) t t' hleft

theorem bind (hx : Blind R R x Q) (hf : ∀ a, Q a → Blind R R (f a) P) : Blind R R (x >>= f) P :=
  seq hx hf fun _ _ h => h

/-- What is read must be put to the same use in related states. -/
theorem read_bind {f : σ → Eff σ ε α} (hsame : ∀ s s', R s s' → f s = f s')
    (h : ∀ s s', R s s' → Blind R R' (f s) Q) : Blind R R' (get >>= f) Q := by
  intro s s' hs
  rw [exec_get_bind, exec_get_bind, ← hsame s s' hs]
  exact h s s' hs s s' hs

/-- A write must leave related states. -/
theorem write {g : σ → σ} {Q : PUnit → Prop} (h : ∀ s s', R s s' → R' (g s) (g s')) (hQ : Q ⟨⟩) :
    Blind R R' (modify g : Eff σ ε PUnit) Q :=
  fun s s' hs => ⟨rfl, h s s' hs, fun _ _ => hQ⟩

theorem branch {c : Prop} [Decidable c] {y : Eff σ ε α} (hx : c → Blind R R' x Q)
    (hy : ¬ c → Blind R R' y Q) : Blind R R' (if c then x else y) Q := by
  by_cases hc : c
  · rw [if_pos hc]
    exact hx hc
  · rw [if_neg hc]
    exact hy hc

theorem checked {ε' : Type} {embed : ε' → ε} {r : Except ε' α} (h : ∀ a, r = .ok a → Q a) :
    Blind R R (check embed r) Q := by
  cases r with
  | error e => exact raise _
  | ok a => exact ret (h a rfl)

theorem option {o : Option α} {e : ε} (h : ∀ a, o = some a → Q a) :
    Blind R R (okOr o e : Eff σ ε α) Q := by
  cases o with
  | none => exact raise _
  | some a => exact ret (h a rfl)

theorem refuse_bind {c : Prop} [Decidable c] {e : ε} {f : Unit → Eff σ ε α}
    (h : ¬ c → Blind R R (f ()) Q) : Blind R R (refuse c e >>= f) Q := by
  intro s s' hs
  by_cases hc : c
  · rw [exec_refuse_of_pos hc, exec_refuse_of_pos hc]
    exact ⟨rfl, hs, fun _ h => (nomatch h)⟩
  · rw [exec_refuse_of_neg hc, exec_refuse_of_neg hc]
    exact h hc s s' hs

/-- **Loop rule.** -/
theorem forM {γ : Type} {f : γ → Eff σ ε PUnit} :
    ∀ {l : List γ}, (∀ c ∈ l, Blind R R (f c) (fun _ => True)) →
      Blind R R (l.forM f) (fun _ => True)
  | [], _ => .ret trivial
  | c :: l, h => by
      obtain ⟨hc, hl⟩ := List.forall_mem_cons.1 h
      exact .bind hc fun _ _ => forM hl

/-- Work on the state as a whole, under another name for its errors. -/
theorem embedded {ε' : Type} {embed : ε' → ε} {y : Eff σ ε' α} (h : Blind R R' y Q) :
    Blind R R' (zoom (fun s => s) (fun _ t => t) embed y) Q := by
  intro s s' hs
  obtain ⟨hanswer, hleft, hq⟩ := h s s' hs
  rw [exec_zoom, exec_zoom]
  refine ⟨by rw [hanswer], hleft, fun a ha => hq a ?_⟩
  cases hr : (exec y s).1 with
  | error e => rw [hr] at ha; exact (nomatch ha)
  | ok b => rw [hr] at ha; exact congrArg Except.ok (Except.ok.inj ha)

theorem attempted {ε' : Type} (h : Blind R R' x Q) :
    Blind R R' (attempt x : Eff σ ε' (Except ε α)) (fun _ => True) := by
  intro s s' hs
  obtain ⟨hanswer, hleft, -⟩ := h s s' hs
  exact ⟨congrArg Except.ok hanswer, hleft, fun _ _ => trivial⟩

/-- Work on one part of the state. -/
theorem on_part {τ ε' : Type} {part : σ → τ} {keep : σ → τ → σ} {embed : ε' → ε} {y : Eff τ ε' α}
    {S S' : τ → τ → Prop} (h : Blind S S' y Q) (hpart : ∀ s s', R s s' → S (part s) (part s'))
    (hput : ∀ s s' t t', R s s' → S' t t' → R' (keep s t) (keep s' t')) :
    Blind R R' (zoom part keep embed y) Q := by
  intro s s' hs
  obtain ⟨hanswer, hleft, hq⟩ := h (part s) (part s') (hpart s s' hs)
  rw [exec_zoom, exec_zoom]
  refine ⟨by rw [hanswer], hput s s' _ _ hs hleft, fun a ha => hq a ?_⟩
  cases hr : (exec y (part s)).1 with
  | error e => rw [hr] at ha; exact (nomatch ha)
  | ok b => rw [hr] at ha; exact congrArg Except.ok (Except.ok.inj ha)

/-- What a computation does on two related states. -/
theorem agrees (h : Blind R R' x Q) {s s' : σ} (hs : R s s') : Agrees R' (exec x) s s' :=
  ⟨(h s s' hs).1, (h s s' hs).2.1⟩

/-- A computation that keeps states related is a blind call. -/
theorem call (h : Blind R R x Q) : BlindCall R (exec x) := fun _ _ hs => h.agrees hs

/-- What two given states make a computation do. -/
theorem of_agrees (h : ∀ s s', R s s' → Agrees R' (exec x) s s') : Blind R R' x fun _ => True :=
  fun s s' hs => ⟨(h s s' hs).1, (h s s' hs).2, fun _ _ => trivial⟩

end Blind

end Secrecy
