import Mathlib
import NTD97.Lib.Effect

/-!
# Lib/Atomic — calls that fail without a trace

    Atomic x  :  an error exit leaves the state found
    Answers I x  :  from `I` there is no error exit, and `I` is kept

A computation is atomic when every exit on an error comes before the first write: checks first,
then writes that always answer.
-/

namespace Effect

variable {σ ε α β : Type}

/-- **A failure leaves no trace.** -/
def Atomic (x : Eff σ ε α) : Prop :=
  ∀ s, Triple (· = s) x (fun _ _ => True) (fun _ t => t = s)

/-- **The computation always answers** where `I` holds, and keeps it. -/
def Answers (I : σ → Prop) (x : Eff σ ε α) : Prop := Triple I x (fun _ => I) (fun _ _ => False)

namespace Answers

variable {I : σ → Prop} {x : Eff σ ε α} {f : α → Eff σ ε β}

theorem ret (a : α) : Answers I (pure a : Eff σ ε α) := Triple.ret fun _ hs => hs

theorem write {g : σ → σ} (h : ∀ s, I s → I (g s)) : Answers I (modify g : Eff σ ε PUnit) :=
  Triple.write h

theorem bind (hx : Answers I x) (hf : ∀ a, Answers I (f a)) : Answers I (x >>= f) :=
  Triple.bind hx hf

/-- A loop answers if each of its rounds does. -/
theorem mapM {g : α → Eff σ ε β} : ∀ {l : List α}, (∀ a ∈ l, Answers I (g a)) →
    Answers I (l.mapM g)
  | [], _ => by
      rw [List.mapM_nil]
      exact ret []
  | a :: l, h => by
      rw [List.mapM_cons]
      refine (h a List.mem_cons_self).bind fun b => ?_
      exact (mapM fun a ha => h a (List.mem_cons_of_mem _ ha)).bind fun bs => ret (b :: bs)

/-- It answers: there is a value. -/
theorem exists_ok (h : Answers I x) {s : σ} (hs : I s) : ∃ a, (exec x s).1 = .ok a := by
  have hexec := Triple.exec_of h hs
  rcases hx : exec x s with ⟨e | a, t⟩ <;> rw [hx] at hexec
  · exact hexec.elim
  · exact ⟨a, rfl⟩

theorem of_ok {a : α} (h : ∀ s, (exec x s).1 = .ok a) :
    Answers (fun _ => True) x := by
  refine Triple.of_exec fun s _ => ?_
  have hok := h s
  rcases hx : exec x s with ⟨e | b, t⟩ <;> rw [hx] at hok
  · exact nomatch hok
  · trivial

/-- What answers everywhere has no error exit. -/
theorem triple {P : σ → Prop} {E : ε → σ → Prop} (h : Answers (fun _ => True) x) :
    Triple P x (fun _ _ => True) E :=
  Triple.conseq h (fun _ _ => trivial) (fun _ _ _ => trivial) fun _ _ h => h.elim

end Answers

namespace Atomic

variable {x : Eff σ ε α} {f : α → Eff σ ε β}

theorem ret (a : α) : Atomic (pure a : Eff σ ε α) := fun _ => .ret fun _ _ => trivial

theorem raise (e : ε) : Atomic (throw e : Eff σ ε α) := fun _ => .raise fun _ hs => hs

theorem write (g : σ → σ) : Atomic (modify g : Eff σ ε PUnit) := fun _ => .write fun _ _ => trivial

/-- Writes that always answer leave no failure to undo. -/
theorem of_answers (h : Answers (fun _ => True) x) : Atomic x := fun _ => h.triple

/-- Writes that always answer may follow what is atomic. -/
theorem bind_answers (hx : Atomic x) (hf : ∀ a, Answers (fun _ => True) (f a)) :
    Atomic (x >>= f) := fun s => (hx s).bind fun a => (hf a).triple

/-- What only reads may come before what is atomic. -/
theorem bind (hx : ∀ s, Triple (· = s) x (fun _ t => t = s) (fun _ t => t = s))
    (hf : ∀ a, Atomic (f a)) : Atomic (x >>= f) := fun s => (hx s).bind fun a => hf a s

theorem read_bind {f : σ → Eff σ ε β} (h : ∀ t, Atomic (f t)) : Atomic (get >>= f) :=
  bind (fun _ => .of_exec fun _ hs => hs) h

theorem check_bind {ε' : Type} {embed : ε' → ε} {r : Except ε' α} (h : ∀ a, Atomic (f a)) :
    Atomic (check embed r >>= f) :=
  fun s => .check_bind (fun a _ => h a s) fun _ _ _ hs => hs

theorem okOr_bind {o : Option α} {e : ε} (h : ∀ a, Atomic (f a)) : Atomic (Guard.okOr o e >>= f) :=
  fun s => .okOr_bind (fun a _ => h a s) fun _ _ hs => hs

theorem refuse_bind {c : Prop} [Decidable c] {e : ε} {f : Unit → Eff σ ε β}
    (h : ¬ c → Atomic (f ())) : Atomic (Guard.refuse c e >>= f) :=
  fun s => .refuse_bind (fun hc => h hc s) fun _ _ hs => hs

/-- **An error exit leaves the state found.** -/
theorem final (h : Atomic x) {s t : σ} {e : ε} (hx : exec x s = (.error e, t)) : t = s := by
  have hexec := Triple.exec_of (h s) rfl
  rw [hx] at hexec
  exact hexec

end Atomic

end Effect
