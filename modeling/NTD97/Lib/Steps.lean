import Mathlib
import NTD97.Lib.Guard

/-!
# Lib/Steps — programs that make calls one at a time

    call c ──answer r──▸ call c' ──answer r'──▸ … ──▸ ret

A program does nothing by itself: it asks for a call, and goes on with the answer.  What a call may
answer and what it does to the state is a relation given from outside, so a program can be run to
its end, stopped between two calls, or interleaved with others.
-/

namespace Steps

open Guard

variable {C : Type} {R : C → Type} {S ε ε' α β : Type}

/-- **A program**: `R c` is what the call `c` may answer. -/
inductive Prog (R : C → Type) (ε α : Type) where
  | ret (r : Except ε α)
  | call (c : C) (k : R c → Prog R ε α)

namespace Prog

/-- Go on with the result of a program, unless it is an error. -/
def bind : Prog R ε α → (α → Prog R ε β) → Prog R ε β
  | .ret (.ok a), f => f a
  | .ret (.error e), _ => .ret (.error e)
  | .call c k, f => .call c fun r => (k r).bind f

instance : Monad (Prog R ε) where
  pure a := .ret (.ok a)
  bind := Prog.bind

instance : MonadExcept ε (Prog R ε) where
  throw e := .ret (.error e)
  tryCatch x handle := go x handle
where
  /-- Go on with the error of a program. -/
  go {α : Type} : Prog R ε α → (ε → Prog R ε α) → Prog R ε α
    | .ret (.ok a), _ => .ret (.ok a)
    | .ret (.error e), handle => handle e
    | .call c k, handle => .call c fun r => go (k r) handle

/-- The result of a program, be it an error. -/
def attempt : Prog R ε α → Prog R ε' (Except ε α)
  | .ret r => .ret (.ok r)
  | .call c k => .call c fun r => (k r).attempt

/-- A result that needs no call. -/
def check (r : Except ε α) : Prog R ε α := .ret r

theorem pure_bind (a : α) (f : α → Prog R ε β) : (pure a : Prog R ε α) >>= f = f a := rfl

theorem check_ok_bind (a : α) (f : α → Prog R ε β) : (check (.ok a) : Prog R ε α) >>= f = f a := rfl

theorem check_error_bind (e : ε) (f : α → Prog R ε β) :
    (check (.error e) : Prog R ε α) >>= f = .ret (.error e) := rfl

theorem throw_bind (e : ε) (f : α → Prog R ε β) :
    (throw e : Prog R ε α) >>= f = .ret (.error e) := rfl

theorem call_bind (c : C) (k : R c → Prog R ε α) (f : α → Prog R ε β) :
    (Prog.call c k) >>= f = .call c fun r => k r >>= f := rfl

theorem refuse_bind {c : Prop} [Decidable c] {e : ε} (f : Unit → Prog R ε α) :
    (refuse c e : Prog R ε Unit) >>= f = if c then .ret (.error e) else f () := by
  rw [refuse]
  split <;> rfl

end Prog

/-! ## Runs -/

/-- What a call may answer, and the state it leaves. -/
abbrev Does (R : C → Type) (S : Type) := (c : C) → S → R c → S → Prop

/-- A call and its answer. -/
abbrev Called (R : C → Type) := Σ c : C, R c

/-- **Some steps of a program**, with what was called; the program that is left may be stopped here
for good. -/
inductive Run (does : Does R S) : S → Prog R ε α → List (Called R) → S → Prog R ε α → Prop
  | stop (s : S) (p : Prog R ε α) : Run does s p [] s p
  | step {s s₁ s' : S} {c : C} {k : R c → Prog R ε α} {r : R c} {p : Prog R ε α}
      {events : List (Called R)} (h : does c s r s₁) (rest : Run does s₁ (k r) events s' p) :
      Run does s (.call c k) (⟨c, r⟩ :: events) s' p

variable {does : Does R S} {P : C → S → Prop} {Q Q' : Except ε α → S → Prop}

/-- A finished program makes no step. -/
theorem run_ret {s s' : S} {r : Except ε α} {p : Prog R ε α} {events : List (Called R)}
    (h : Run does s (.ret r) events s' p) : s' = s ∧ p = .ret r ∧ events = [] := by
  cases h
  exact ⟨rfl, rfl, rfl⟩

/-- A run whose events all meet a condition is a run of the calls that meet it. -/
theorem Run.restrict {P : Called R → Prop} {s s' : S} {p p' : Prog R ε α} {events : List (Called R)}
    (h : Run does s p events s' p') (hevents : ∀ e ∈ events, P e) :
    Run (fun c s r s' => does c s r s' ∧ P ⟨c, r⟩) s p events s' p' := by
  induction h with
  | stop => exact .stop _ _
  | step hdoes _ ih =>
    obtain ⟨hevent, hrest⟩ := List.forall_mem_cons.1 hevents
    exact .step ⟨hdoes, hevent⟩ (ih hrest)

/-- What a call may do may be more. -/
theorem Run.mono {does' : Does R S} (hdoes : ∀ c s r s', does c s r s' → does' c s r s') {s s' : S}
    {p p' : Prog R ε α} {events : List (Called R)} (h : Run does s p events s' p') :
    Run does' s p events s' p' := by
  induction h with
  | stop => exact .stop _ _
  | step h _ ih => exact .step (hdoes _ _ _ _ h) ih

/-- **A run up to the first event of a kind, that event, and the run after it.** -/
theorem Run.split {P : Called R → Prop} {s s' : S} {p p' : Prog R ε α} {events : List (Called R)}
    (h : Run does s p events s' p') (hevents : ¬ ∀ e ∈ events, ¬ P e) :
    ∃ before event after s₁ s₂ k, Run does s p before s₁ (.call event.1 k) ∧
      (∀ e ∈ before, ¬ P e) ∧ P event ∧ does event.1 s₁ event.2 s₂ ∧
      Run does s₂ (k event.2) after s' p' := by
  induction h with
  | stop => exact absurd (fun _ he => absurd he List.not_mem_nil) hevents
  | @step s s₁ s' c k r p events hdoes rest ih =>
    by_cases hP : P ⟨c, r⟩
    · exact ⟨[], ⟨c, r⟩, events, s, s₁, k, .stop _ _, by simp, hP, hdoes, rest⟩
    · obtain ⟨before, event, after, s₂, s₃, k', hbefore, hnone, hrest⟩ :=
        ih fun hall => hevents (List.forall_mem_cons.2 ⟨hP, hall⟩)
      exact ⟨_, event, after, s₂, s₃, k', .step hdoes hbefore,
        List.forall_mem_cons.2 ⟨hP, hnone⟩, hrest⟩

/-! ## What the calls of a program can be -/

/-- Whatever the answers are, every call is `P`. -/
def Calls (P : C → Prop) : Prog R ε α → Prop
  | .ret _ => True
  | .call c k => P c ∧ ∀ r, Calls P (k r)

/-- Whatever the answers are, the calls behind one that is `P` are all `Q`. -/
def Then (P Q : C → Prop) : Prog R ε α → Prop
  | .ret _ => True
  | .call c k => (P c → ∀ r, Calls Q (k r)) ∧ ∀ r, Then P Q (k r)

section Calls

variable {P Q : C → Prop}

theorem Calls.pure {a : α} : Calls P (Pure.pure a : Prog R ε α) := trivial

theorem Calls.check {r : Except ε α} : Calls P (Prog.check r : Prog R ε α) := trivial

theorem Calls.bind {f : α → Prog R ε β} (hf : ∀ a, Calls P (f a)) : ∀ {p : Prog R ε α},
    Calls P p → Calls P (p >>= f)
  | .ret (.ok a), _ => hf a
  | .ret (.error _), _ => trivial
  | .call _ _, h => ⟨h.1, fun r => (h.2 r).bind hf⟩

theorem Calls.refuse {c : Prop} [Decidable c] {e : ε} : Calls P (refuse c e : Prog R ε Unit) := by
  unfold Guard.refuse
  split <;> exact trivial

theorem Calls.forM {γ : Type} {f : γ → Prog R ε PUnit} : ∀ {l : List γ},
    (∀ x ∈ l, Calls P (f x)) → Calls P (l.forM f)
  | [], _ => trivial
  | _ :: _, h => .bind (fun _ => Calls.forM fun y hy => h y (List.mem_cons_of_mem _ hy))
      (h _ List.mem_cons_self)

/-- A program whose calls leave the state alone leaves it alone, wherever it is stopped. -/
theorem Calls.run_eq (hquiet : ∀ c s r s', P c → does c s r s' → s' = s) {s s' : S}
    {p p' : Prog R ε α} {events : List (Called R)} (h : Calls P p)
    (hrun : Run does s p events s' p') : s' = s := by
  induction hrun with
  | stop => rfl
  | step hdoes _ ih => exact (ih (h.2 _)).trans (hquiet _ _ _ _ h.1 hdoes)

/-- Calls that are all `Q` are so behind any call. -/
theorem Then.of_calls : ∀ {p : Prog R ε α}, Calls Q p → Then P Q p
  | .ret _, _ => trivial
  | .call _ _, h => ⟨fun _ => h.2, fun r => Then.of_calls (h.2 r)⟩

/-- A first part without `P`. -/
theorem Then.bind {f : α → Prog R ε β} (hf : ∀ a, Then P Q (f a)) : ∀ {p : Prog R ε α},
    Calls (fun c => ¬ P c) p → Then P Q (p >>= f)
  | .ret (.ok a), _ => hf a
  | .ret (.error _), _ => trivial
  | .call _ _, h => ⟨fun hP => absurd hP h.1, fun r => Then.bind hf (h.2 r)⟩

/-- A last part whose calls are all `Q`. -/
theorem Then.bind_calls {f : α → Prog R ε β} (hf : ∀ a, Calls Q (f a)) : ∀ {p : Prog R ε α},
    Then P Q p → Then P Q (p >>= f)
  | .ret (.ok a), _ => Then.of_calls (hf a)
  | .ret (.error _), _ => trivial
  | .call _ _, h => ⟨fun hP r => Calls.bind hf (h.1 hP r), fun r => Then.bind_calls hf (h.2 r)⟩

/-- A run goes on as it may. -/
theorem Then.run {s s' : S} {p p' : Prog R ε α} {events : List (Called R)} (h : Then P Q p)
    (hrun : Run does s p events s' p') : Then P Q p' := by
  induction hrun with
  | stop => exact h
  | step _ _ ih => exact ih (h.2 _)

end Calls

/-! ## What holds of all runs -/

/-- **Every call of every run is `P`, and every run that ends, ends in `Q`.** -/
def Meets (does : Does R S) (P : C → S → Prop) (Q : Except ε α → S → Prop) :
    Prog R ε α → S → Prop
  | .ret r, s => Q r s
  | .call c k, s => P c s ∧ ∀ r s', does c s r s' → Meets does P Q (k r) s'

namespace Meets

theorem pure {a : α} {s : S} (h : Q (.ok a) s) : Meets does P Q (Pure.pure a) s := h

theorem throw {e : ε} {s : S} (h : Q (.error e) s) :
    Meets does P Q (MonadExcept.throw e : Prog R ε α) s := h

/-- What holds in the end may be weakened. -/
theorem imp : ∀ {p : Prog R ε α} {s : S}, Meets does P Q p s → (∀ r s, Q r s → Q' r s) →
    Meets does P Q' p s
  | .ret r, s, h, himp => himp r s h
  | .call _ _, _, h, himp => ⟨h.1, fun r s' hdoes => (h.2 r s' hdoes).imp himp⟩

/-- What holds before the calls may be weakened. -/
theorem weaken {P' : C → S → Prop} : ∀ {p : Prog R ε α} {s : S}, Meets does P Q p s →
    (∀ c s, P c s → P' c s) → Meets does P' Q p s
  | .ret _, _, h, _ => h
  | .call c _, s, h, hP => ⟨hP c s h.1, fun r s' hdoes => (h.2 r s' hdoes).weaken hP⟩

/-- A program of which nothing is asked. -/
theorem trivial : ∀ {p : Prog R ε α} {s : S}, (∀ r s, Q r s) → Meets does (fun _ _ => True) Q p s
  | .ret r, s, hQ => hQ r s
  | .call _ _, _, hQ => ⟨True.intro, fun _ _ _ => Meets.trivial hQ⟩

/-- What a program goes on with starts where it ends. -/
def thenMeets (does : Does R S) (P : C → S → Prop) (Q : Except ε β → S → Prop)
    (f : α → Prog R ε β) : Except ε α → S → Prop
  | .ok a, s => Meets does P Q (f a) s
  | .error e, s => Q (.error e) s

/-- Go on with a result. -/
theorem goOn {Q : Except ε β → S → Prop} {f : α → Prog R ε β} {a : α} {s : S}
    (h : Meets does P Q (f a) s) : thenMeets does P Q f (.ok a) s := h

/-- **One program after another.** -/
theorem bind {Q : Except ε β → S → Prop} {f : α → Prog R ε β} : ∀ {p : Prog R ε α} {s : S},
    Meets does P (thenMeets does P Q f) p s → Meets does P Q (p >>= f) s
  | .ret (.ok _), _, h => h
  | .ret (.error _), _, h => h
  | .call _ _, _, h => ⟨h.1, fun r s' hdoes => bind (h.2 r s' hdoes)⟩

theorem check {r : Except ε α} {s : S} (h : Q r s) : Meets does P Q (Prog.check r) s := h

theorem refuse {c : Prop} [Decidable c] {e : ε} {Q : Except ε Unit → S → Prop} {s : S}
    (hyes : c → Q (.error e) s) (hno : ¬ c → Q (.ok ()) s) :
    Meets does P Q (Guard.refuse c e) s := by
  unfold Guard.refuse
  split
  · next hc => exact hyes hc
  · next hc => exact hno hc

/-- `I` as long as nothing fails. -/
def unlessFailed (I : S → Prop) (Q : Except ε PUnit → S → Prop) : Except ε PUnit → S → Prop
  | .ok _, s => I s
  | .error e, s => Q (.error e) s

/-- A program that goes through a list. -/
theorem forM {γ : Type} {f : γ → Prog R ε PUnit} {Q : Except ε PUnit → S → Prop} {I : S → Prop}
    (hend : ∀ s, I s → Q (.ok ⟨⟩) s) :
    ∀ {l : List γ} {s : S}, I s →
      (∀ x ∈ l, ∀ s, I s → Meets does P (unlessFailed I Q) (f x) s) →
      Meets does P Q (l.forM f) s
  | [], s, hs, _ => hend s hs
  | x :: l, s, hs, h => by
      refine bind ((h x List.mem_cons_self s hs).imp fun r s' hr => ?_)
      cases r with
      | error e => exact hr
      | ok a => exact forM hend hr fun y hy => h y (List.mem_cons_of_mem x hy)

/-- **A run keeps to it**, wherever it is stopped. -/
theorem run : ∀ {p p' : Prog R ε α} {s s' : S} {events : List (Called R)},
    Meets does P Q p s → Run does s p events s' p' → Meets does P Q p' s' := by
  intro p p' s s' events h hrun
  induction hrun with
  | stop => exact h
  | step hdoes _ ih => exact ih (h.2 _ _ hdoes)

/-- **What holds before every call and in the end holds wherever a run is stopped.** -/
theorem always {I : S → Prop} {p p' : Prog R ε α} {s s' : S} {events : List (Called R)}
    (h : Meets does P Q p s) (hP : ∀ c s, P c s → I s) (hQ : ∀ r s, Q r s → I s)
    (hrun : Run does s p events s' p') : I s' := by
  have hleft := h.run hrun
  cases p' with
  | ret r => exact hQ r s' hleft
  | call c k => exact hP c s' hleft.1

/-- **A run that ends, ends in `Q`.** -/
theorem ends {p : Prog R ε α} {s s' : S} {events : List (Called R)} {r : Except ε α}
    (h : Meets does P Q p s) (hrun : Run does s p events s' (.ret r)) : Q r s' := h.run hrun

/-- **The next call of a run is `P`.** -/
theorem next {p : Prog R ε α} {s s' : S} {events : List (Called R)} {c : C} {k : R c → Prog R ε α}
    (h : Meets does P Q p s) (hrun : Run does s p events s' (.call c k)) : P c s' :=
  (h.run hrun).1

end Meets

/-! ## Undisturbed runs -/

/-- Run a program to its end, every call answered by a function. -/
def execute (answer : (c : C) → S → R c × S) : Prog R ε α → S → Except ε α × S
  | .ret r, s => (r, s)
  | .call c k, s => execute answer (k (answer c s).1) (answer c s).2

section Execute

variable {answer : (c : C) → S → R c × S}

@[simp] theorem execute_pure (a : α) (s : S) :
    execute answer (Pure.pure a : Prog R ε α) s = (.ok a, s) := rfl

@[simp] theorem execute_throw (e : ε) (s : S) :
    execute answer (throw e : Prog R ε α) s = (.error e, s) := rfl

@[simp] theorem execute_check (r : Except ε α) (s : S) :
    execute answer (Prog.check r : Prog R ε α) s = (r, s) := rfl

@[simp] theorem execute_call (c : C) (k : R c → Prog R ε α) (s : S) :
    execute answer (.call c k) s = execute answer (k (answer c s).1) (answer c s).2 := rfl

theorem execute_bind {f : α → Prog R ε β} : ∀ (p : Prog R ε α) (s : S),
    execute answer (p >>= f) s = match execute answer p s with
      | (.ok a, t) => execute answer (f a) t
      | (.error e, t) => (.error e, t)
  | .ret (.ok _), _ => rfl
  | .ret (.error _), _ => rfl
  | .call c k, s => execute_bind (k (answer c s).1) (answer c s).2

/-- A bind that succeeds. -/
theorem execute_bind_ok {f : α → Prog R ε β} {p : Prog R ε α} {s t : S} {a : α}
    (h : execute answer p s = (.ok a, t)) :
    execute answer (p >>= f) s = execute answer (f a) t := by
  rw [execute_bind, h]

/-- A bind whose first part fails. -/
theorem execute_bind_error {f : α → Prog R ε β} {p : Prog R ε α} {s t : S} {e : ε}
    (h : execute answer p s = (.error e, t)) : execute answer (p >>= f) s = (.error e, t) := by
  rw [execute_bind, h]

/-- The result of a program, be it an error. -/
theorem execute_attempt : ∀ (p : Prog R ε α) (s : S),
    execute answer (p.attempt : Prog R ε' (Except ε α)) s =
      (.ok (execute answer p s).1, (execute answer p s).2)
  | .ret _, _ => rfl
  | .call c k, s => execute_attempt (k (answer c s).1) (answer c s).2

/-- The calls of an undisturbed run. -/
def calls (answer : (c : C) → S → R c × S) : Prog R ε α → S → List (Called R)
  | .ret _, _ => []
  | .call c k, s => ⟨c, (answer c s).1⟩ :: calls answer (k (answer c s).1) (answer c s).2

/-- An undisturbed run is a run. -/
theorem run_execute (hdoes : ∀ c s, does c s (answer c s).1 (answer c s).2) :
    ∀ (p : Prog R ε α) (s : S),
      Run does s p (calls answer p s) (execute answer p s).2 (.ret (execute answer p s).1)
  | .ret _, s => .stop s _
  | .call c k, s => .step (hdoes c s) (run_execute hdoes (k (answer c s).1) (answer c s).2)

/-- The calls of an undisturbed run are answered as they are. -/
theorem exists_of_mem_calls {answer : (c : C) → S → R c × S} {event : Called R} :
    ∀ {p : Prog R ε α} {s : S}, event ∈ calls answer p s → ∃ c t, event = ⟨c, (answer c t).1⟩
  | .ret _, _, h => absurd h List.not_mem_nil
  | .call c _, s, h => by
      rcases List.mem_cons.1 h with rfl | h
      · exact ⟨c, s, rfl⟩
      · exact exists_of_mem_calls h

/-- Some calls of an undisturbed run. -/
def advance (answer : (c : C) → S → R c × S) : ℕ → Prog R ε α → S → Prog R ε α × S
  | 0, p, s => (p, s)
  | _, .ret r, s => (.ret r, s)
  | n + 1, .call c k, s => advance answer n (k (answer c s).1) (answer c s).2

/-- They are a run, with the first calls of the whole one. -/
theorem run_advance (hdoes : ∀ c s, does c s (answer c s).1 (answer c s).2) :
    ∀ (n : ℕ) (p : Prog R ε α) (s : S),
      Run does s p ((calls answer p s).take n) (advance answer n p s).2 (advance answer n p s).1
  | 0, p, s => .stop s p
  | _ + 1, .ret _, s => .stop s _
  | n + 1, .call c k, s => .step (hdoes c s)
      (run_advance hdoes n (k (answer c s).1) (answer c s).2)

end Execute

/-! ## Programs that others may run between -/

/-- **What a program returns**, whatever states its calls find, as long as all of them meet `I`. -/
def Returns (answer : (c : C) → S → R c × S) (I : S → Prop) (r : Except ε α) : Prog R ε α → Prop
  | .ret r' => r' = r
  | .call c k => ∀ s, I s → Returns answer I r (k (answer c s).1)

theorem Returns.bind {answer : (c : C) → S → R c × S} {I : S → Prop} {f : α → Prog R ε β} {a : α}
    {r : Except ε β} (hf : Returns answer I r (f a)) : ∀ {p : Prog R ε α},
      Returns answer I (.ok a) p → Returns answer I r (p >>= f)
  | .ret _, h => by
      cases h
      exact hf
  | .call _ _, h => fun s hs => Returns.bind hf (h s hs)

/-! ## Interleaved runs -/

section Interleaved

variable {ι : Type} [DecidableEq ι]

/-- **Programs that take turns on one state.** -/
structure Threads (ι : Type) (R : C → Type) (S ε α : Type) where
  state : S
  programs : ι → Prog R ε α

/-- One call of one of the programs. -/
inductive Turn (does : Does R S) : Threads ι R S ε α → Called R → Threads ι R S ε α → Prop
  | call {threads : Threads ι R S ε α} {i : ι} {c : C} {k : R c → Prog R ε α} {r : R c} {s' : S}
      (hprogram : threads.programs i = .call c k) (hdoes : does c threads.state r s') :
      Turn does threads ⟨c, r⟩ ⟨s', Function.update threads.programs i (k r)⟩

/-- The states that are reached by turns that all meet a condition. -/
inductive Reached (does : Does R S) (condition : S → Called R → Prop) (start : Threads ι R S ε α) :
    Threads ι R S ε α → Prop
  | start : Reached does condition start start
  | turn {threads threads' : Threads ι R S ε α} {event : Called R}
      (before : Reached does condition start threads) (h : Turn does threads event threads')
      (hcondition : condition threads.state event) : Reached does condition start threads'

/-- A program that takes some turns while the others wait. -/
theorem Reached.of_run {condition : S → Called R → Prop} {start threads : Threads ι R S ε α} {i : ι}
    {p p' : Prog R ε α} {s' : S} {events : List (Called R)}
    (hreached : Reached does condition start threads) (hp : threads.programs i = p)
    (hrun : Run (fun c s r s' => does c s r s' ∧ condition s ⟨c, r⟩) threads.state p events s' p') :
    Reached does condition start ⟨s', Function.update threads.programs i p'⟩ := by
  obtain ⟨s, programs⟩ := threads
  change programs i = p at hp
  change Run _ s p events s' p' at hrun
  induction hrun generalizing programs with
  | stop s p =>
    rw [← hp, Function.update_eq_self]
    exact hreached
  | @step s s₁ s' c k r p events hdoes rest ih =>
    have hturn := ih (Function.update programs i (k r))
      (hreached.turn (.call (i := i) hp hdoes.1) hdoes.2) (Function.update_self ..)
    rwa [Function.update_idem] at hturn

/-- **Invariant rule**: what every turn keeps under the condition holds in every state reached. -/
theorem Reached.invariant {condition : S → Called R → Prop} {start threads : Threads ι R S ε α}
    {I : Threads ι R S ε α → Prop} (hreached : Reached does condition start threads)
    (hstart : I start)
    (hturn : ∀ threads event threads', I threads → Turn does threads event threads' →
      condition threads.state event → I threads') : I threads := by
  induction hreached with
  | start => exact hstart
  | turn _ h hcondition ih => exact hturn _ _ _ ih h hcondition

end Interleaved

end Steps
