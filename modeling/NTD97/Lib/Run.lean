import Mathlib

/-!
# Lib/Run — runs of a deterministic machine

    s ──op₁──▸ s₁ ──op₂──▸ s₂ ──…──▸ run step s ops

`StatesMeet` and `StepsMeet` say that every state, respectively every step, of a run has a
property.  `statesMeet_iff` is the rule an exact side condition goes through: when one step keeps
the invariant exactly if it meets the condition, so does a whole run.
-/

namespace Machine

variable {S Op : Type} {step : S → Op → S}

/-- The state a run ends in. -/
def run (step : S → Op → S) (s : S) (ops : List Op) : S := ops.foldl step s

@[simp] theorem run_nil (s : S) : run step s [] = s := rfl

@[simp] theorem run_cons (s : S) (op : Op) (ops : List Op) :
    run step s (op :: ops) = run step (step s op) ops := rfl

theorem run_append (s : S) (ops ops' : List Op) :
    run step s (ops ++ ops') = run step (run step s ops) ops' := List.foldl_append ..

/-- Every state a run passes through, its ends included, has the property. -/
def StatesMeet (step : S → Op → S) (I : S → Prop) : S → List Op → Prop
  | s, [] => I s
  | s, op :: ops => I s ∧ StatesMeet step I (step s op) ops

/-- Every step of a run meets the condition, read on the state before it. -/
def StepsMeet (step : S → Op → S) (C : S → Op → Prop) : S → List Op → Prop
  | _, [] => True
  | s, op :: ops => C s op ∧ StepsMeet step C (step s op) ops

variable {I : S → Prop} {C : S → Op → Prop}

/-- **Invariant rule.**  What a step keeps under the condition holds in every state of a run whose
steps all meet it. -/
theorem statesMeet_of_stepsMeet (hstep : ∀ s op, I s → C s op → I (step s op)) :
    ∀ (ops : List Op) (s : S), I s → StepsMeet step C s ops → StatesMeet step I s ops
  | [], _, hs, _ => hs
  | op :: ops, s, hs, ⟨hc, hrest⟩ =>
      ⟨hs, statesMeet_of_stepsMeet hstep ops (step s op) (hstep s op hs hc) hrest⟩

/-- **Exact side condition.**  When a step of a kind keeps the invariant `I` exactly if it meets the
condition, a run of such steps stays inside `I` exactly if all its steps meet it. -/
theorem statesMeet_iff_of_stepsMeet {Q : S → Op → Prop}
    (hstep : ∀ s op, I s → Q s op → (I (step s op) ↔ C s op)) :
    ∀ (ops : List Op) (s : S), I s → StepsMeet step Q s ops →
      (StatesMeet step I s ops ↔ StepsMeet step C s ops)
  | [], _, hs, _ => ⟨fun _ => trivial, fun _ => hs⟩
  | op :: ops, s, hs, ⟨hq, hqs⟩ => by
      refine ⟨fun ⟨_, hrest⟩ => ?_, fun ⟨hc, hrest⟩ => ?_⟩
      · have hnext : I (step s op) := by
          cases ops with
          | nil => exact hrest
          | cons op' ops => exact hrest.1
        exact ⟨(hstep s op hs hq).1 hnext,
          (statesMeet_iff_of_stepsMeet hstep ops _ hnext hqs).1 hrest⟩
      · have hnext : I (step s op) := (hstep s op hs hq).2 hc
        exact ⟨hs, (statesMeet_iff_of_stepsMeet hstep ops _ hnext hqs).2 hrest⟩

/-- What every step keeps holds before every step. -/
theorem stepsMeet_of_invariant {J : S → Prop} (hJ : ∀ s op, J s → J (step s op)) :
    ∀ (ops : List Op) (s : S), J s → StepsMeet step (fun s _ => J s) s ops
  | [], _, _ => trivial
  | op :: ops, s, hs => ⟨hs, stepsMeet_of_invariant hJ ops (step s op) (hJ s op hs)⟩

/-- The same where `J` is what every step keeps anyway. -/
theorem statesMeet_iff {J : S → Prop} (hJ : ∀ s op, J s → J (step s op))
    (hstep : ∀ s op, J s → I s → (I (step s op) ↔ C s op)) (ops : List Op) (s : S) (hj : J s)
    (hs : I s) : StatesMeet step I s ops ↔ StepsMeet step C s ops :=
  statesMeet_iff_of_stepsMeet (fun s op hs hj => hstep s op hj hs) ops s hs
    (stepsMeet_of_invariant hJ ops s hj)

theorem StatesMeet.mono {J : S → Prop} (hIJ : ∀ s, I s → J s) :
    ∀ {ops : List Op} {s : S}, StatesMeet step I s ops → StatesMeet step J s ops
  | [], s, h => hIJ s h
  | _ :: _, s, ⟨h, hrest⟩ => ⟨hIJ s h, hrest.mono hIJ⟩

/-- The last state of a run is one of its states. -/
theorem StatesMeet.last : ∀ {ops : List Op} {s : S}, StatesMeet step I s ops → I (run step s ops)
  | [], _, h => h
  | _ :: _, _, ⟨_, h⟩ => h.last

/-- A condition every step meets is met along every run. -/
theorem stepsMeet_of_forall (h : ∀ s op, C s op) :
    ∀ (ops : List Op) (s : S), StepsMeet step C s ops
  | [], _ => trivial
  | op :: ops, s => ⟨h s op, stepsMeet_of_forall h ops (step s op)⟩

/-- The steps of a run are those of its two parts. -/
theorem stepsMeet_append : ∀ {ops ops' : List Op} {s : S}, StepsMeet step C s (ops ++ ops') ↔
    StepsMeet step C s ops ∧ StepsMeet step C (run step s ops) ops'
  | [], _, _ => ⟨fun h => ⟨trivial, h⟩, fun h => h.2⟩
  | _ :: _, _, _ => (and_congr_right fun _ => stepsMeet_append).trans and_assoc.symm

/-- **Unconditional invariant rule.** -/
theorem invariant_run (hstep : ∀ s op, I s → I (step s op)) (ops : List Op) {s : S} (hs : I s) :
    I (run step s ops) :=
  (statesMeet_of_stepsMeet (C := fun _ _ => True) (fun s op hs _ => hstep s op hs) ops s hs
    (stepsMeet_of_forall (fun _ _ => trivial) ops s)).last

/-! ## What never changes again

`Onward R` relates every state of a run to every later one. -/

/-- Every state of the run is related to every later one. -/
def Onward (step : S → Op → S) (R : S → S → Prop) (s : S) (ops : List Op) : Prop :=
  ∀ before mid after, ops = before ++ mid ++ after → R (run step s before) (run step s (before ++ mid))

theorem onward_nil {R : S → S → Prop} (hrefl : ∀ s, R s s) {s : S} : Onward step R s [] := by
  intro before mid after h
  obtain ⟨hbm, -⟩ := List.append_eq_nil_iff.1 h.symm
  obtain ⟨rfl, rfl⟩ := List.append_eq_nil_iff.1 hbm
  exact hrefl s

/-- **Exact side condition of a preorder.**  When a step stays in the relation exactly if it meets
the condition, a run never leaves it exactly if all its steps meet it. -/
theorem onward_iff {J : S → Prop} {R : S → S → Prop} (hrefl : ∀ s, R s s)
    (htrans : ∀ a b c, R a b → R b c → R a c) (hJ : ∀ s op, J s → J (step s op))
    (hstep : ∀ s op, J s → (R s (step s op) ↔ C s op)) :
    ∀ (ops : List Op) (s : S), J s → (Onward step R s ops ↔ StepsMeet step C s ops)
  | [], _, _ => ⟨fun _ => trivial, fun _ => onward_nil hrefl⟩
  | op :: ops, s, hs => by
      have ih := onward_iff hrefl htrans hJ hstep ops (step s op) (hJ s op hs)
      constructor
      · intro h
        refine ⟨(hstep s op hs).1 (h [] [op] ops rfl), ih.1 fun before mid after heq => ?_⟩
        exact h (op :: before) mid after (by rw [heq]; rfl)
      · rintro ⟨hc, hrest⟩ before mid after heq
        have hops := ih.2 hrest
        cases before with
        | cons op' before =>
          obtain ⟨rfl, htail⟩ := List.cons.inj heq
          exact hops before mid after htail
        | nil =>
          cases mid with
          | nil => exact hrefl s
          | cons op' mid =>
            obtain ⟨rfl, htail⟩ := List.cons.inj heq
            exact htrans _ _ _ ((hstep s op hs).2 hc) (hops [] mid after htail)

/-! ## Histories

A history grows at its end.  `Always Q` reads a property of each event against the events before
it. -/

section Histories

variable {E : Type} {Q : List E → E → Prop} {t events : List E} {e : E}

/-- Every event of the history has the property, given the events before it. -/
def Always (Q : List E → E → Prop) (t : List E) : Prop :=
  ∀ before e after, t = before ++ e :: after → Q before e

theorem always_nil : Always Q [] := fun before e after h => by simp at h

/-- **One event more.** -/
theorem always_concat : Always Q (t ++ [e]) ↔ Always Q t ∧ Q t e := by
  constructor
  · intro h
    refine ⟨fun before x after heq => h before x (after ++ [e]) ?_, h t e [] rfl⟩
    rw [heq, List.append_assoc, List.cons_append]
  · rintro ⟨ht, he⟩ before x after heq
    rcases List.eq_nil_or_concat after with rfl | ⟨after, y, rfl⟩
    · obtain ⟨rfl, hx⟩ := List.append_inj' heq rfl
      exact List.cons.inj hx |>.1 ▸ he
    · rw [List.concat_eq_append, ← List.cons_append, ← List.append_assoc] at heq
      exact ht before x after (List.append_inj' heq rfl).1

/-- Events that have the property whatever came before. -/
theorem Always.append (ht : Always Q t) (hevents : ∀ e ∈ events, ∀ before, Q before e) :
    Always Q (t ++ events) := by
  induction events generalizing t with
  | nil => rwa [List.append_nil]
  | cons e events ih =>
    rw [List.append_cons]
    refine ih (always_concat.2 ⟨ht, hevents e (by simp) t⟩) fun x hx => hevents x (by simp [hx])

end Histories

end Machine
