import Mathlib
import NTD97.Lib.Guard

/-!
# Lib/Slices — code that indexes slices

    index ▪ slice ▪ set ▪ copy        out of bounds ──▸ panic

A computation answers, refuses, or panics.  `Safe x Q` says that it does not panic and that what it
answers has `Q`.  A loop that fills an array is safe if each write puts at a place the value meant
for that place (`Fills`), in whatever order the places come.  A vector panics too, when it is asked
for more room than the machine has (`PointerWidth.withCapacity`).
-/

namespace Slices

variable {ε α β σ γ : Type}

/-- A computation that may refuse, or panic. -/
abbrev Code (ε : Type) := ExceptT ε Option

/-- `l[i]` -/
def index (l : List α) (i : ℕ) : Code ε α := ExceptT.lift l[i]?

/-- `&l[start..stop]` -/
def slice (l : List α) (start stop : ℕ) : Code ε (List α) :=
  ExceptT.lift (if start ≤ stop ∧ stop ≤ l.length then some ((l.drop start).take (stop - start))
    else none)

/-- `l[i] = a` -/
def set (l : List α) (i : ℕ) (a : α) : Code ε (List α) :=
  ExceptT.lift (if i < l.length then some (l.set i a) else none)

/-- `l[start..stop].copy_from_slice(chunk)` -/
def copy (l : List α) (start stop : ℕ) (chunk : List α) : Code ε (List α) :=
  ExceptT.lift (if start ≤ stop ∧ stop ≤ l.length ∧ chunk.length = stop - start then
    some (l.take start ++ chunk ++ l.drop stop) else none)

/-- **No panic, and an answer that has `Q`.** -/
def Safe (x : Code ε α) (Q : α → Prop) : Prop := ∃ r, x.run = some r ∧ ∀ a, r = .ok a → Q a

namespace Safe

variable {x : Code ε α} {Q : α → Prop} {R : β → Prop}

theorem pure {a : α} (h : Q a) : Safe (pure a : Code ε α) Q :=
  ⟨.ok a, rfl, fun _ hb => Except.ok.inj hb ▸ h⟩

theorem throw {e : ε} : Safe (throw e : Code ε α) Q := ⟨.error e, rfl, fun _ h => nomatch h⟩

theorem bind {f : α → Code ε β} (h : Safe x Q) (hf : ∀ a, Q a → Safe (f a) R) :
    Safe (x >>= f) R := by
  obtain ⟨r, hr, hQ⟩ := h
  cases r with
  | error e =>
    refine ⟨.error e, ?_, fun _ h => nomatch h⟩
    rw [ExceptT.run_bind, hr]
    rfl
  | ok a =>
    obtain ⟨r, hfa, hR⟩ := hf a (hQ a rfl)
    refine ⟨r, ?_, hR⟩
    rw [ExceptT.run_bind, hr]
    exact hfa

theorem mono {Q' : α → Prop} (h : Safe x Q) (hQ : ∀ a, Q a → Q' a) : Safe x Q' := by
  obtain ⟨r, hr, hall⟩ := h
  exact ⟨r, hr, fun a ha => hQ a (hall a ha)⟩

/-- What only refuses does not panic. -/
theorem lift {y : Except ε α} (h : ∀ a, y = .ok a → Q a) : Safe (liftM y : Code ε α) Q :=
  ⟨y, rfl, h⟩

theorem refuse {c : Prop} [Decidable c] {e : ε} :
    Safe (Guard.refuse c e : Code ε Unit) fun _ => ¬ c := by
  rw [Guard.refuse]
  split
  · exact throw
  · exact pure ‹_›

theorem okOr {o : Option α} {e : ε} : Safe (Guard.okOr o e : Code ε α) fun a => o = some a := by
  cases o with
  | none => exact throw
  | some a => exact pure rfl

theorem ite {c : Prop} [Decidable c] {y : Code ε α} (hx : c → Safe x Q) (hy : ¬ c → Safe y Q) :
    Safe (if c then x else y) Q := by
  split
  · exact hx ‹_›
  · exact hy ‹_›

/-- What a safe computation answers. -/
theorem of_answer (h : Safe x Q) {a : α} (ha : x.run = some (.ok a)) : Q a := by
  obtain ⟨r, hr, hQ⟩ := h
  exact hQ a (Option.some.inj (hr.symm.trans ha))

theorem exists_run (h : Safe x Q) : ∃ r, x.run = some r := ⟨h.choose, h.choose_spec.1⟩

/-! ## In bounds -/

theorem index {l : List α} {i : ℕ} {d : α} (h : i < l.length) :
    Safe (Slices.index l i : Code ε α) (· = l.getD i d) := by
  refine ⟨.ok (l.getD i d), ?_, fun _ ha => (Except.ok.inj ha).symm⟩
  rw [List.getD_eq_getElem _ _ h, Slices.index, List.getElem?_eq_getElem h]
  rfl

theorem take_drop {l : List α} {start n : ℕ} (d : α) (h : start + n ≤ l.length) :
    (l.drop start).take n = (List.range n).map fun i => l.getD (start + i) d := by
  refine List.ext_getElem ?_ fun i hi _ => ?_
  · rw [List.length_take, List.length_drop, List.length_map, List.length_range]
    omega
  · rw [List.length_take, List.length_drop] at hi
    rw [List.getElem_take, List.getElem_drop, List.getElem_map, List.getElem_range,
      List.getD_eq_getElem _ _ (by omega)]

theorem slice {l : List α} {start n stop : ℕ} (d : α) (hstop : stop = start + n)
    (h : stop ≤ l.length) : Safe (Slices.slice l start stop : Code ε (List α))
      (· = (List.range n).map fun i => l.getD (start + i) d) := by
  subst hstop
  refine ⟨.ok ((l.drop start).take n), ?_, fun _ ha => ?_⟩
  · rw [Slices.slice, if_pos ⟨Nat.le_add_right _ _, h⟩, Nat.add_sub_cancel_left]
    rfl
  · rw [← Except.ok.inj ha]
    exact take_drop d h

/-! ## Loops -/

/-- A loop keeps what each of its turns keeps. -/
theorem foldlM {P : σ → Prop} {f : σ → γ → Code ε σ} : ∀ {l : List γ} {s : σ},
    (∀ a ∈ l, ∀ s, P s → Safe (f s a) P) → P s → Safe (l.foldlM f s) P
  | [], _, _, hs => pure hs
  | a :: l, s, h, hs => by
      rw [List.foldlM_cons]
      exact (h a List.mem_cons_self s hs).bind fun s' hs' =>
        foldlM (fun b hb => h b (List.mem_cons_of_mem _ hb)) hs'

/-- A loop over `0..n`, whose invariant counts the turns. -/
theorem range {I : ℕ → σ → Prop} {f : σ → ℕ → Code ε σ} {s : σ} : ∀ {n : ℕ},
    (∀ i < n, ∀ s, I i s → Safe (f s i) (I (i + 1))) → I 0 s →
      Safe ((List.range n).foldlM f s) (I n)
  | 0, _, hs => pure hs
  | n + 1, h, hs => by
      rw [List.range_succ, List.foldlM_append]
      refine (range (fun i hi => h i (hi.trans (Nat.lt_succ_self n))) hs).bind fun s' hs' => ?_
      rw [List.foldlM_cons]
      exact (h n (Nat.lt_succ_self n) s' hs').bind fun _ hs => pure hs

/-- A loop that appends to its output. -/
theorem flatMap {g : γ → List α} {f : List α → γ → Code ε (List α)} :
    ∀ {l : List γ} {out : List α}, (∀ a ∈ l, ∀ out, Safe (f out a) (· = out ++ g a)) →
      Safe (l.foldlM f out) (· = out ++ l.flatMap g)
  | [], _, _ => pure (List.append_nil _).symm
  | a :: l, out, h => by
      rw [List.foldlM_cons]
      refine (h a List.mem_cons_self out).bind fun s hs => ?_
      subst hs
      rw [List.flatMap_cons, ← List.append_assoc]
      exact flatMap fun b hb => h b (List.mem_cons_of_mem _ hb)

end Safe

/-- An answer of two steps is one of the second, from the answer of the first. -/
theorem run_bind_eq_ok {x : Code ε α} {f : α → Code ε β} {b : β} :
    (x >>= f).run = some (.ok b) ↔ ∃ a, x.run = some (.ok a) ∧ (f a).run = some (.ok b) := by
  rw [ExceptT.run_bind]
  rcases hx : x.run with _ | (e | a)
  · exact ⟨fun h => (nomatch h), fun ⟨_, h, _⟩ => (nomatch h)⟩
  · exact ⟨fun h => (nomatch Option.some.inj h), fun ⟨_, h, _⟩ => (nomatch Option.some.inj h)⟩
  · refine ⟨fun h => ⟨a, rfl, h⟩, fun ⟨_, h, hf⟩ => ?_⟩
    obtain rfl := Except.ok.inj (Option.some.inj h)
    exact hf

theorem run_bind_eq_error {x : Code ε α} {f : α → Code ε β} {e : ε} :
    (x >>= f).run = some (.error e) ↔
      x.run = some (.error e) ∨ ∃ a, x.run = some (.ok a) ∧ (f a).run = some (.error e) := by
  rw [ExceptT.run_bind]
  rcases hx : x.run with _ | (e' | a)
  · exact ⟨fun h => (nomatch h), fun h => h.elim (fun h => (nomatch h)) fun ⟨_, h, _⟩ => (nomatch h)⟩
  · refine ⟨fun h => .inl (congrArg _ (Except.error.inj (Option.some.inj h) ▸ rfl)), fun h => ?_⟩
    rcases h with h | ⟨_, h, _⟩
    · exact congrArg some (congrArg Except.error (Except.error.inj (Option.some.inj h)))
    · exact nomatch Option.some.inj h
  · refine ⟨fun h => .inr ⟨a, rfl, h⟩, fun h => ?_⟩
    rcases h with h | ⟨_, h, hf⟩
    · exact nomatch Option.some.inj h
    · obtain rfl := Except.ok.inj (Option.some.inj h)
      exact hf

/-- Two steps panic if one of them does. -/
theorem run_bind_eq_none {x : Code ε α} {f : α → Code ε β} :
    (x >>= f).run = none ↔ x.run = none ∨ ∃ a, x.run = some (.ok a) ∧ (f a).run = none := by
  rw [ExceptT.run_bind]
  rcases hx : x.run with _ | (e | a)
  · exact iff_of_true rfl (.inl rfl)
  · refine iff_of_false (fun h => nomatch h) fun h => ?_
    rcases h with h | ⟨_, h, _⟩
    · cases h
    · exact nomatch Option.some.inj h
  · refine ⟨fun h => .inr ⟨a, rfl, h⟩, fun h => ?_⟩
    rcases h with h | ⟨_, h, hf⟩
    · cases h
    · obtain rfl := Except.ok.inj (Option.some.inj h)
      exact hf

theorem run_okOr_eq_ok {o : Option α} {e : ε} {a : α} :
    (Guard.okOr o e : Code ε α).run = some (.ok a) ↔ o = some a := by
  cases o with
  | none => exact ⟨fun h => (nomatch Option.some.inj h), fun h => (nomatch h)⟩
  | some b => exact ⟨fun h => congrArg some (Except.ok.inj (Option.some.inj h)),
      fun h => congrArg (fun a => some (Except.ok a)) (Option.some.inj h)⟩

theorem run_liftM_eq_ok {y : Except ε α} {a : α} :
    (liftM y : Code ε α).run = some (.ok a) ↔ y = .ok a :=
  ⟨fun h => Option.some.inj h, fun h => congrArg some h⟩

theorem run_liftM_eq_error {y : Except ε α} {e : ε} :
    (liftM y : Code ε α).run = some (.error e) ↔ y = .error e :=
  ⟨fun h => Option.some.inj h, fun h => congrArg some h⟩

/-- Another name for its errors changes no answer. -/
theorem run_adapt_eq_ok {ε' : Type} {g : ε → ε'} {x : Code ε α} {a : α} :
    (ExceptT.adapt g x : Code ε' α).run = some (.ok a) ↔ x.run = some (.ok a) := by
  change (Except.mapError g <$> x.run) = _ ↔ _
  rcases x.run with _ | (e | b)
  · exact iff_of_false (fun h => nomatch h) (fun h => nomatch h)
  · exact iff_of_false (fun h => nomatch Option.some.inj h) (fun h => nomatch Option.some.inj h)
  · refine ⟨fun h => ?_, fun h => ?_⟩
    · obtain rfl := Except.ok.inj (Option.some.inj h)
      rfl
    · obtain rfl := Except.ok.inj (Option.some.inj h)
      rfl

theorem run_liftM_ne_none {y : Except ε α} : (liftM y : Code ε α).run ≠ none :=
  Option.some_ne_none y

/-! ## The machine

`usize` has the width of a pointer, and no vector holds more than `isize::MAX` bytes. -/

/-- How wide `usize` is. -/
structure PointerWidth where
  bits : ℕ
  bits_le : bits ≤ 64

namespace PointerWidth

def arm64V8a : PointerWidth := ⟨64, le_rfl⟩

def armeabiV7a : PointerWidth := ⟨32, by decide⟩

variable (w : PointerWidth)

/-- `isize::MAX`. -/
def isizeMax : ℕ := 2 ^ (w.bits - 1) - 1

/-- `usize::try_from`. -/
def toUsize (n : UInt64) : Option ℕ := if n.toNat < 2 ^ w.bits then some n.toNat else none

/-- `usize::checked_add`. -/
def checkedAdd (a b : ℕ) : Option ℕ := if a + b < 2 ^ w.bits then some (a + b) else none

/-- `Vec::with_capacity`, for elements of `size` bytes: more than `isize::MAX` bytes panic. -/
def withCapacity (size capacity : ℕ) : Code ε (List α) :=
  ExceptT.lift (if size * capacity ≤ w.isizeMax then some [] else none)

variable {w}

theorem isizeMax_lt : w.isizeMax < 2 ^ w.bits := by
  have hle : 2 ^ (w.bits - 1) ≤ 2 ^ w.bits := Nat.pow_le_pow_right Nat.two_pos (Nat.sub_le _ _)
  have hpos := Nat.two_pow_pos (w.bits - 1)
  rw [isizeMax]
  omega

theorem two_pow_bits_le : 2 ^ w.bits ≤ 2 ^ 64 := Nat.pow_le_pow_right Nat.two_pos w.bits_le

theorem toUsize_of_lt {n : UInt64} (h : n.toNat < 2 ^ w.bits) : w.toUsize n = some n.toNat :=
  if_pos h

theorem toUsize_of_le {n : UInt64} (h : 2 ^ w.bits ≤ n.toNat) : w.toUsize n = none :=
  if_neg (Nat.not_lt.2 h)

section Capacity

variable {size capacity : ℕ} {f : List α → Code ε β}

theorem run_withCapacity_bind_of_le (h : size * capacity ≤ w.isizeMax) :
    (w.withCapacity size capacity >>= f).run = (f []).run := by
  rw [withCapacity, if_pos h]
  rfl

theorem run_withCapacity_bind_of_lt (h : w.isizeMax < size * capacity) :
    (w.withCapacity size capacity >>= f).run = none := by
  rw [withCapacity, if_neg (Nat.not_le.2 h)]
  rfl

theorem run_withCapacity_bind_eq_ok {b : β} :
    (w.withCapacity size capacity >>= f).run = some (.ok b) ↔
      size * capacity ≤ w.isizeMax ∧ (f []).run = some (.ok b) := by
  rcases Nat.lt_or_ge w.isizeMax (size * capacity) with h | h
  · rw [run_withCapacity_bind_of_lt h]
    exact ⟨fun h => (nomatch h), fun hle => absurd hle.1 (Nat.not_le.2 h)⟩
  · rw [run_withCapacity_bind_of_le h, and_iff_right h]

end Capacity

end PointerWidth

/-! ## Filling an array -/

/-- `f` writes at every place of `D`, and at each place it writes the value `v` of that place. -/
def Fills (n : ℕ) (v : ℕ → α) (D : ℕ → Prop) (f : List α → Code ε (List α)) : Prop :=
  ∀ l, l.length = n → Safe (f l) fun l' => l'.length = n ∧
    (∀ j, D j → l'[j]? = some (v j)) ∧ ∀ j, l[j]? = some (v j) → l'[j]? = some (v j)

namespace Fills

variable {n : ℕ} {v : ℕ → α} {D E : ℕ → Prop} {f g : List α → Code ε (List α)}

theorem set {i : ℕ} {a : α} (hi : i < n) (ha : a = v i) :
    Fills n v (· = i) (fun l => (Slices.set l i a : Code ε (List α))) := by
  intro l hl
  refine ⟨.ok (l.set i a), ?_, fun l' hl' => ?_⟩
  · change (Slices.set l i a : Code ε (List α)).run = _
    rw [Slices.set, if_pos (hl ▸ hi)]
    rfl
  · obtain rfl := Except.ok.inj hl'
    have hwritten : (l.set i a)[i]? = some (v i) := by
      rw [List.getElem?_set_self (hl ▸ hi), ha]
    refine ⟨by rw [List.length_set, hl], fun j hj => hj ▸ hwritten, fun j hj => ?_⟩
    by_cases hji : i = j
    · exact hji ▸ hwritten
    · rw [List.getElem?_set_ne hji, hj]

theorem copy {start stop : ℕ} {chunk : List α} (hle : start ≤ stop) (hstop : stop ≤ n)
    (hlength : chunk.length = stop - start)
    (hchunk : ∀ k < stop - start, chunk[k]? = some (v (start + k))) :
    Fills n v (fun j => start ≤ j ∧ j < stop)
      (fun l => (Slices.copy l start stop chunk : Code ε (List α))) := by
  intro l hl
  refine ⟨.ok (l.take start ++ chunk ++ l.drop stop), ?_, fun l' hl' => ?_⟩
  · change (Slices.copy l start stop chunk : Code ε (List α)).run = _
    rw [Slices.copy, if_pos ⟨hle, hl ▸ hstop, hlength⟩]
    rfl
  · obtain rfl := Except.ok.inj hl'
    have htake : (l.take start).length = start := by
      rw [List.length_take]
      omega
    have hfront : (l.take start ++ chunk).length = stop := by
      rw [List.length_append]
      omega
    have hwritten (j : ℕ) (h : start ≤ j ∧ j < stop) :
        (l.take start ++ chunk ++ l.drop stop)[j]? = some (v j) := by
      rw [List.getElem?_append_left (hfront ▸ h.2), List.getElem?_append_right (by omega), htake,
        hchunk _ (by omega), Nat.add_sub_cancel' h.1]
    refine ⟨?_, hwritten, fun j hj => ?_⟩
    · rw [List.length_append, List.length_drop, hfront]
      omega
    by_cases hin : start ≤ j ∧ j < stop
    · exact hwritten j hin
    · rcases Nat.lt_or_ge j stop with hlt | hge
      · rw [List.getElem?_append_left (hfront ▸ hlt), List.getElem?_append_left (by omega),
          List.getElem?_take, if_pos (by omega), hj]
      · rw [List.getElem?_append_right (hfront ▸ hge), hfront, List.getElem?_drop,
          Nat.add_sub_cancel' hge, hj]

theorem mono (hf : Fills n v D f) (hE : ∀ j, E j → D j) : Fills n v E f :=
  fun l hl => (hf l hl).mono fun _ ⟨hl', hD, hkeep⟩ => ⟨hl', fun j hj => hD j (hE j hj), hkeep⟩

theorem comp (hf : Fills n v D f) (hg : Fills n v E g) :
    Fills n v (fun j => D j ∨ E j) fun l => f l >>= g := by
  refine fun l hl => (hf l hl).bind fun l' ⟨hl', hD, hkeep⟩ => ?_
  refine (hg l' hl').mono fun l'' ⟨hl'', hE, hkeep'⟩ => ⟨hl'', fun j hj => ?_, fun j hj => ?_⟩
  · exact hj.elim (fun h => hkeep' j (hD j h)) (hE j)
  · exact hkeep' j (hkeep j hj)

/-- **A loop whose turns fill an array fills it wherever one of them does.** -/
theorem foldlM {D : γ → ℕ → Prop} {f : List α → γ → Code ε (List α)} : ∀ {l : List γ},
    (∀ a ∈ l, Fills n v (D a) fun s => f s a) →
      Fills n v (fun j => ∃ a ∈ l, D a j) fun s => l.foldlM f s
  | [], _ => fun s hs => Safe.pure ⟨hs, by simp, fun _ h => h⟩
  | a :: l, h => by
      have hrest := foldlM fun b hb => h b (List.mem_cons_of_mem _ hb)
      refine fun s hs => ((h a List.mem_cons_self).comp hrest s hs).mono ?_
      rintro s' ⟨hs', hall, hkeep⟩
      refine ⟨hs', ?_, hkeep⟩
      rintro j ⟨b, hb, hj⟩
      rcases List.mem_cons.1 hb with rfl | hb
      · exact hall j (.inl hj)
      · exact hall j (.inr ⟨b, hb, hj⟩)

/-- An array that is filled at every place. -/
theorem full (hf : Fills n v D f) (hD : ∀ j < n, D j) {l : List α} (hl : l.length = n) :
    Safe (f l) (· = (List.range n).map v) := by
  refine (hf l hl).mono fun l' ⟨hl', hall, _⟩ => ?_
  refine List.ext_getElem? fun j => ?_
  rcases Nat.lt_or_ge j n with hj | hj
  · rw [hall j (hD j hj), List.getElem?_map, List.getElem?_range hj]
    rfl
  · rw [List.getElem?_eq_none (hl' ▸ hj), List.getElem?_eq_none (by simpa using hj)]

end Fills

/-! ## Blocks of one length -/

/-- Blocks of `m` elements, one after the other. -/
theorem flatMap_range {m : ℕ} (hm : 0 < m) (v : ℕ → ℕ → α) : ∀ n : ℕ,
    (List.range n).flatMap (fun i => (List.range m).map (v i)) =
      (List.range (n * m)).map fun e => v (e / m) (e % m)
  | 0 => by simp
  | n + 1 => by
      rw [List.range_succ, List.flatMap_append, flatMap_range hm v n, List.flatMap_singleton,
        Nat.succ_mul, List.range_add, List.map_append, List.map_map]
      congr 1
      refine List.map_congr_left fun k hk => ?_
      have hlt : k < m := List.mem_range.1 hk
      rw [Function.comp, Nat.mul_comm n m, Nat.mul_add_div hm, Nat.div_eq_of_lt hlt,
        Nat.mul_add_mod, Nat.mod_eq_of_lt hlt, Nat.add_zero]

/-- The element at a place, in an array whose elements are `width` wide. -/
def cell (width : ℕ) (l : List α) (i : ℕ) : List α := (l.drop (i * width)).take width

/-- A place within an array is within its cells. -/
theorem cell_le (width : ℕ) {n i : ℕ} (hi : i < n) : i * width + width ≤ n * width := by
  rw [← Nat.succ_mul]
  exact Nat.mul_le_mul_right _ hi

theorem length_cell {width n i : ℕ} {l : List α} (hl : l.length = n * width) (hi : i < n) :
    (cell width l i).length = width := by
  have hle := cell_le width hi
  rw [cell, List.length_take, List.length_drop]
  omega

theorem cell_eq {width n i : ℕ} {l : List α} (d : α) (hl : l.length = n * width) (hi : i < n) :
    cell width l i = (List.range width).map fun k => l.getD (i * width + k) d :=
  Safe.take_drop d (hl ▸ cell_le width hi)

/-- The cells of elements that are written one after the other. -/
theorem cell_flatMap {width : ℕ} {g : γ → List α} (hg : ∀ a, (g a).length = width) :
    ∀ {l : List γ} {i : ℕ} {a : γ}, l[i]? = some a → cell width (l.flatMap g) i = g a
  | b :: l, 0, a, h => by
      obtain rfl := Option.some.inj h
      rw [cell, List.flatMap_cons, Nat.zero_mul, List.drop_zero, List.take_left' (hg b)]
  | b :: l, i + 1, a, h => by
      have hrest := cell_flatMap hg (l := l) (i := i) h
      rw [cell, List.flatMap_cons, Nat.succ_mul, Nat.add_comm, ← List.drop_drop,
        List.drop_left' (hg b)]
      exact hrest

theorem map_range_add (v : ℕ → α) (n m : ℕ) : (List.range n).map v ++
    (List.range m).map (fun i => v (n + i)) = (List.range (n + m)).map v := by
  rw [List.range_add, List.map_append, List.map_map]
  rfl

end Slices
