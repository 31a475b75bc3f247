import Mathlib

/-!
# Lib/RowMajor — arrays of any rank, laid out row by row

    coordinates ──offset──▸ place ──digit──▸ coordinates

The last coordinate varies fastest, so the stride of an axis is the product of the dimensions behind
it.  Within a shape, `offset` and `digit` are inverse to each other; a permutation of the axes
permutes the strides with the coordinates.
-/

namespace RowMajor

variable {shape weights axes : List ℕ} {c d : ℕ → ℕ} {o : ℕ}

/-- The stride of each axis. -/
def strides : List ℕ → List ℕ
  | [] => []
  | _ :: shape => shape.prod :: strides shape

@[simp] theorem length_strides : ∀ shape : List ℕ, (strides shape).length = shape.length
  | [] => rfl
  | _ :: shape => congrArg (· + 1) (length_strides shape)

/-- The coordinates times the weights of their axes. -/
def weigh (c : ℕ → ℕ) : List ℕ → ℕ
  | [] => 0
  | w :: weights => c 0 * w + weigh (fun i => c (i + 1)) weights

/-- The place of an element. -/
def offset (shape : List ℕ) (c : ℕ → ℕ) : ℕ := weigh c (strides shape)

/-- Each coordinate is below the dimension of its axis. -/
def Within (shape : List ℕ) (c : ℕ → ℕ) : Prop := ∀ i n, shape[i]? = some n → c i < n

/-- The coordinates of a place. -/
def digit : List ℕ → ℕ → ℕ → ℕ
  | [], _, _ => 0
  | _ :: shape, o, 0 => o / shape.prod
  | _ :: shape, o, i + 1 => digit shape (o % shape.prod) i

theorem within_cons {n : ℕ} :
    Within (n :: shape) c ↔ c 0 < n ∧ Within shape fun i => c (i + 1) := by
  constructor
  · exact fun h => ⟨h 0 n rfl, fun i m hm => h (i + 1) m hm⟩
  · rintro ⟨hhead, htail⟩ (_ | i) m hm
    · exact Option.some.inj hm ▸ hhead
    · exact htail i m hm

/-! ## Within a shape -/

/-- **A place is in bounds.** -/
theorem offset_lt : ∀ {shape : List ℕ} {c : ℕ → ℕ}, Within shape c → offset shape c < shape.prod
  | [], _, _ => Nat.one_pos
  | n :: shape, c, h => by
      obtain ⟨hhead, htail⟩ := within_cons.1 h
      have hrest : offset shape (fun i => c (i + 1)) < shape.prod := offset_lt htail
      calc c 0 * shape.prod + offset shape (fun i => c (i + 1))
          < c 0 * shape.prod + shape.prod := Nat.add_lt_add_left hrest _
        _ = (c 0 + 1) * shape.prod := by ring
        _ ≤ n * shape.prod := Nat.mul_le_mul_right _ hhead
        _ = (n :: shape).prod := List.prod_cons.symm

theorem within_digit : ∀ {shape : List ℕ} {o : ℕ}, o < shape.prod → Within shape (digit shape o)
  | [], _, _ => fun i n h => by simp at h
  | n :: shape, o, h => by
      rw [List.prod_cons] at h
      have hpos : 0 < shape.prod := Nat.pos_of_ne_zero fun h0 => by simp [h0] at h
      refine within_cons.2 ⟨?_, within_digit (Nat.mod_lt o hpos)⟩
      exact (Nat.div_lt_iff_lt_mul hpos).2 h

theorem offset_digit : ∀ {shape : List ℕ} {o : ℕ}, o < shape.prod →
    offset shape (digit shape o) = o
  | [], o, h => by
      rw [List.prod_nil] at h
      change 0 = o
      omega
  | n :: shape, o, h => by
      rw [List.prod_cons] at h
      have hpos : 0 < shape.prod := Nat.pos_of_ne_zero fun h0 => by simp [h0] at h
      have hrest : offset shape (digit shape (o % shape.prod)) = o % shape.prod :=
        offset_digit (Nat.mod_lt o hpos)
      calc o / shape.prod * shape.prod + offset shape (digit shape (o % shape.prod))
          = shape.prod * (o / shape.prod) + o % shape.prod := by rw [hrest, Nat.mul_comm]
        _ = o := Nat.div_add_mod o shape.prod

theorem digit_offset : ∀ {shape : List ℕ} {c : ℕ → ℕ}, Within shape c →
    ∀ i < shape.length, digit shape (offset shape c) i = c i
  | [], _, _, i, hi => absurd hi (Nat.not_lt_zero i)
  | n :: shape, c, h, i, hi => by
      obtain ⟨-, htail⟩ := within_cons.1 h
      have hlt : offset shape (fun i => c (i + 1)) < shape.prod := offset_lt htail
      have hsplit : offset (n :: shape) c =
          shape.prod * c 0 + offset shape fun i => c (i + 1) := by
        rw [Nat.mul_comm]
        rfl
      have hpos : 0 < shape.prod := Nat.zero_lt_of_lt hlt
      rw [hsplit]
      cases i with
      | zero => rw [digit, Nat.mul_add_div hpos, Nat.div_eq_of_lt hlt, Nat.add_zero]
      | succ i =>
        rw [digit, Nat.mul_add_mod, Nat.mod_eq_of_lt hlt]
        exact digit_offset htail i (Nat.lt_of_succ_lt_succ hi)

/-! ## Permuted axes -/

/-- The axis that stands at each place, by the value of a list there. -/
def select (values axes : List ℕ) : List ℕ := axes.map (values.getD · 0)

@[simp] theorem length_select : (select weights axes).length = axes.length := List.length_map _

theorem weigh_congr : ∀ {weights : List ℕ} {c d : ℕ → ℕ}, (∀ i < weights.length, c i = d i) →
    weigh c weights = weigh d weights
  | [], _, _, _ => rfl
  | w :: weights, c, d, h => by
      rw [weigh, weigh, h 0 (Nat.zero_lt_succ _),
        weigh_congr fun i hi => h (i + 1) (Nat.succ_lt_succ hi)]

/-- Weights that are picked by axis: the sum over the axes. -/
theorem weigh_select : ∀ {axes : List ℕ} {c : ℕ → ℕ}, (∀ i a, axes[i]? = some a → d a = c i) →
    weigh c (select weights axes) = (axes.map fun a => d a * weights.getD a 0).sum
  | [], _, _ => rfl
  | a :: axes, c, h => by
      have hhead : d a = c 0 := h 0 a rfl
      have htail : weigh (fun i => c (i + 1)) (axes.map (weights.getD · 0)) = _ :=
        weigh_select fun i b hb => h (i + 1) b hb
      rw [select, List.map_cons, weigh, htail, List.map_cons, List.sum_cons, hhead]

theorem select_range (l : List ℕ) : select l (List.range l.length) = l := by
  refine List.ext_getElem (by simp [select]) fun i hi hi' => ?_
  simp [select, hi']

/-- **A permutation of the axes** leaves what the coordinates weigh unchanged. -/
theorem weigh_perm (hperm : axes.Perm (List.range weights.length))
    (h : ∀ i a, axes[i]? = some a → d a = c i) :
    weigh c (select weights axes) = weigh d weights := by
  have hrange : weigh d (select weights (List.range weights.length)) =
      ((List.range weights.length).map fun a => d a * weights.getD a 0).sum := by
    refine weigh_select fun i a ha => ?_
    obtain ⟨-, rfl⟩ := List.getElem?_eq_some_iff.1 ha
    rw [List.getElem_range]
  rw [select_range] at hrange
  rw [weigh_select h, hrange]
  exact (hperm.map _).sum_eq

theorem prod_select (hperm : axes.Perm (List.range shape.length)) :
    (select shape axes).prod = shape.prod := by
  conv_rhs => rw [← select_range shape]
  exact (hperm.map _).prod_eq

theorem getElem?_select (hperm : axes.Perm (List.range shape.length)) {i a : ℕ}
    (ha : axes[i]? = some a) : (select shape axes)[i]? = shape[a]? := by
  have hlt : a < shape.length := List.mem_range.1 (hperm.subset (List.mem_of_getElem? ha))
  rw [select, List.getElem?_map, ha, Option.map_some, List.getD_eq_getElem _ _ hlt,
    List.getElem?_eq_getElem hlt]

/-- A multi-index stays within the shape whose axes are permuted with it. -/
theorem within_select (hperm : axes.Perm (List.range shape.length))
    (h : ∀ i a, axes[i]? = some a → d a = c i) :
    Within (select shape axes) c ↔ Within shape d := by
  constructor
  · intro hc a n hn
    have hmem : a ∈ axes := hperm.mem_iff.2 (List.mem_range.2 (List.getElem?_eq_some_iff.1 hn).1)
    obtain ⟨i, hi⟩ := List.mem_iff_getElem?.1 hmem
    rw [h i a hi]
    exact hc i n ((getElem?_select hperm hi).trans hn)
  · intro hd i n hn
    have hlt : i < axes.length := by
      have := (List.getElem?_eq_some_iff.1 hn).1
      rwa [length_select] at this
    have ha : axes[i]? = some axes[i] := List.getElem?_eq_getElem hlt
    rw [← h i _ ha]
    exact hd _ n ((getElem?_select hperm ha).symm.trans hn)

end RowMajor
