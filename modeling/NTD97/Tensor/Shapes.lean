import Mathlib
import NTD97.Tensor

/-!
# Tensor/Shapes — shapes, and how many elements they have

A shape is accepted if no product of leading dimensions leaves a machine word, so a smaller leading
dimension is accepted too (`elementCountUsize_of_le`).
-/

namespace NTD97

open Guard

/-! ## Machine words -/

theorem checkedMulUsize_eq_some {a b n : ℕ} :
    checkedMulUsize a b = some n ↔ a * b < 2 ^ 64 ∧ a * b = n := by
  rw [checkedMulUsize, Option.ite_none_right_eq_some, Option.some.injEq]

theorem checkedAddUsize_eq_some {a b n : ℕ} :
    checkedAddUsize a b = some n ↔ a + b < 2 ^ 64 ∧ a + b = n := by
  rw [checkedAddUsize, Option.ite_none_right_eq_some, Option.some.injEq]

theorem foldlM_count : ∀ {shape : List ℕ} {count n : ℕ}, count < 2 ^ 64 →
    shape.foldlM (fun count dimension => okOr (checkedMulUsize count dimension) .invalidShape)
        count = (.ok n : Except TensorError ℕ) →
      n = count * shape.prod ∧ n < 2 ^ 64
  | [], count, n, hlt, h => by
      obtain rfl := pure_eq_ok.1 h
      exact ⟨by rw [List.prod_nil, Nat.mul_one], hlt⟩
  | dimension :: shape, count, n, hlt, h => by
      rw [List.foldlM_cons, bind_eq_ok] at h
      obtain ⟨next, hnext, hrest⟩ := h
      obtain ⟨hlt', rfl⟩ := checkedMulUsize_eq_some.1 (okOr_eq_ok.1 hnext)
      obtain ⟨rfl, hn⟩ := foldlM_count hlt' hrest
      exact ⟨by rw [List.prod_cons, Nat.mul_assoc], hn⟩

/-- Fewer elements before, fewer after. -/
theorem foldlM_count_of_le : ∀ {shape : List ℕ} {count small n : ℕ}, small ≤ count →
    shape.foldlM (fun count dimension => okOr (checkedMulUsize count dimension) .invalidShape)
        count = (.ok n : Except TensorError ℕ) →
      shape.foldlM (fun count dimension => okOr (checkedMulUsize count dimension) .invalidShape)
        small = (.ok (small * shape.prod) : Except TensorError ℕ)
  | [], count, small, n, hle, h => by
      rw [List.prod_nil, Nat.mul_one]
      rfl
  | dimension :: shape, count, small, n, hle, h => by
      rw [List.foldlM_cons, bind_eq_ok] at h ⊢
      obtain ⟨next, hnext, hrest⟩ := h
      obtain ⟨hlt, rfl⟩ := checkedMulUsize_eq_some.1 (okOr_eq_ok.1 hnext)
      have hle' : small * dimension ≤ count * dimension := Nat.mul_le_mul_right _ hle
      refine ⟨small * dimension, ?_, ?_⟩
      · exact okOr_eq_ok.2 (checkedMulUsize_eq_some.2 ⟨hle'.trans_lt hlt, rfl⟩)
      · rw [List.prod_cons, ← Nat.mul_assoc]
        exact foldlM_count_of_le hle' hrest

/-- The number of elements is the product of the dimensions, a machine word. -/
theorem elementCountUsize_eq {shape : List ℕ} {n : ℕ} (h : elementCountUsize shape = .ok n) :
    n = shape.prod ∧ n < 2 ^ 64 := by
  obtain ⟨hn, hlt⟩ := foldlM_count (by decide) h
  exact ⟨by rw [hn, Nat.one_mul], hlt⟩

/-- **A smaller leading dimension** leaves a shape acceptable. -/
theorem elementCountUsize_of_le {m n count : ℕ} {shape : List ℕ} (hle : m ≤ n)
    (h : elementCountUsize (n :: shape) = .ok count) :
    elementCountUsize (m :: shape) = .ok (m * shape.prod) := by
  rw [elementCountUsize, List.foldlM_cons, bind_eq_ok] at h ⊢
  obtain ⟨next, hnext, hrest⟩ := h
  obtain ⟨hlt, rfl⟩ := checkedMulUsize_eq_some.1 (okOr_eq_ok.1 hnext)
  rw [Nat.one_mul] at hlt hrest
  refine ⟨m, okOr_eq_ok.2 (checkedMulUsize_eq_some.2 ?_), foldlM_count_of_le hle hrest⟩
  rw [Nat.one_mul]
  exact ⟨hle.trans_lt hlt, rfl⟩

namespace Tensor

theorem length_data (t : Tensor) : t.data.length = t.shape.prod := (elementCountUsize_eq t.sized).1

theorem length_data_lt (t : Tensor) : t.data.length < 2 ^ 64 := (elementCountUsize_eq t.sized).2

/-- A tensor of a shape and its data. -/
theorem new_eq_ok {shape : List ℕ} {data : List F32} {t : Tensor} :
    Tensor.new shape data = .ok t ↔ t.shape = shape ∧ t.data = data := by
  constructor
  · intro h
    unfold Tensor.new at h
    split at h
    · exact nomatch h
    · split at h
      · obtain rfl := Except.ok.inj h
        exact ⟨rfl, rfl⟩
      · exact nomatch h
  · rintro ⟨rfl, rfl⟩
    unfold Tensor.new
    split
    · next e he => exact nomatch t.sized.symm.trans he
    · next n hn =>
      obtain rfl := Except.ok.inj (t.sized.symm.trans hn)
      rw [dif_pos rfl]

theorem map_get_range (t : Tensor) : (List.range t.data.length).map t.get = t.data := by
  refine List.ext_getElem (by simp) fun i hi hi' => ?_
  rw [List.getElem_map, List.getElem_range, get, List.getD_eq_getElem _ _ hi']

end Tensor

end NTD97
