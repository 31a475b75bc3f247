import Mathlib
import NTD97.Tensor.Kernels

/-!
# Tensor/Typed — kernels on shapes that match

A kernel answers if its inputs have the shapes that it asks for, no dimension is zero, and the
result is not too large; its result has the shape that follows.
-/

namespace NTD97

open Guard Slices

/-- Without an empty dimension, a product that fits a machine word fits at every step. -/
theorem foldlM_count_of_ne_zero : ∀ {shape : List ℕ} {count : ℕ}, (∀ d ∈ shape, d ≠ 0) →
    count * shape.prod < 2 ^ 64 →
      shape.foldlM (fun count dimension => okOr (checkedMulUsize count dimension) .invalidShape)
        count = (.ok (count * shape.prod) : Except TensorError ℕ)
  | [], count, _, _ => by
      rw [List.prod_nil, Nat.mul_one]
      rfl
  | d :: shape, count, hne, hlt => by
      obtain ⟨-, hrest⟩ := List.forall_mem_cons.1 hne
      rw [List.prod_cons, ← Nat.mul_assoc] at hlt ⊢
      have hpos : 0 < shape.prod :=
        Nat.pos_of_ne_zero (List.prod_ne_zero fun h0 => hrest 0 h0 rfl)
      have hle : count * d ≤ count * d * shape.prod := Nat.le_mul_of_pos_right _ hpos
      rw [List.foldlM_cons, bind_eq_ok]
      exact ⟨count * d, okOr_eq_ok.2 (checkedMulUsize_eq_some.2 ⟨hle.trans_lt hlt, rfl⟩),
        foldlM_count_of_ne_zero hrest hlt⟩

/-- A tensor of a shape and as many elements as it says. -/
theorem exists_tensor {shape : List ℕ} {data : List F32} (hne : ∀ d ∈ shape, d ≠ 0)
    (hlt : shape.prod < 2 ^ 64) (hlength : data.length = shape.prod) :
    ∃ u : Tensor, u.shape = shape ∧ u.data = data := by
  have hcount : elementCountUsize shape = .ok (1 * shape.prod) :=
    foldlM_count_of_ne_zero hne (by rwa [Nat.one_mul])
  rw [Nat.one_mul, ← hlength] at hcount
  exact ⟨⟨shape, data, hcount⟩, rfl, rfl⟩

/-- A tensor of the shape of another one. -/
theorem exists_like (x : Tensor) {data : List F32} (hlength : data.length = x.data.length) :
    ∃ u : Tensor, u.shape = x.shape ∧ u.data = data := ⟨⟨x.shape, data, hlength ▸ x.sized⟩, rfl, rfl⟩

namespace Kernel

variable {ops : F32Ops} {x y t : Tensor} {m n k w heads : ℕ}

theorem typed_matmul (hx : x.shape = [m, k]) (hy : y.shape = [k, n]) (hm : m ≠ 0) (hn : n ≠ 0)
    (hlt : m * n < 2 ^ 64) : ∃ u, matmul ops [x, y] = .ok u ∧ u.shape = [m, n] := by
  have hlength : ((List.range m).flatMap (productRow ops x y k n)).length = [m, n].prod := by
    rw [List.prod_pair]
    exact length_flatMap_range fun _ _ => length_productRow
  obtain ⟨u, hshape, hdata⟩ := exists_tensor (by simp [hm, hn]) (by rwa [List.prod_pair]) hlength
  exact ⟨u, matmul_eq_ok.2 ⟨m, k, n, hx, hy, hshape, hdata⟩, hshape⟩

/-- What the constant of a norm has to be. -/
structure IsEpsilon (ops : F32Ops) (t : Tensor) : Prop where
  shape : t.shape = []
  finite : ops.isFinite (t.get 0) = true
  positive : ops.le (t.get 0) F32.zero = false

theorem typed_rmsNorm (hx : x.shape = [m, w]) (hw : w ≠ 0) (hy : y.shape = [w])
    (ht : IsEpsilon ops t) : ∃ u, rmsNorm ops [x, y, t] = .ok u ∧ u.shape = [m, w] := by
  have hdata : x.data.length = m * w := by rw [x.length_data, hx, List.prod_pair]
  have hlength : ((chunksExact w x.data).flatMap
      (normalizeRow ops w (some y) (t.get 0))).length = x.data.length := by
    rw [chunksExact_rows hx hw, List.flatMap_map, hdata]
    exact length_flatMap_range fun i hi => length_normalizeRow.trans (length_cell hdata hi)
  obtain ⟨u, hshape, hu⟩ := exists_like x hlength
  refine ⟨u, rmsNorm_eq_ok.2 ⟨w, ?_, hw, hy, ht.shape, ht.finite, ht.positive, hshape, hu⟩,
    hshape.trans hx⟩
  rw [hx]
  rfl

theorem typed_gather (ht : t.shape = [k, w]) (hx : x.shape = [n])
    (hrows : ∀ index ∈ x.data, IsRow ops k index) (hn : n ≠ 0) (hw : w ≠ 0)
    (hlt : n * w < 2 ^ 64) : ∃ u, gather ops [t, x] = .ok u ∧ u.shape = [n, w] := by
  have hlength : (x.data.flatMap (tableRow ops t w)).length = [n, w].prod := by
    rw [List.length_flatMap,
      List.map_congr_left fun i hi => length_tableRow ht (hrows i hi), List.map_const',
      List.sum_replicate, smul_eq_mul, List.prod_pair, x.length_data, hx, List.prod_singleton]
  obtain ⟨u, hshape, hdata⟩ := exists_tensor (by simp [hn, hw]) (by rwa [List.prod_pair]) hlength
  exact ⟨u, gather_eq_ok.2 ⟨k, w, n, ht, hx, hrows, hshape, hdata⟩, hshape⟩

theorem typed_rotaryPosition (hx : x.shape = [n, heads, w]) (hy : y.shape = [n]) (hw : w ≠ 0)
    (heven : w % 2 = 0) (hpositions : ∀ index < n, IsIndex ops (y.get index)) :
    ∃ u, rotaryPosition ops [x, y] = .ok u ∧ u.shape = [n, heads, w] := by
  have hlength : ((List.range n).flatMap (rotatedRow ops x y heads w)).length = x.data.length := by
    rw [x.length_data, hx, List.prod_cons, List.prod_pair]
    exact length_flatMap_range fun _ _ => length_rotatedRow heven
  obtain ⟨u, hshape, hdata⟩ := exists_like x hlength
  exact ⟨u, rotaryPosition_eq_ok.2 ⟨n, heads, w, hx, hy, hw, heven, hpositions, hshape.trans hx,
    hdata⟩, hshape.trans hx⟩

theorem typed_causalAttention {kvHeads : ℕ} (hx : x.shape = [n, heads, w])
    (hy : y.shape = [n, kvHeads, w]) (ht : t.shape = [n, kvHeads, w]) (hw : w ≠ 0)
    (hkv : kvHeads ≠ 0) (hheads : heads ≠ 0) (hgroups : heads % kvHeads = 0) :
    ∃ u, causalAttention ops [x, y, t] = .ok u ∧ u.shape = [n, heads, w] := by
  have hlength : ((List.range n).flatMap (attendRow ops x y t heads kvHeads w)).length =
      x.data.length := by
    rw [x.length_data, hx, List.prod_cons, List.prod_pair]
    exact length_flatMap_range fun _ _ => length_attendRow
  obtain ⟨u, hshape, hdata⟩ := exists_like x hlength
  exact ⟨u, causalAttention_eq_ok.2 ⟨n, heads, kvHeads, w, hx, hy, ht, hw, hkv, hheads, hgroups,
    hshape.trans hx, hdata⟩, hshape.trans hx⟩

theorem typed_elementwise (op : F32 → F32 → F32) (h : x.shape = y.shape) :
    ∃ u, elementwiseBinary op [x, y] = .ok u ∧ u.shape = x.shape := by
  have hlength : (x.data.zipWith op y.data).length = x.data.length := by
    rw [List.length_zipWith, x.length_data, y.length_data, h, Nat.min_self]
  obtain ⟨u, hshape, hdata⟩ := exists_like x hlength
  exact ⟨u, elementwiseBinary_eq_ok.2 ⟨h, hshape, hdata⟩, hshape⟩

theorem typed_silu (ops : F32Ops) (x : Tensor) : ∃ u, silu ops [x] = .ok u ∧ u.shape = x.shape := by
  obtain ⟨u, hshape, hdata⟩ := exists_like x (List.length_map _)
  exact ⟨u, silu_eq_ok.2 ⟨hshape, hdata⟩, hshape⟩

theorem typed_positionIds (ops : F32Ops) (hx : x.shape = [n]) :
    ∃ u, positionIds ops [x] = .ok u ∧ u.shape = [n] ∧
      u.data = (List.range n).map fun index : ℕ => ops.ofInt index := by
  obtain ⟨u, hshape, hdata⟩ : ∃ u : Tensor, u.shape = x.shape ∧
      u.data = (List.range n).map fun index : ℕ => ops.ofInt index :=
    exists_like x (by rw [List.length_map, List.length_range, x.length_data, hx,
      List.prod_singleton])
  exact ⟨u, positionIds_eq_ok.2 ⟨n, hx, hshape.trans hx, hdata⟩, hshape.trans hx, hdata⟩

/-! ## Reshaping -/

/-- An entry of a shape that is a number. -/
theorem reshapeDimension_number {state : ReshapeState} {raw : F32} {i d : ℕ}
    (hraw : IsNumber ops raw k) (hd : if k = 0 then x.shape[i]? = some d else d = k) (hne : d ≠ 0)
    (hlt : state.knownProduct * d < 2 ^ 64) :
    reshapeDimension ops x state (raw, i) =
      .ok ⟨state.shape ++ [d], state.inferred, state.knownProduct * d⟩ := by
  have hknown : checkedMulUsize state.knownProduct d = some (state.knownProduct * d) :=
    checkedMulUsize_eq_some.2 ⟨hlt, rfl⟩
  simp only [reshapeDimension, hraw.finite, hraw.whole, hraw.negOne, hraw.zero, hraw.positive,
    hraw.value, refuse, okOr]
  by_cases hzero : k = 0
  · rw [if_pos hzero] at hd
    simp [hzero, hd, hne, hknown]
  · rw [if_neg hzero] at hd
    subst hd
    simp [hne, hknown]

/-- The dimensions behind the first, which are what they say. -/
theorem foldlM_reshapeDimension : ∀ {raws : List F32} {dims : List ℕ} {state : ReshapeState} {i : ℕ},
    List.Forall₂ (IsNumber ops) raws dims → (∀ d ∈ dims, d ≠ 0) →
    state.knownProduct * dims.prod < 2 ^ 64 →
      (raws.zipIdx i).foldlM (reshapeDimension ops x) state =
        .ok ⟨state.shape ++ dims, state.inferred, state.knownProduct * dims.prod⟩
  | _, _, state, i, .nil, _, _ => by
      rw [List.append_nil, List.prod_nil, Nat.mul_one]
      rfl
  | raw :: raws, d :: dims, state, i, .cons hraw hraws, hne, hlt => by
      obtain ⟨hd, hdims⟩ := List.forall_mem_cons.1 hne
      rw [List.prod_cons, ← Nat.mul_assoc] at hlt
      have hpos : 0 < dims.prod :=
        Nat.pos_of_ne_zero (List.prod_ne_zero fun h0 => hdims 0 h0 rfl)
      have hstep : reshapeDimension ops x state (raw, i) =
          .ok ⟨state.shape ++ [d], state.inferred, state.knownProduct * d⟩ :=
        reshapeDimension_number hraw (by rw [if_neg hd]) hd
          ((Nat.le_mul_of_pos_right _ hpos).trans_lt hlt)
      rw [List.zipIdx_cons, List.foldlM_cons, hstep]
      refine (foldlM_reshapeDimension hraws hdims hlt).trans ?_
      rw [List.append_assoc, List.prod_cons, Nat.mul_assoc]
      rfl

/-- **Reshaping that keeps the rows**: the first dimension is copied, the others multiply to what
the others did. -/
theorem typed_reshape {zero : F32} {raws : List F32} {rest dims : List ℕ}
    (hx : x.shape = n :: rest) (hy : y.rank = 1) (hdata : y.data = zero :: raws)
    (hzero : IsNumber ops zero 0) (hraws : List.Forall₂ (IsNumber ops) raws dims) (hn : n ≠ 0)
    (hdims : ∀ d ∈ dims, d ≠ 0) (hprod : rest.prod = dims.prod) :
    ∃ u, reshape ops [x, y] = .ok u ∧ u.shape = n :: dims := by
  have hlength : x.data.length = n * dims.prod := by
    rw [x.length_data, hx, List.prod_cons, hprod]
  have hlt : n * dims.prod < 2 ^ 64 := hlength ▸ x.length_data_lt
  have hpos : 0 < dims.prod := Nat.pos_of_ne_zero (List.prod_ne_zero fun h0 => hdims 0 h0 rfl)
  obtain ⟨u, hshape, hu⟩ : ∃ u : Tensor, u.shape = n :: dims ∧ u.data = x.data :=
    exists_tensor (List.forall_mem_cons.2 ⟨hn, hdims⟩) (by rwa [List.prod_cons])
      (by rw [List.prod_cons, hlength])
  have hfirst : reshapeDimension ops x ⟨[], none, 1⟩ (zero, 0) = .ok ⟨[n], none, 1 * n⟩ :=
    reshapeDimension_number hzero (by rw [if_pos rfl, hx]; rfl) hn (by
      rw [Nat.one_mul]
      exact (Nat.le_mul_of_pos_right _ hpos).trans_lt hlt)
  have hfold : (y.data.zipIdx).foldlM (reshapeDimension ops x) ⟨[], none, 1⟩ =
      .ok ⟨n :: dims, none, n * dims.prod⟩ := by
    rw [hdata, List.zipIdx_cons, List.foldlM_cons, hfirst]
    refine (foldlM_reshapeDimension hraws hdims (by rwa [Nat.one_mul])).trans ?_
    rw [Nat.one_mul]
    rfl
  refine ⟨u, ?_, hshape⟩
  rw [reshape, hfold]
  simp [refuse, hy, hdata, hlength, Tensor.new_eq_ok, hshape, hu]

end Kernel

end NTD97
