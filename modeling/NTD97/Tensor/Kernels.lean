import Mathlib
import NTD97.Lib.Slices
import NTD97.Tensor.Shapes

/-!
# Tensor/Kernels — what each kernel answers

    kernel inputs = ok u   ↔   the shapes match ▪ u has this shape and these elements

Every check of a kernel is read off once.  That a product of dimensions fits a machine word is not
among the conditions: `u` is a tensor, so it does.
-/

namespace NTD97

open Guard Slices

/-- What a loop builds whose steps answer what `g` says, where they do. -/
theorem mapM_eq_ok_map {ε α β : Type} {f : α → Except ε β} {g : α → β} {P : α → Prop}
    (hf : ∀ a b, f a = .ok b ↔ P a ∧ b = g a) : ∀ {l : List α} {r : List β},
      l.mapM f = .ok r ↔ (∀ a ∈ l, P a) ∧ r = l.map g
  | [], r => by
      rw [List.mapM_nil, pure_eq_ok]
      exact ⟨fun h => ⟨fun _ h => (nomatch h), h.symm⟩, fun h => h.2.symm⟩
  | a :: l, r => by
      simp only [List.mapM_cons, bind_eq_ok, pure_eq_ok, hf, mapM_eq_ok_map hf,
        List.forall_mem_cons, List.map_cons]
      constructor
      · rintro ⟨_, ⟨ha, rfl⟩, _, ⟨hl, rfl⟩, rfl⟩
        exact ⟨⟨ha, hl⟩, rfl⟩
      · rintro ⟨⟨ha, hl⟩, rfl⟩
        exact ⟨_, ⟨ha, rfl⟩, _, ⟨hl, rfl⟩, rfl⟩

theorem length_flatMap_range {β : Type} {g : ℕ → List β} {n w : ℕ} (hg : ∀ i < n, (g i).length = w) :
    ((List.range n).flatMap g).length = n * w := by
  rw [List.length_flatMap, List.map_congr_left fun i hi => hg i (List.mem_range.1 hi),
    List.map_const', List.sum_replicate, List.length_range, smul_eq_mul]

/-- The rows of a tensor, cut by its width. -/
theorem chunksExact_rows {n w : ℕ} {x : Tensor} (hshape : x.shape = [n, w]) (hw : w ≠ 0) :
    chunksExact w x.data = (List.range n).map (cell w x.data) := by
  rw [chunksExact, x.length_data, hshape, List.prod_pair, Nat.mul_div_cancel _ (by omega)]
  rfl

namespace Kernel

variable {ops : F32Ops} {t u x y : Tensor}

theorem elementwiseBinary_eq_ok {op : F32 → F32 → F32} :
    elementwiseBinary op [x, y] = .ok u ↔
      x.shape = y.shape ∧ u.shape = x.shape ∧ u.data = x.data.zipWith op y.data := by
  simp only [elementwiseBinary, bind_eq_ok, exists_unit, refuse_eq_ok, not_not, Tensor.new_eq_ok]

theorem silu_eq_ok : silu ops [x] = .ok u ↔ u.shape = x.shape ∧ u.data = x.data.map fun value =>
    ops.div value (ops.add F32.one (ops.exp (ops.neg value))) := Tensor.new_eq_ok

theorem positionIds_eq_ok : positionIds ops [x] = .ok u ↔ ∃ n, x.shape = [n] ∧ u.shape = [n] ∧
    u.data = (List.range n).map fun index : ℕ => ops.ofInt index := by
  rw [positionIds]
  split
  · next n hn =>
    have hdata : (List.map (fun index : ℤ => ops.ofInt index) do
        let index ← List.range n
        return (index : ℤ)) = (List.range n).map fun index : ℕ => ops.ofInt index := by
      change List.map _ ((List.range n).flatMap fun index : ℕ => [(index : ℤ)]) = _
      rw [← List.map_eq_flatMap, List.map_map]
      rfl
    rw [hn, Tensor.new_eq_ok, hdata]
    constructor
    · exact fun h => ⟨n, rfl, h⟩
    · rintro ⟨m, hm, h⟩
      obtain rfl := List.singleton_inj.1 hm
      exact h
  · next hne => exact ⟨fun h => (nomatch h), fun ⟨n, hn, _⟩ => absurd hn (hne n)⟩

/-- A row of a product. -/
def productRow (ops : F32Ops) (lhs rhs : Tensor) (k n row : ℕ) : List F32 :=
  (List.range n).map (dotProduct ops lhs rhs k n row)

theorem matmul_eq_ok : matmul ops [x, y] = .ok u ↔ ∃ m k n, x.shape = [m, k] ∧ y.shape = [k, n] ∧
    u.shape = [m, n] ∧ u.data = (List.range m).flatMap (productRow ops x y k n) := by
  rw [matmul]
  split
  · next m k k' n hx hy =>
    simp only [hx, hy, bind_eq_ok, exists_unit, refuse_eq_ok, not_not, okOr_eq_ok,
      Tensor.new_eq_ok]
    constructor
    · rintro ⟨rfl, -, -, hshape, hdata⟩
      exact ⟨m, k, n, rfl, rfl, hshape, hdata⟩
    · rintro ⟨_, _, _, ⟨⟩, ⟨⟩, hshape, hdata⟩
      refine ⟨rfl, m * n, checkedMulUsize_eq_some.2 ⟨?_, rfl⟩, hshape, hdata⟩
      have hlt := u.length_data_lt
      rwa [u.length_data, hshape, List.prod_pair] at hlt
  · next hne =>
    constructor
    · intro h
      cases h
    · rintro ⟨_, _, _, hx, hy, -⟩
      exact absurd hy (hne _ _ _ _ hx)

theorem epsilonOf_eq_ok {value : F32} : epsilonOf ops (some t) = .ok value ↔
    t.shape = [] ∧ ops.isFinite (t.get 0) = true ∧ ops.le (t.get 0) F32.zero = false ∧
      value = t.get 0 := by
  have hlength (h : t.shape = []) : t.data.length = 1 := by rw [t.length_data, h, List.prod_nil]
  simp only [epsilonOf, bind_eq_ok, exists_unit, refuse_eq_ok, pure_eq_ok, not_or, not_not,
    Bool.not_eq_true, Bool.not_eq_false, Tensor.rank, ne_eq, List.length_eq_zero_iff]
  constructor
  · rintro ⟨⟨hshape, -⟩, ⟨hfinite, hle⟩, rfl⟩
    exact ⟨hshape, hfinite, hle, rfl⟩
  · rintro ⟨hshape, hfinite, hle, rfl⟩
    exact ⟨⟨hshape, hlength hshape⟩, ⟨hfinite, hle⟩, rfl⟩

theorem rmsNorm_eq_ok : rmsNorm ops [x, y, t] = .ok u ↔ ∃ width, x.shape.getLast? = some width ∧
    width ≠ 0 ∧ y.shape = [width] ∧ t.shape = [] ∧ ops.isFinite (t.get 0) = true ∧
      ops.le (t.get 0) F32.zero = false ∧ u.shape = x.shape ∧
        u.data = (chunksExact width x.data).flatMap
          (normalizeRow ops width (some y) (t.get 0)) := by
  simp only [rmsNorm, rmsNormWith, bind_eq_ok, exists_unit, refuse_eq_ok, okOr_eq_ok,
    epsilonOf_eq_ok, Tensor.new_eq_ok, Option.mem_some_iff, not_exists, not_and, not_not,
    forall_eq']
  constructor
  · rintro ⟨width, hwidth, hne, hshape, _, ⟨ht, hfinite, hle, rfl⟩, hu⟩
    exact ⟨width, hwidth, hne, hshape, ht, hfinite, hle, hu⟩
  · rintro ⟨width, hwidth, hne, hshape, ht, hfinite, hle, hu⟩
    exact ⟨width, hwidth, hne, hshape, _, ⟨ht, hfinite, hle, rfl⟩, hu⟩

/-- A row of a table, at an index. -/
def tableRow (ops : F32Ops) (table : Tensor) (width : ℕ) (index : F32) : List F32 :=
  (table.data.drop (ops.toUsize index * width)).take width

/-- An index of a row: a whole number below the number of rows. -/
structure IsRow (ops : F32Ops) (rows : ℕ) (index : F32) : Prop extends IsIndex ops index where
  whole : ops.isWhole index = true
  below : ops.toUsize index < rows

theorem gatherRow_eq_ok {rows width : ℕ} (htable : t.shape = [rows, width]) (index : F32)
    (row : List F32) :
    gatherRow ops t rows width index = .ok row ↔
      IsRow ops rows index ∧ row = tableRow ops t width index := by
  simp only [gatherRow, bind_eq_ok, exists_unit, refuse_eq_ok, okOr_eq_ok, pure_eq_ok,
    checkedMulUsize_eq_some, checkedAddUsize_eq_some, not_or, Bool.not_eq_true,
    Bool.not_eq_false, not_le]
  constructor
  · rintro ⟨⟨hfinite, hnonneg, hwhole⟩, hbelow, _, ⟨-, rfl⟩, _, ⟨-, rfl⟩, rfl⟩
    rw [Nat.add_sub_cancel_left]
    exact ⟨⟨⟨hfinite, hnonneg⟩, hwhole, hbelow⟩, rfl⟩
  · rintro ⟨⟨⟨hfinite, hnonneg⟩, hwhole, hbelow⟩, rfl⟩
    have hlt : rows * width < 2 ^ 64 := by
      have hdata := t.length_data_lt
      rwa [t.length_data, htable, List.prod_pair] at hdata
    have hle := cell_le width hbelow
    refine ⟨⟨hfinite, hnonneg, hwhole⟩, hbelow, _, ⟨by omega, rfl⟩, _, ⟨by omega, rfl⟩, ?_⟩
    rw [Nat.add_sub_cancel_left]
    rfl

theorem length_tableRow {rows width : ℕ} (htable : t.shape = [rows, width]) {index : F32}
    (h : IsRow ops rows index) : (tableRow ops t width index).length = width := by
  have hle := cell_le width h.below
  rw [tableRow, List.length_take, List.length_drop, t.length_data, htable, List.prod_pair]
  omega

theorem gather_eq_ok : gather ops [t, x] = .ok u ↔ ∃ rows width n, t.shape = [rows, width] ∧
    x.shape = [n] ∧ (∀ index ∈ x.data, IsRow ops rows index) ∧ u.shape = [n, width] ∧
      u.data = x.data.flatMap (tableRow ops t width) := by
  rw [gather]
  split
  · next rows width n ht hx =>
    have hlength : x.data.length = n := by rw [x.length_data, hx, List.prod_singleton]
    simp only [bind_eq_ok, okOr_eq_ok, hlength, Tensor.new_eq_ok,
      mapM_eq_ok_map (gatherRow_eq_ok ht), ht, hx]
    constructor
    · rintro ⟨-, -, _, ⟨hrows, rfl⟩, hshape, hdata⟩
      exact ⟨rows, width, n, rfl, rfl, hrows, hshape, hdata.trans List.flatMap_def.symm⟩
    · rintro ⟨_, _, _, ⟨⟩, ⟨⟩, hrows, hshape, hdata⟩
      refine ⟨n * width, checkedMulUsize_eq_some.2 ⟨?_, rfl⟩, _, ⟨hrows, rfl⟩, hshape,
        hdata.trans List.flatMap_def⟩
      have hlt := u.length_data_lt
      rwa [u.length_data, hshape, List.prod_pair] at hlt
  · next hne =>
    constructor
    · intro h
      cases h
    · rintro ⟨_, _, _, ht, hx, -⟩
      exact absurd hx (hne _ _ _ ht)

/-- The heads of one position, turned. -/
def rotatedRow (ops : F32Ops) (input positions : Tensor) (heads width index : ℕ) : List F32 :=
  (List.range heads).flatMap fun head => (List.range (width / 2)).flatMap
    (rotatePair ops input width ((index * heads + head) * width) (positions.get index))

theorem rotateRow_eq_ok {heads width : ℕ} (index : ℕ) (row : List F32) :
    rotateRow ops x y heads width index = .ok row ↔
      IsIndex ops (y.get index) ∧ row = rotatedRow ops x y heads width index := by
  simp only [rotateRow, bind_eq_ok, exists_unit, refuse_eq_ok, pure_eq_ok, not_or,
    Bool.not_eq_true, Bool.not_eq_false]
  constructor
  · rintro ⟨⟨hfinite, hnonneg⟩, rfl⟩
    exact ⟨⟨hfinite, hnonneg⟩, rfl⟩
  · rintro ⟨⟨hfinite, hnonneg⟩, rfl⟩
    exact ⟨⟨hfinite, hnonneg⟩, rfl⟩

theorem rotaryPosition_eq_ok : rotaryPosition ops [x, y] = .ok u ↔ ∃ sequence heads width,
    x.shape = [sequence, heads, width] ∧ y.shape = [sequence] ∧ width ≠ 0 ∧ width % 2 = 0 ∧
      (∀ index < sequence, IsIndex ops (y.get index)) ∧ u.shape = [sequence, heads, width] ∧
        u.data = (List.range sequence).flatMap (rotatedRow ops x y heads width) := by
  rw [rotaryPosition]
  split
  · next sequence heads width n hx hy =>
    have hlength : y.data.length = n := by rw [y.length_data, hy, List.prod_singleton]
    simp only [bind_eq_ok, exists_unit, refuse_eq_ok, not_or, not_not, hlength, Tensor.new_eq_ok,
      mapM_eq_ok_map rotateRow_eq_ok, List.mem_range, hx, hy]
    constructor
    · rintro ⟨⟨rfl, hwidth, heven⟩, _, ⟨hindex, rfl⟩, hshape, hdata⟩
      exact ⟨_, heads, width, rfl, rfl, hwidth, heven, hindex, hshape,
        hdata.trans List.flatMap_def.symm⟩
    · rintro ⟨_, _, _, ⟨⟩, ⟨⟩, hwidth, heven, hindex, hshape, hdata⟩
      exact ⟨⟨rfl, hwidth, heven⟩, _, ⟨hindex, rfl⟩, hshape, hdata.trans List.flatMap_def⟩
  · next hne =>
    constructor
    · intro h
      cases h
    · rintro ⟨_, _, _, hx, hy, -⟩
      exact absurd hy (hne _ _ _ _ hx)

/-- What the heads of one position attend to. -/
def attendRow (ops : F32Ops) (query key value : Tensor) (queryHeads kvHeads width position : ℕ) :
    List F32 :=
  (List.range queryHeads).flatMap
    (attendHead ops query key value queryHeads kvHeads width position)

theorem causalAttention_eq_ok : causalAttention ops [x, y, t] = .ok u ↔
    ∃ sequence queryHeads kvHeads width, x.shape = [sequence, queryHeads, width] ∧
      y.shape = [sequence, kvHeads, width] ∧ t.shape = [sequence, kvHeads, width] ∧ width ≠ 0 ∧
        kvHeads ≠ 0 ∧ queryHeads ≠ 0 ∧ queryHeads % kvHeads = 0 ∧
          u.shape = [sequence, queryHeads, width] ∧ u.data = (List.range sequence).flatMap
            (attendRow ops x y t queryHeads kvHeads width) := by
  rw [causalAttention]
  split
  · next sequence queryHeads width sequence' kvHeads width' _ _ _ hx hy ht =>
    simp only [bind_eq_ok, exists_unit, refuse_eq_ok, not_or, not_not, Tensor.new_eq_ok, hx, hy]
    constructor
    · rintro ⟨⟨hshape, rfl, rfl⟩, ⟨hwidth, hkv, hheads, hgroups⟩, hu⟩
      exact ⟨sequence, queryHeads, kvHeads, width, rfl, rfl, hshape.symm, hwidth, hkv, hheads,
        hgroups, hu⟩
    · rintro ⟨_, _, _, _, ⟨⟩, ⟨⟩, hshape, hwidth, hkv, hheads, hgroups, hu⟩
      exact ⟨⟨hshape.symm, rfl, rfl⟩, ⟨hwidth, hkv, hheads, hgroups⟩, hu⟩
  · next hne =>
    constructor
    · intro h
      cases h
    · rintro ⟨_, _, _, _, hx, hy, ht, -⟩
      exact absurd ht (hne _ _ _ _ _ _ _ _ _ hx hy)

/-! ## The rows of the results -/

theorem length_productRow {k n row : ℕ} : (productRow ops x y k n row).length = n := by
  rw [productRow, List.length_map, List.length_range]

theorem length_rotatedRow {heads width index : ℕ} (heven : width % 2 = 0) :
    (rotatedRow ops x y heads width index).length = heads * width := by
  refine length_flatMap_range fun head _ => ?_
  calc _ = width / 2 * 2 := length_flatMap_range fun _ _ => rfl
    _ = width := by omega

theorem length_attendRow {queryHeads kvHeads width position : ℕ} :
    (attendRow ops x y t queryHeads kvHeads width position).length = queryHeads * width :=
  length_flatMap_range fun head _ => by rw [attendHead, List.length_map, List.length_range]

theorem length_normalizeRow {width : ℕ} {weight : Option Tensor} {epsilon : F32} {row : List F32} :
    (normalizeRow ops width weight epsilon row).length = row.length := List.length_mapIdx

/-! ## Reshaping -/

/-- The dimension that an entry of a shape asks for, if it is not to be inferred. -/
def askedDimension (ops : F32Ops) (input : Tensor) (index : ℕ) (raw : F32) : Option ℕ :=
  if ops.eq raw F32.zero = true then input.shape[index]? else some (ops.toUsize raw)

/-- **A shape, up to an entry**: what is asked for is there, at most one entry is inferred, and
nothing is empty. -/
structure Reshaping (ops : F32Ops) (input shapeSpec : Tensor) (n : ℕ) (state : ReshapeState) :
    Prop where
  length_eq : state.shape.length = n
  asked : ∀ i < n, ∀ raw, shapeSpec.data[i]? = some raw → ops.eq raw F32.negOne = false →
    state.shape[i]? = askedDimension ops input i raw
  inferred : ∀ i < n, ∀ raw, shapeSpec.data[i]? = some raw → ops.eq raw F32.negOne = true →
    state.inferred = some i
  negOne : ∀ i, state.inferred = some i →
    ∃ raw, shapeSpec.data[i]? = some raw ∧ ops.eq raw F32.negOne = true
  known_ne : state.knownProduct ≠ 0

namespace Reshaping

variable {shapeSpec : Tensor} {state state' : ReshapeState} {n : ℕ}

theorem start : Reshaping ops x shapeSpec 0 ⟨[], none, 1⟩ where
  length_eq := rfl
  asked i hi := absurd hi (Nat.not_lt_zero i)
  inferred i hi := absurd hi (Nat.not_lt_zero i)
  negOne _ h := nomatch h
  known_ne := Nat.one_ne_zero

/-- One more entry. -/
theorem step (h : Reshaping ops x shapeSpec n state) {raw : F32}
    (hraw : shapeSpec.data[n]? = some raw)
    (hstep : reshapeDimension ops x state (raw, n) = .ok state') :
    Reshaping ops x shapeSpec (n + 1) state' := by
  obtain ⟨_, -, hstep⟩ := bind_eq_ok.1 hstep
  have hkeep (d i : ℕ) (hi : i < n) : (state.shape ++ [d])[i]? = state.shape[i]? :=
    List.getElem?_append_left (h.length_eq ▸ hi)
  have hlast (d : ℕ) : (state.shape ++ [d])[n]? = some d := by
    rw [← h.length_eq, List.getElem?_concat_length]
  have hraw' {r : F32} (hr : shapeSpec.data[n]? = some r) : r = raw :=
    Option.some.inj (hr.symm.trans hraw)
  split at hstep
  · next hneg =>
    obtain ⟨_, hnone, hstep⟩ := bind_eq_ok.1 hstep
    have hnone : state.inferred = none := Option.not_isSome_iff_eq_none.1 (refuse_eq_ok.1 hnone)
    obtain rfl := pure_eq_ok.1 hstep
    refine ⟨by rw [List.length_append, h.length_eq]; rfl, fun i hi r hr hfixed => ?_,
      fun i hi r hr hinferred => ?_, fun i hi => ?_, h.known_ne⟩
    · rcases Nat.lt_succ_iff_lt_or_eq.1 hi with hlt | rfl
      · rw [hkeep _ _ hlt, h.asked i hlt r hr hfixed]
      · rw [hraw' hr, hneg] at hfixed
        cases hfixed
    · rcases Nat.lt_succ_iff_lt_or_eq.1 hi with hlt | rfl
      · cases hnone.symm.trans (h.inferred i hlt r hr hinferred)
      · rfl
    · obtain rfl := Option.some.inj hi
      exact ⟨raw, hraw, hneg⟩
  · next hneg =>
    obtain ⟨dimension, hasked, hstep⟩ : ∃ dimension, askedDimension ops x n raw = some dimension ∧
        (do refuse (dimension = 0) TensorError.invalidShape
            let knownProduct ← okOr (checkedMulUsize state.knownProduct dimension)
              TensorError.invalidShape
            return { state with shape := state.shape ++ [dimension], knownProduct }) =
          Except.ok state' := by
      rw [askedDimension]
      split at hstep
      · next hzero =>
        obtain ⟨dimension, hdimension, hstep⟩ := bind_eq_ok.1 hstep
        exact ⟨dimension, by rw [if_pos hzero, okOr_eq_ok.1 hdimension], hstep⟩
      · next hzero =>
        split at hstep
        · exact ⟨_, if_neg hzero, hstep⟩
        · cases hstep
    obtain ⟨_, hne, hstep⟩ := bind_eq_ok.1 hstep
    obtain ⟨known, hknown, hstep⟩ := bind_eq_ok.1 hstep
    obtain rfl := pure_eq_ok.1 hstep
    obtain ⟨-, rfl⟩ := checkedMulUsize_eq_some.1 (okOr_eq_ok.1 hknown)
    refine ⟨by rw [List.length_append, h.length_eq]; rfl, fun i hi r hr hfixed => ?_,
      fun i hi r hr hinferred => ?_, h.negOne, Nat.mul_ne_zero h.known_ne (refuse_eq_ok.1 hne)⟩
    · rcases Nat.lt_succ_iff_lt_or_eq.1 hi with hlt | rfl
      · rw [hkeep _ _ hlt, h.asked i hlt r hr hfixed]
      · rw [hraw' hr, hasked]
        exact hlast dimension
    · rcases Nat.lt_succ_iff_lt_or_eq.1 hi with hlt | rfl
      · exact h.inferred i hlt r hr hinferred
      · exact absurd (hraw' hr ▸ hinferred) hneg

end Reshaping

/-- **What a reshaped tensor is**: the same elements, of which there are some, with every dimension
that is asked for in its place, and at most one that is inferred. -/
structure Reshaped (ops : F32Ops) (input shapeSpec output : Tensor) : Prop where
  data_eq : output.data = input.data
  nonempty : input.data ≠ []
  length_eq : output.shape.length = shapeSpec.data.length
  asked : ∀ (i : ℕ) (raw : F32), shapeSpec.data[i]? = some raw → ops.eq raw F32.negOne = false →
    output.shape[i]? = askedDimension ops input i raw
  unique : ∀ (i j : ℕ) (raw raw' : F32), shapeSpec.data[i]? = some raw → shapeSpec.data[j]? = some raw' →
    ops.eq raw F32.negOne = true → ops.eq raw' F32.negOne = true → i = j

theorem reshaped_of_eq_ok (h : reshape ops [x, y] = .ok u) : Reshaped ops x y u := by
  obtain ⟨_, -, h⟩ := bind_eq_ok.1 h
  obtain ⟨state, hstate, h⟩ := bind_eq_ok.1 h
  have hshape : Reshaping ops x y (0 + y.data.length) state := by
    refine foldlM_zipIdx (fun i raw s s' hraw hs hstep => ?_) Reshaping.start hstate
    rw [Nat.zero_add] at hs hstep ⊢
    exact hs.step hraw hstep
  rw [Nat.zero_add] at hshape
  have hin {i : ℕ} {raw : F32} (hi : y.data[i]? = some raw) : i < y.data.length :=
    (List.getElem?_eq_some_iff.1 hi).1
  have hunique (i j : ℕ) (raw raw' : F32) (hi : y.data[i]? = some raw) (hj : y.data[j]? = some raw')
      (hneg : ops.eq raw F32.negOne = true) (hneg' : ops.eq raw' F32.negOne = true) : i = j :=
    Option.some.inj ((hshape.inferred i (hin hi) raw hi hneg).symm.trans
      (hshape.inferred j (hin hj) raw' hj hneg'))
  split at h
  · next index hindex =>
    obtain ⟨_, -, h⟩ := bind_eq_ok.1 h
    obtain ⟨_, hpos, h⟩ := bind_eq_ok.1 h
    obtain ⟨hu, hdata⟩ := Tensor.new_eq_ok.1 h
    refine ⟨hdata, fun hempty => ?_, ?_, fun i raw hi hfixed => ?_, hunique⟩
    · exact refuse_eq_ok.1 hpos (by rw [hempty, List.length_nil, Nat.zero_div])
    · rw [hu, List.length_set, hshape.length_eq]
    · have hne : index ≠ i := by
        rintro rfl
        obtain ⟨raw', hraw', hneg⟩ := hshape.negOne index hindex
        obtain rfl := Option.some.inj (hi.symm.trans hraw')
        exact nomatch hfixed.symm.trans hneg
      rw [hu, List.getElem?_set_ne hne, hshape.asked i (hin hi) raw hi hfixed]
  · obtain ⟨_, hknown, h⟩ := bind_eq_ok.1 h
    obtain ⟨hu, hdata⟩ := Tensor.new_eq_ok.1 h
    refine ⟨hdata, fun hempty => ?_, by rw [hu, hshape.length_eq], fun i raw hi hfixed => ?_,
      hunique⟩
    · have heq : state.knownProduct = x.data.length := not_not.1 (refuse_eq_ok.1 hknown)
      exact hshape.known_ne (by rw [heq, hempty, List.length_nil])
    · rw [hu, hshape.asked i (hin hi) raw hi hfixed]

/-! ## The provider -/

/-- The kernel of an operation. -/
def kernelOf (ops : F32Ops) : TensorOp → List Tensor → Except TensorError Tensor
  | .add => elementwiseBinary ops.add
  | .mul => elementwiseBinary ops.mul
  | .matMul => matmul ops
  | .quantizedMatMul => matmul ops
  | .rmsNorm => rmsNorm ops
  | .softmax => softmax ops
  | .gather => gather ops
  | .rotaryPosition => rotaryPosition ops
  | .causalAttention => causalAttention ops
  | .silu => silu ops
  | .reshape => reshape ops
  | .transpose => transpose ops
  | .positionIds => positionIds ops

theorem cpuReferenceProvider_eq_ok {op : TensorOp} {inputs : List Tensor} {t : Tensor} :
    cpuReferenceProvider ops op inputs = .ok [t] ↔ kernelOf ops op inputs = .ok t := by
  have heq : cpuReferenceProvider ops op inputs =
      kernelOf ops op inputs >>= fun output => pure [output] := by
    cases op <;> rfl
  rw [heq, bind_eq_ok]
  constructor
  · rintro ⟨output, houtput, h⟩
    rw [houtput, List.singleton_inj.1 (pure_eq_ok.1 h)]
  · exact fun h => ⟨t, h, rfl⟩

end Kernel

end NTD97
