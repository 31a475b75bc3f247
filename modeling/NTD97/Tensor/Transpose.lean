import Mathlib
import NTD97.Lib.Lockstep
import NTD97.Lib.RowMajor
import NTD97.Tensor.Shapes

/-!
# Tensor/Transpose — what a transposition does to the elements

    place ──digit──▸ coordinates ──input strides by axis──▸ place in the input

The loop of the kernel takes a place apart by the strides of its output and weighs the coordinates
with those of its input (`foldlM_transposeStep`); `Lib/RowMajor` says what that computes.  The same
computation with the inverse permutation leads back.
-/

namespace NTD97

open Guard RowMajor

namespace Kernel

variable {ops : F32Ops} {shape axes : List ℕ}

/-! ## Strides -/

/-- The strides, when no product of dimensions leaves a machine word. -/
theorem rowMajorStrides_eq : ∀ {shape s : List ℕ} {n : ℕ}, rowMajorStrides shape = .ok (s, n) →
    s = strides shape ∧ n = shape.prod
  | [], s, n, h => by
      obtain ⟨rfl, rfl⟩ := Prod.mk.inj (pure_eq_ok.1 h)
      exact ⟨rfl, rfl⟩
  | dimension :: shape, s, n, h => by
      rw [rowMajorStrides, bind_eq_ok] at h
      obtain ⟨⟨s', running⟩, hrest, h⟩ := h
      obtain ⟨next, hnext, h⟩ := bind_eq_ok.1 h
      obtain ⟨rfl, rfl⟩ := rowMajorStrides_eq hrest
      obtain ⟨-, rfl⟩ := checkedMulUsize_eq_some.1 (okOr_eq_ok.1 hnext)
      obtain ⟨rfl, rfl⟩ := Prod.mk.inj (pure_eq_ok.1 h)
      exact ⟨rfl, by rw [List.prod_cons, Nat.mul_comm]⟩

/-! ## Axes -/

/-- A number that names an axis. -/
def NamesAxis (ops : F32Ops) (raw : F32) : Prop :=
  ops.isFinite raw = true ∧ ops.lt raw F32.zero = false ∧ ops.isWhole raw = true

theorem transposeAxis_eq_ok {rank : ℕ} {raw : F32} {axes' : List ℕ} :
    transposeAxis ops rank axes raw = .ok axes' ↔
      (NamesAxis ops raw ∧ ops.toUsize raw < rank ∧ ops.toUsize raw ∉ axes) ∧
        axes ++ [ops.toUsize raw] = axes' := by
  simp only [transposeAxis, bind_eq_ok, exists_unit, refuse_eq_ok, pure_eq_ok, not_or, NamesAxis,
    not_le, Bool.not_eq_true, Bool.not_eq_false, and_assoc]

/-- **The axes are read off the permutation**, if they are different axes of the input. -/
theorem foldlM_transposeAxis {rank : ℕ} : ∀ {data : List F32} {axes axes' : List ℕ}, axes.Nodup →
    (data.foldlM (transposeAxis ops rank) axes = .ok axes' ↔
      (∀ raw ∈ data, NamesAxis ops raw ∧ ops.toUsize raw < rank) ∧
        (axes ++ data.map ops.toUsize).Nodup ∧ axes ++ data.map ops.toUsize = axes')
  | [], axes, axes', hnodup => by
      rw [List.foldlM_nil, pure_eq_ok, List.map_nil, List.append_nil]
      exact ⟨fun h => ⟨by simp, hnodup, h⟩, fun h => h.2.2⟩
  | raw :: data, axes, axes', hnodup => by
      rw [List.foldlM_cons, bind_eq_ok, List.map_cons, List.forall_mem_cons]
      have hmove : axes ++ ops.toUsize raw :: data.map ops.toUsize =
          axes ++ [ops.toUsize raw] ++ data.map ops.toUsize := List.append_cons ..
      rw [hmove]
      constructor
      · rintro ⟨next, hnext, hrest⟩
        obtain ⟨⟨hnames, hlt, hnew⟩, rfl⟩ := transposeAxis_eq_ok.1 hnext
        have hnodup' : (axes ++ [ops.toUsize raw]).Nodup := by
          rw [← List.concat_eq_append, List.nodup_concat]
          exact ⟨hnew, hnodup⟩
        obtain ⟨hall, hrest⟩ := (foldlM_transposeAxis hnodup').1 hrest
        exact ⟨⟨⟨hnames, hlt⟩, hall⟩, hrest⟩
      · rintro ⟨⟨⟨hnames, hlt⟩, hall⟩, hrest⟩
        have hnodup' := (List.nodup_append.1 hrest.1).1
        refine ⟨_, transposeAxis_eq_ok.2 ⟨⟨hnames, hlt, ?_⟩, rfl⟩,
          (foldlM_transposeAxis hnodup').2 ⟨hall, hrest⟩⟩
        rw [← List.concat_eq_append, List.nodup_concat] at hnodup'
        exact hnodup'.1

theorem perm_range {l : List ℕ} {n : ℕ} (hnodup : l.Nodup) (hlength : l.length = n)
    (hlt : ∀ a ∈ l, a < n) : l.Perm (List.range n) := by
  have hsub : l.Subperm (List.range n) :=
    List.subperm_of_subset hnodup fun a ha => List.mem_range.2 (hlt a ha)
  exact hsub.perm_of_length_le (by rw [List.length_range, hlength])

/-! ## One element -/

/-- **The loop over the axes** weighs the coordinates of a place, if the sum is a machine word. -/
theorem foldlM_transposeStep : ∀ {shape weights : List ℕ} {o acc : ℕ}, o < shape.prod →
    weights.length = shape.length → acc + weigh (digit shape o) weights < 2 ^ 64 →
      ∃ rest, ((strides shape).zip weights).foldlM transposeStep (o, acc) =
        .ok (rest, acc + weigh (digit shape o) weights)
  | [], [], o, acc, _, _, _ => ⟨o, rfl⟩
  | n :: shape, w :: weights, o, acc, ho, hlength, hsum => by
      rw [List.prod_cons] at ho
      have hpos : 0 < shape.prod := Nat.pos_of_ne_zero fun h0 => by simp [h0] at ho
      have hsplit : weigh (digit (n :: shape) o) (w :: weights) =
          o / shape.prod * w + weigh (digit shape (o % shape.prod)) weights := rfl
      rw [hsplit] at hsum ⊢
      have hstep : transposeStep (o, acc) (shape.prod, w) =
          .ok (o % shape.prod, acc + o / shape.prod * w) := by
        rw [transposeStep, bind_eq_ok]
        refine ⟨_, okOr_eq_ok.2 (checkedMulUsize_eq_some.2 ⟨by omega, rfl⟩), bind_eq_ok.2 ?_⟩
        exact ⟨_, okOr_eq_ok.2 (checkedAddUsize_eq_some.2 ⟨by omega, rfl⟩), rfl⟩
      rw [strides, List.zip_cons_cons, List.foldlM_cons, hstep]
      rw [← Nat.add_assoc] at hsum ⊢
      exact foldlM_transposeStep (Nat.mod_lt o hpos) (Nat.succ.inj hlength) hsum

/-- The place in the input from which the loop over the axes reads an element of the output. -/
def readIndex (inputStrides outputStrides axes : List ℕ) (outputIndex : ℕ) :
    Except TensorError ℕ := do
  let (_, inputIndex) ← (outputStrides.zip (axes.map (inputStrides.getD · 0))).foldlM
    transposeStep (outputIndex, 0)
  return inputIndex

/-- **Every read is in bounds**, at the coordinates that the axes permute. -/
theorem readIndex_eq {t : Tensor} (hperm : axes.Perm (List.range t.rank)) {o : ℕ}
    (ho : o < t.data.length) {d : ℕ → ℕ}
    (hd : ∀ i a, axes[i]? = some a → d a = digit (select t.shape axes) o i) :
    readIndex (strides t.shape) (strides (select t.shape axes)) axes o =
        .ok (offset t.shape d) ∧ Within t.shape d ∧ offset t.shape d < t.data.length := by
  have hprod : (select t.shape axes).prod = t.data.length := by
    rw [prod_select hperm, t.length_data]
  rw [← hprod] at ho
  have hwithin : Within t.shape d := (within_select hperm hd).1 (within_digit ho)
  have hlt : offset t.shape d < t.data.length := by
    rw [t.length_data]
    exact offset_lt hwithin
  have hweigh : weigh (digit (select t.shape axes) o) (select (strides t.shape) axes) =
      offset t.shape d := by
    refine weigh_perm ?_ hd
    rwa [length_strides]
  have hlength : (select (strides t.shape) axes).length = (select t.shape axes).length := by
    rw [length_select, length_select]
  have hsum : 0 + weigh (digit (select t.shape axes) o) (select (strides t.shape) axes) < 2 ^ 64 := by
    rw [hweigh, Nat.zero_add]
    exact hlt.trans t.length_data_lt
  obtain ⟨rest, hrest⟩ := foldlM_transposeStep ho hlength hsum
  rw [hweigh, Nat.zero_add] at hrest
  refine ⟨?_, hwithin, hlt⟩
  rw [readIndex, bind_eq_ok]
  exact ⟨_, hrest, rfl⟩

/-! ## The whole tensor -/

/-- The axes that a tensor of indices names. -/
def axesOf (ops : F32Ops) (permutation : Tensor) : List ℕ := permutation.data.map ops.toUsize

/-- The place of each axis in the output, for the coordinates of an element of the input. -/
def permuted (axes : List ℕ) (c : ℕ → ℕ) (axis : ℕ) : ℕ := c (axes.idxOf axis)

theorem permuted_of_getElem? (hnodup : axes.Nodup) (c : ℕ → ℕ) {i a : ℕ} (ha : axes[i]? = some a) :
    permuted axes c a = c i := by
  obtain ⟨hi, rfl⟩ := List.getElem?_eq_some_iff.1 ha
  rw [permuted, hnodup.idxOf_getElem]

/-- **What a transposition that answers has checked and computed.** -/
structure Transposed (ops : F32Ops) (t permutation u : Tensor) : Prop where
  rank_ne : t.rank ≠ 0
  vector : permutation.rank = 1
  length : permutation.data.length = t.rank
  names : ∀ raw ∈ permutation.data, NamesAxis ops raw ∧ ops.toUsize raw < t.rank
  nodup : (axesOf ops permutation).Nodup
  inputStrides : ∃ n, rowMajorStrides t.shape = .ok (strides t.shape, n)
  outputStrides : ∃ n, rowMajorStrides u.shape = .ok (strides u.shape, n)
  shape : u.shape = select t.shape (axesOf ops permutation)
  data : u.data = (List.range t.data.length).map fun o =>
    t.get (offset t.shape (permuted (axesOf ops permutation) (digit u.shape o)))

/-- The reads of a transposition. -/
theorem mapM_readIndex {t : Tensor} (hnodup : axes.Nodup) (hperm : axes.Perm (List.range t.rank)) :
    ((List.range t.data.length).mapM fun o => do
      let (_, inputIndex) ← ((strides (select t.shape axes)).zip
        (axes.map ((strides t.shape).getD · 0))).foldlM transposeStep (o, 0)
      return t.get inputIndex : Except TensorError (List F32)) =
      .ok ((List.range t.data.length).map fun o =>
        t.get (offset t.shape (permuted axes (digit (select t.shape axes) o)))) := by
  refine Lockstep.mapM_ok fun o ho => ?_
  obtain ⟨hread, -, -⟩ := readIndex_eq hperm (List.mem_range.1 ho)
    fun i a ha => permuted_of_getElem? hnodup _ ha
  rw [readIndex, bind_eq_ok] at hread
  obtain ⟨⟨rest, inputIndex⟩, hfold, hindex⟩ := hread
  rw [hfold, ← pure_eq_ok.1 hindex]
  rfl

theorem perm_axesOf {t permutation : Tensor} (hnodup : (axesOf ops permutation).Nodup)
    (hlength : permutation.data.length = t.rank)
    (hnames : ∀ raw ∈ permutation.data, NamesAxis ops raw ∧ ops.toUsize raw < t.rank) :
    (axesOf ops permutation).Perm (List.range t.rank) := by
  refine perm_range hnodup (by rw [axesOf, List.length_map, hlength]) ?_
  rw [axesOf, List.forall_mem_map]
  exact fun raw hraw => (hnames raw hraw).2

theorem transpose_eq_ok {t permutation u : Tensor} :
    transpose ops [t, permutation] = .ok u ↔ Transposed ops t permutation u := by
  simp only [transpose, bind_eq_ok, exists_unit, refuse_eq_ok, not_or, ne_eq, not_not, Prod.exists,
    foldlM_transposeAxis List.nodup_nil, List.nil_append]
  constructor
  · rintro ⟨⟨hrank, hvector, hlength⟩, axes, ⟨hnames, hnodup, rfl⟩, inputStrides, n, hinput,
      outputStrides, n', houtput, data, hdata, hnew⟩
    obtain ⟨rfl, -⟩ := rowMajorStrides_eq hinput
    obtain ⟨rfl, -⟩ := rowMajorStrides_eq houtput
    obtain ⟨hshape, rfl⟩ := Tensor.new_eq_ok.1 hnew
    have hreads := mapM_readIndex hnodup (perm_axesOf hnodup hlength hnames)
    refine ⟨hrank, hvector, hlength, hnames, hnodup, ⟨n, hinput⟩, ⟨n', ?_⟩, hshape, ?_⟩
    · rw [hshape]
      exact houtput
    · rw [hshape]
      exact Except.ok.inj (hdata.symm.trans hreads)
  · rintro ⟨hrank, hvector, hlength, hnames, hnodup, ⟨n, hinput⟩, ⟨n', houtput⟩, hshape, hdata⟩
    have hreads := mapM_readIndex hnodup (perm_axesOf hnodup hlength hnames)
    rw [hshape] at houtput hdata
    exact ⟨⟨hrank, hvector, hlength⟩, _, ⟨hnames, hnodup, rfl⟩, _, n, hinput, _, n', houtput, _,
      hreads, Tensor.new_eq_ok.2 ⟨hshape, hdata⟩⟩

namespace Transposed

variable {t permutation u : Tensor}

theorem perm (h : Transposed ops t permutation u) :
    (axesOf ops permutation).Perm (List.range t.rank) := perm_axesOf h.nodup h.length h.names

theorem rank_eq (h : Transposed ops t permutation u) : u.rank = t.rank := by
  rw [Tensor.rank, h.shape, length_select, axesOf, List.length_map, h.length]

theorem length_data_eq (h : Transposed ops t permutation u) :
    u.data.length = t.data.length := by
  rw [h.data, List.length_map, List.length_range]

theorem get_eq (h : Transposed ops t permutation u) {o : ℕ} (ho : o < u.data.length) :
    u.get o = t.get (offset t.shape (permuted (axesOf ops permutation) (digit u.shape o))) := by
  have hlt : o < t.data.length := h.length_data_eq ▸ ho
  rw [Tensor.get, h.data, List.getD_eq_getElem _ _ (by simpa using hlt), List.getElem_map,
    List.getElem_range]

/-- **One element** at a multi-index. -/
theorem get_offset (h : Transposed ops t permutation u) {c d : ℕ → ℕ}
    (hcd : ∀ i a, (axesOf ops permutation)[i]? = some a → d a = c i) (hc : Within u.shape c) :
    Within t.shape d ∧ u.get (offset u.shape c) = t.get (offset t.shape d) := by
  have hlt : offset u.shape c < u.data.length := by
    rw [u.length_data]
    exact offset_lt hc
  refine ⟨(within_select h.perm hcd).1 (h.shape ▸ hc), ?_⟩
  have hsame : ∀ a < (strides t.shape).length,
      permuted (axesOf ops permutation) (digit u.shape (offset u.shape c)) a = d a := by
    intro a ha
    rw [length_strides] at ha
    obtain ⟨i, hi⟩ := List.mem_iff_getElem?.1 (h.perm.mem_iff.2 (List.mem_range.2 ha))
    have hlen : i < u.shape.length := by
      have hlt := (List.getElem?_eq_some_iff.1 hi).1
      rw [h.shape, length_select]
      exact hlt
    rw [permuted_of_getElem? h.nodup _ hi, digit_offset hc i hlen, hcd i a hi]
  rw [h.get_eq hlt, offset, weigh_congr hsame]
  rfl

end Transposed

/-! ## Back again -/

/-- **The inverse permutation**, spelt as a tensor of indices. -/
structure Inverse (ops : F32Ops) (permutation inverse : Tensor) : Prop where
  vector : inverse.rank = 1
  length : inverse.data.length = permutation.data.length
  names : ∀ raw ∈ inverse.data, NamesAxis ops raw
  inverts : ∀ i a : ℕ, (axesOf ops permutation)[i]? = some a → (axesOf ops inverse)[a]? = some i

/-- **A transposition is undone** by that with the inverse permutation. -/
theorem transposed_inverse {t permutation inverse u : Tensor} (h : Transposed ops t permutation u)
    (hinv : Inverse ops permutation inverse) : Transposed ops u inverse t := by
  have hlength : (axesOf ops inverse).length = t.rank := by
    rw [axesOf, List.length_map, hinv.length, h.length]
  -- each axis of the input is named at one place, which the inverse names there
  have hback : ∀ a b : ℕ, (axesOf ops inverse)[a]? = some b → (axesOf ops permutation)[b]? = some a := by
    intro a b hb
    have ha : a < t.rank := hlength ▸ (List.getElem?_eq_some_iff.1 hb).1
    obtain ⟨i, hi⟩ := List.mem_iff_getElem?.1 (h.perm.mem_iff.2 (List.mem_range.2 ha))
    obtain rfl := Option.some.inj ((hinv.inverts i a hi).symm.trans hb)
    exact hi
  have hnodup : (axesOf ops inverse).Nodup := by
    rw [List.nodup_iff_injective_getElem]
    intro a a' heq
    change (axesOf ops inverse)[(a : ℕ)] = (axesOf ops inverse)[(a' : ℕ)] at heq
    have hb := hback a _ (List.getElem?_eq_getElem a.2)
    have hb' := hback a' _ (List.getElem?_eq_getElem a'.2)
    rw [heq, hb'] at hb
    exact Fin.ext (Option.some.inj hb).symm
  have hlt : ∀ raw ∈ inverse.data, ops.toUsize raw < u.rank := by
    intro raw hraw
    obtain ⟨a, ha⟩ := List.mem_iff_getElem?.1 (List.mem_map_of_mem (f := ops.toUsize) hraw)
    have hb := (List.getElem?_eq_some_iff.1 (hback a _ ha)).1
    rwa [axesOf, List.length_map, h.length, ← h.rank_eq] at hb
  have hperm : (axesOf ops inverse).Perm (List.range u.rank) :=
    perm_range hnodup (by rw [hlength, h.rank_eq]) (by
      rw [axesOf, List.forall_mem_map]
      exact hlt)
  have hshape : t.shape = select u.shape (axesOf ops inverse) := by
    refine List.ext_getElem? fun a => ?_
    rcases lt_or_ge a t.rank with ha | ha
    · have hb := List.getElem?_eq_getElem (hlength.symm ▸ ha : a < (axesOf ops inverse).length)
      rw [getElem?_select hperm hb, h.shape, getElem?_select h.perm (hback a _ hb)]
    · rw [List.getElem?_eq_none ha, List.getElem?_eq_none]
      rw [length_select, hlength]
      exact ha
  have hreads : (List.range u.data.length).map (fun o =>
      u.get (offset u.shape (permuted (axesOf ops inverse) (digit t.shape o)))) =
        (List.range t.data.length).map t.get := by
    rw [h.length_data_eq]
    refine List.map_congr_left fun o ho => ?_
    have ho : o < t.shape.prod := by
      rw [← t.length_data]
      exact List.mem_range.1 ho
    have hcd : ∀ i a, (axesOf ops permutation)[i]? = some a →
        digit t.shape o a = permuted (axesOf ops inverse) (digit t.shape o) i := by
      intro i a hi
      rw [permuted_of_getElem? hnodup _ (hinv.inverts i a hi)]
    have hwithin : Within u.shape (permuted (axesOf ops inverse) (digit t.shape o)) := by
      rw [h.shape]
      exact (within_select h.perm hcd).2 (within_digit ho)
    rw [(h.get_offset hcd hwithin).2, offset_digit ho]
  refine ⟨h.rank_eq ▸ h.rank_ne, hinv.vector, ?_, fun raw hraw => ⟨hinv.names raw hraw, hlt raw hraw⟩,
    hnodup, h.outputStrides, h.inputStrides, hshape, ?_⟩
  · rw [hinv.length, h.length, h.rank_eq]
  · rw [hreads, t.map_get_range]

/-- **A transposition moves each element to its permuted coordinates**, reads nothing out of bounds,
and is undone by the inverse permutation. -/
theorem transpose_spec (ops : F32Ops) (t permutation u : Tensor)
    (h : transpose ops [t, permutation] = .ok u) :
    (axesOf ops permutation).Perm (List.range t.rank) ∧ u.rank = t.rank ∧
    (∀ i a : ℕ, (axesOf ops permutation)[i]? = some a → u.shape[i]? = t.shape[a]?) ∧
    (∀ c d : ℕ → ℕ, (∀ i a : ℕ, (axesOf ops permutation)[i]? = some a → d a = c i) →
      Within u.shape c → Within t.shape d ∧ offset u.shape c < u.data.length ∧
        offset t.shape d < t.data.length ∧
        u.get (offset u.shape c) = t.get (offset t.shape d)) ∧
    (∀ o < u.data.length, ∃ index < t.data.length,
      readIndex (strides t.shape) (strides u.shape) (axesOf ops permutation) o = .ok index ∧
        u.get o = t.get index) ∧
    ∀ inverse, Inverse ops permutation inverse → transpose ops [u, inverse] = .ok t := by
  have hu := transpose_eq_ok.1 h
  refine ⟨hu.perm, hu.rank_eq, fun i a ha => ?_, fun c d hcd hc => ?_, fun o ho => ?_,
    fun inverse hinv => transpose_eq_ok.2 (transposed_inverse hu hinv)⟩
  · rw [hu.shape, getElem?_select hu.perm ha]
  · obtain ⟨hd, hget⟩ := hu.get_offset hcd hc
    refine ⟨hd, ?_, ?_, hget⟩
    · rw [u.length_data]
      exact offset_lt hc
    · rw [t.length_data]
      exact offset_lt hd
  · obtain ⟨hread, -, hlt⟩ := readIndex_eq hu.perm (hu.length_data_eq ▸ ho)
      fun i a ha => permuted_of_getElem? hu.nodup (digit (select t.shape _) o) ha
    rw [← hu.shape] at hread hlt
    exact ⟨_, hlt, hread, hu.get_eq ho⟩

namespace TransposeSample

open F32Ops

/-- Two tables of two rows of three. -/
def tables : Tensor := ⟨[2, 2, 3], [1, 2, 3, 4, 5, 6, 7, 8, 9, 10, 11, 12], rfl⟩

/-- The axes moved one place on, and back. -/
def turn : Tensor := ⟨[3], [1, 2, 0], rfl⟩

def turnBack : Tensor := ⟨[3], [2, 0, 1], rfl⟩

/-- The tables turned: two tables of three rows of two. -/
def turned : Tensor := ⟨[2, 3, 2], [1, 7, 2, 8, 3, 9, 4, 10, 5, 11, 6, 12], rfl⟩

theorem inverse_turnBack : Inverse words turn turnBack where
  vector := rfl
  length := rfl
  names raw _ := by
    have hpositive : ¬ raw < 0 := UInt32.not_lt.2 UInt32.zero_le
    exact ⟨rfl, decide_eq_false hpositive, rfl⟩
  inverts := by
    have haxes : axesOf words turn = [1, 2, 0] := by decide +kernel
    have hback : axesOf words turnBack = [2, 0, 1] := by decide +kernel
    rw [haxes, hback]
    intro i a ha
    have hi : i < 3 := (List.getElem?_eq_some_iff.1 ha).1
    interval_cases i <;> cases ha <;> rfl

end TransposeSample

open TransposeSample F32Ops in
theorem transpose_spec_turned : transpose words [tables, turn] = .ok turned ∧
    (axesOf words turn).Perm (List.range tables.rank) ∧ turned.rank = tables.rank ∧
    (∀ i a : ℕ, (axesOf words turn)[i]? = some a → turned.shape[i]? = tables.shape[a]?) ∧
    (∀ c d : ℕ → ℕ, (∀ i a : ℕ, (axesOf words turn)[i]? = some a → d a = c i) →
      Within turned.shape c → Within tables.shape d ∧
        offset turned.shape c < turned.data.length ∧
        offset tables.shape d < tables.data.length ∧
        turned.get (offset turned.shape c) = tables.get (offset tables.shape d)) ∧
    (∀ o < turned.data.length, ∃ index < tables.data.length,
      readIndex (strides tables.shape) (strides turned.shape) (axesOf words turn) o = .ok index ∧
        turned.get o = tables.get index) ∧
    transpose words [turned, turnBack] = .ok tables := by
  have hrun : transpose words [tables, turn] = .ok turned := by decide +kernel
  obtain ⟨hperm, hrank, hshape, hget, hread, hback⟩ := transpose_spec words tables turn turned hrun
  exact ⟨hrun, hperm, hrank, hshape, hget, hread, hback turnBack inverse_turnBack⟩

end Kernel

end NTD97
