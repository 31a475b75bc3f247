import Mathlib
import NTD97.Tensor.Kernels

/-!
# Tensor/Causal — kernels that keep rows apart

    n₁ rows  ┌──k──┬────────┐        n₂ rows  ┌──k──┬───┐
             └─────┴────────┘                 └─────┴───┘        the first k rows agree

Two tensors may differ in the number of their rows, and agree on the first ones.  Each kernel here
keeps that: a row of its result depends on rows up to the same one.  Only attention looks at other
rows at all, and it looks back.
-/

namespace NTD97

open Slices Kernel

/-! ## Blocks of a list -/

section Blocks

variable {α β : Type} {w k n : ℕ}

/-- The first blocks, one for each of the first elements. -/
theorem take_flatMap {g : α → List β} : ∀ {l : List α} {k : ℕ}, k ≤ l.length →
    (∀ a ∈ l, (g a).length = w) → (l.flatMap g).take (k * w) = (l.take k).flatMap g
  | l, 0, _, _ => by rw [Nat.zero_mul, List.take_zero, List.take_zero, List.flatMap_nil]
  | a :: l, k + 1, hk, hg => by
      obtain ⟨ha, hl⟩ := List.forall_mem_cons.1 hg
      have hrest : (l.flatMap g).take (k * w) = (l.take k).flatMap g :=
        take_flatMap (Nat.le_of_succ_le_succ hk) hl
      rw [List.flatMap_cons, Nat.succ_mul, Nat.add_comm, ← ha, List.take_length_add_append, ha,
        hrest, List.take_succ_cons, List.flatMap_cons]

theorem take_flatMap_range {g : ℕ → List β} (hk : k ≤ n) (hg : ∀ i < n, (g i).length = w) :
    ((List.range n).flatMap g).take (k * w) = (List.range k).flatMap g := by
  rw [take_flatMap (by rwa [List.length_range]) fun i hi => hg i (List.mem_range.1 hi),
    List.take_range, Nat.min_eq_left hk]

/-- A cell before a cut is not affected by it. -/
theorem cell_take (l : List α) {i : ℕ} (hi : i < k) : cell w (l.take (k * w)) i = cell w l i := by
  have hle := cell_le w hi
  rw [cell, cell, List.drop_take, List.take_take, Nat.min_eq_left (by omega)]

end Blocks

namespace Kernel

/-- The place of an element of a head is in bounds. -/
theorem head_place_lt {k i head heads width offset : ℕ} (hi : i < k) (hhead : head < heads)
    (hoffset : offset < width) : (i * heads + head) * width + offset < k * (heads * width) := by
  have hrow : i * heads + head < k * heads := by
    have := cell_le heads hi
    omega
  have := cell_le width hrow
  rw [← Nat.mul_assoc]
  omega

/-- A score rests on one head of the query and one of the key. -/
theorem score_congr {ops : F32Ops} {q₁ q₂ k₁ k₂ : Tensor} {width queryBase keyBase : ℕ}
    (hquery : ∀ offset < width, q₁.get (queryBase + offset) = q₂.get (queryBase + offset))
    (hkey : ∀ offset < width, k₁.get (keyBase + offset) = k₂.get (keyBase + offset)) :
    score ops q₁ k₁ width queryBase keyBase = score ops q₂ k₂ width queryBase keyBase := by
  refine congrArg (fun dot => ops.div dot _) (List.foldl_ext _ _ _ fun dot offset hoffset => ?_)
  have hlt := List.mem_range.1 hoffset
  rw [hquery offset hlt, hkey offset hlt]

end Kernel

/-! ## Rows in common -/

/-- **Two tensors with `n₁` and `n₂` rows of one shape, whose first `k` rows agree.** -/
structure CommonRows (k : ℕ) (rest : List ℕ) (n₁ n₂ : ℕ) (t₁ t₂ : Tensor) : Prop where
  shape₁ : t₁.shape = n₁ :: rest
  shape₂ : t₂.shape = n₂ :: rest
  le₁ : k ≤ n₁
  le₂ : k ≤ n₂
  take_eq : t₁.data.take (k * rest.prod) = t₂.data.take (k * rest.prod)

namespace CommonRows

variable {ops : F32Ops} {k n₁ n₂ w : ℕ} {rest : List ℕ} {t₁ t₂ u₁ u₂ x₁ x₂ y₁ y₂ : Tensor}

/-- The elements of the first rows are the same. -/
theorem get_eq (h : CommonRows k rest n₁ n₂ t₁ t₂) {i : ℕ} (hi : i < k * rest.prod) :
    t₁.get i = t₂.get i := by
  have hcut (t : Tensor) : t.get i = (t.data.take (k * rest.prod)).getD i F32.zero := by
    rw [Tensor.get, List.getD_eq_getElem?_getD, List.getD_eq_getElem?_getD,
      List.getElem?_take_of_lt hi]
  rw [hcut, hcut, h.take_eq]

/-- **Results made row by row**, of which the first rows are the same. -/
theorem of_flatMap {g₁ g₂ : ℕ → List F32} (hle₁ : k ≤ n₁) (hle₂ : k ≤ n₂)
    (hshape₁ : u₁.shape = n₁ :: rest) (hshape₂ : u₂.shape = n₂ :: rest)
    (hdata₁ : u₁.data = (List.range n₁).flatMap g₁) (hdata₂ : u₂.data = (List.range n₂).flatMap g₂)
    (hlength₁ : ∀ i < n₁, (g₁ i).length = rest.prod)
    (hlength₂ : ∀ i < n₂, (g₂ i).length = rest.prod) (hg : ∀ i < k, g₁ i = g₂ i) :
    CommonRows k rest n₁ n₂ u₁ u₂ := by
  refine ⟨hshape₁, hshape₂, hle₁, hle₂, ?_⟩
  rw [hdata₁, hdata₂, take_flatMap_range hle₁ hlength₁, take_flatMap_range hle₂ hlength₂]
  exact List.flatMap_congr fun i hi => hg i (List.mem_range.1 hi)

/-! ## The kernels -/

theorem positionIds (h : CommonRows k [] n₁ n₂ t₁ t₂) (h₁ : Kernel.positionIds ops [t₁] = .ok u₁)
    (h₂ : Kernel.positionIds ops [t₂] = .ok u₂) : CommonRows k [] n₁ n₂ u₁ u₂ := by
  obtain ⟨m₁, hm₁, hshape₁, hdata₁⟩ := positionIds_eq_ok.1 h₁
  obtain ⟨m₂, hm₂, hshape₂, hdata₂⟩ := positionIds_eq_ok.1 h₂
  obtain rfl := List.singleton_inj.1 (h.shape₁.symm.trans hm₁)
  obtain rfl := List.singleton_inj.1 (h.shape₂.symm.trans hm₂)
  refine of_flatMap h.le₁ h.le₂ hshape₁ hshape₂ (hdata₁.trans List.map_eq_flatMap)
    (hdata₂.trans List.map_eq_flatMap) (fun _ _ => rfl) (fun _ _ => rfl) fun _ _ => rfl

theorem gather {table : Tensor} (h : CommonRows k [] n₁ n₂ t₁ t₂)
    (h₁ : Kernel.gather ops [table, t₁] = .ok u₁) (h₂ : Kernel.gather ops [table, t₂] = .ok u₂) :
    ∃ width, CommonRows k [width] n₁ n₂ u₁ u₂ := by
  obtain ⟨rows, width, m₁, htable, hm₁, hrows₁, hshape₁, hdata₁⟩ := gather_eq_ok.1 h₁
  obtain ⟨_, _, m₂, htable', hm₂, hrows₂, hshape₂, hdata₂⟩ := gather_eq_ok.1 h₂
  obtain ⟨rfl, hwidth⟩ := List.cons.inj (htable.symm.trans htable')
  obtain rfl := List.singleton_inj.1 hwidth
  obtain rfl := List.singleton_inj.1 (h.shape₁.symm.trans hm₁)
  obtain rfl := List.singleton_inj.1 (h.shape₂.symm.trans hm₂)
  have hlength₁ : t₁.data.length = n₁ := by rw [t₁.length_data, hm₁, List.prod_singleton]
  have hlength₂ : t₂.data.length = n₂ := by rw [t₂.length_data, hm₂, List.prod_singleton]
  have htake : t₁.data.take k = t₂.data.take k := by simpa using h.take_eq
  refine ⟨width, hshape₁, hshape₂, h.le₁, h.le₂, ?_⟩
  rw [List.prod_singleton, hdata₁, hdata₂,
    take_flatMap (hlength₁ ▸ h.le₁) fun i hi => length_tableRow htable (hrows₁ i hi),
    take_flatMap (hlength₂ ▸ h.le₂) fun i hi => length_tableRow htable (hrows₂ i hi), htake]

theorem rmsNorm {weight epsilon : Tensor} (h : CommonRows k [w] n₁ n₂ x₁ x₂)
    (h₁ : Kernel.rmsNorm ops [x₁, weight, epsilon] = .ok u₁)
    (h₂ : Kernel.rmsNorm ops [x₂, weight, epsilon] = .ok u₂) : CommonRows k [w] n₁ n₂ u₁ u₂ := by
  obtain ⟨w₁, hw₁, hne, -, -, -, -, hshape₁, hdata₁⟩ := rmsNorm_eq_ok.1 h₁
  obtain ⟨w₂, hw₂, -, -, -, -, -, hshape₂, hdata₂⟩ := rmsNorm_eq_ok.1 h₂
  obtain rfl : w = w₁ := Option.some.inj ((congrArg List.getLast? h.shape₁).symm.trans hw₁)
  obtain rfl : w = w₂ := Option.some.inj ((congrArg List.getLast? h.shape₂).symm.trans hw₂)
  rw [chunksExact_rows h.shape₁ hne, List.flatMap_map] at hdata₁
  rw [chunksExact_rows h.shape₂ hne, List.flatMap_map] at hdata₂
  have hlength {n : ℕ} {x : Tensor} (hshape : x.shape = [n, w]) (i : ℕ) (hi : i < n) :
      (normalizeRow ops w (some weight) (epsilon.get 0) (cell w x.data i)).length = [w].prod := by
    rw [length_normalizeRow, List.prod_singleton]
    exact length_cell (by rw [x.length_data, hshape, List.prod_pair]) hi
  refine of_flatMap h.le₁ h.le₂ (hshape₁.trans h.shape₁) (hshape₂.trans h.shape₂) hdata₁ hdata₂
    (hlength h.shape₁) (hlength h.shape₂) fun i hi => ?_
  have htake := h.take_eq
  rw [List.prod_singleton] at htake
  rw [← cell_take x₁.data hi, htake, cell_take _ hi]

theorem matmul {weight : Tensor} (h : CommonRows k [w] n₁ n₂ x₁ x₂)
    (h₁ : Kernel.matmul ops [x₁, weight] = .ok u₁) (h₂ : Kernel.matmul ops [x₂, weight] = .ok u₂) :
    ∃ width, weight.shape = [w, width] ∧ CommonRows k [width] n₁ n₂ u₁ u₂ := by
  obtain ⟨m₁, k₁, width, hx₁, hweight, hshape₁, hdata₁⟩ := matmul_eq_ok.1 h₁
  obtain ⟨m₂, k₂, width', hx₂, hweight', hshape₂, hdata₂⟩ := matmul_eq_ok.1 h₂
  obtain ⟨rfl, hk₁⟩ := List.cons.inj (h.shape₁.symm.trans hx₁)
  obtain ⟨rfl, hk₂⟩ := List.cons.inj (h.shape₂.symm.trans hx₂)
  obtain rfl := List.singleton_inj.1 hk₁
  obtain rfl := List.singleton_inj.1 hk₂
  obtain ⟨-, hwidth⟩ := List.cons.inj (hweight.symm.trans hweight')
  obtain rfl := List.singleton_inj.1 hwidth
  have hprod : [width].prod = width := List.prod_singleton
  refine ⟨width, hweight, of_flatMap h.le₁ h.le₂ hshape₁ hshape₂ hdata₁ hdata₂
    (fun _ _ => length_productRow.trans hprod.symm)
    (fun _ _ => length_productRow.trans hprod.symm) fun row hrow => ?_⟩
  refine List.map_congr_left fun col _ => ?_
  refine List.foldl_ext _ _ _ fun sum inner hinner => ?_
  have hle := cell_le w hrow
  have hlt : row * w + inner < k * [w].prod := by
    rw [List.prod_singleton]
    have := List.mem_range.1 hinner
    omega
  rw [h.get_eq hlt]

/-- Shapes that are forced to have the same rows, with the first rows unchanged. -/
theorem of_data (h : CommonRows k rest n₁ n₂ t₁ t₂) (hpos : n₁ ≠ 0) {rest' : List ℕ}
    (hshape₁ : u₁.shape = n₁ :: rest') (hshape₂ : u₂.shape = n₂ :: rest')
    (hdata₁ : u₁.data = t₁.data) (hdata₂ : u₂.data = t₂.data) : CommonRows k rest' n₁ n₂ u₁ u₂ := by
  have hlength : n₁ * rest'.prod = n₁ * rest.prod := by
    rw [← List.prod_cons, ← hshape₁, ← u₁.length_data, hdata₁, t₁.length_data, h.shape₁,
      List.prod_cons]
  refine ⟨hshape₁, hshape₂, h.le₁, h.le₂, ?_⟩
  rw [Nat.eq_of_mul_eq_mul_left (Nat.pos_of_ne_zero hpos) hlength, hdata₁, hdata₂, h.take_eq]

/-- **Cut into heads**: once both results are known to have their rows, the same heads come out,
since at most one of their two dimensions is inferred. -/
theorem reshape_heads {shapeSpec : Tensor} {heads₁ heads₂ width₁ width₂ : ℕ}
    (h : CommonRows k [w] n₁ n₂ x₁ x₂) (h₁ : Reshaped ops x₁ shapeSpec u₁)
    (h₂ : Reshaped ops x₂ shapeSpec u₂) (hshape₁ : u₁.shape = [n₁, heads₁, width₁])
    (hshape₂ : u₂.shape = [n₂, heads₂, width₂]) :
    heads₁ = heads₂ ∧ width₁ = width₂ ∧ CommonRows k [heads₁, width₁] n₁ n₂ u₁ u₂ := by
  have hlength {n heads width : ℕ} {x u : Tensor} (hx : x.shape = [n, w])
      (hu : u.shape = [n, heads, width]) (hr : Reshaped ops x shapeSpec u) :
      n ≠ 0 ∧ heads * width = w ∧ w ≠ 0 := by
    have hdata : x.data.length = n * w := by rw [x.length_data, hx, List.prod_pair]
    have hsame : n * (heads * width) = n * w := by
      rw [← hdata, ← hr.data_eq, u.length_data, hu, List.prod_cons, List.prod_pair]
    have hne : n * w ≠ 0 := fun h0 => hr.nonempty (List.eq_nil_of_length_eq_zero (hdata.trans h0))
    obtain ⟨hn, hw⟩ := Nat.mul_ne_zero_iff.1 hne
    exact ⟨hn, Nat.eq_of_mul_eq_mul_left (Nat.pos_of_ne_zero hn) hsame, hw⟩
  obtain ⟨hn₁, hprod₁, hw⟩ := hlength h.shape₁ hshape₁ h₁
  obtain ⟨-, hprod₂, -⟩ := hlength h.shape₂ hshape₂ h₂
  have hspec : shapeSpec.data.length = 3 := by rw [← h₁.length_eq, hshape₁]; rfl
  have hentry (i : ℕ) (hi : i < 3) : ∃ raw, shapeSpec.data[i]? = some raw :=
    ⟨_, List.getElem?_eq_getElem (hspec ▸ hi)⟩
  have hasked (i : ℕ) (raw : F32) : askedDimension ops x₁ (i + 1) raw =
      askedDimension ops x₂ (i + 1) raw := by
    rw [askedDimension, askedDimension, h.shape₁, h.shape₂]
    rfl
  have hsame (i : ℕ) {raw : F32} (hraw : shapeSpec.data[i + 1]? = some raw)
      (hfixed : ops.eq raw F32.negOne = false) : u₁.shape[i + 1]? = u₂.shape[i + 1]? := by
    rw [h₁.asked _ raw hraw hfixed, h₂.asked _ raw hraw hfixed, hasked]
  have hboth : heads₁ = heads₂ ∧ width₁ = width₂ := by
    obtain ⟨raw, hraw⟩ := hentry 1 (by omega)
    obtain ⟨raw', hraw'⟩ := hentry 2 (by omega)
    cases hfixed : ops.eq raw F32.negOne with
    | false =>
      have hheads := hsame 0 hraw hfixed
      rw [hshape₁, hshape₂] at hheads
      obtain rfl := Option.some.inj hheads
      have hpos : 0 < heads₁ := Nat.pos_of_ne_zero fun h0 => hw (by rw [← hprod₁, h0, Nat.zero_mul])
      exact ⟨rfl, Nat.eq_of_mul_eq_mul_left hpos (hprod₁.trans hprod₂.symm)⟩
    | true =>
      have hfixed' : ops.eq raw' F32.negOne = false := by
        rw [← Bool.not_eq_true]
        exact fun hneg => absurd (h₁.unique 1 2 raw raw' hraw hraw' hfixed hneg) (by omega)
      have hwidth := hsame 1 hraw' hfixed'
      rw [hshape₁, hshape₂] at hwidth
      obtain rfl := Option.some.inj hwidth
      have hpos : 0 < width₁ := Nat.pos_of_ne_zero fun h0 => hw (by rw [← hprod₁, h0, Nat.mul_zero])
      exact ⟨Nat.eq_of_mul_eq_mul_right hpos (hprod₁.trans hprod₂.symm), rfl⟩
  obtain ⟨rfl, rfl⟩ := hboth
  exact ⟨rfl, rfl, h.of_data hn₁ hshape₁ hshape₂ h₁.data_eq h₂.data_eq⟩

theorem rotaryPosition {heads : ℕ} (h : CommonRows k [heads, w] n₁ n₂ x₁ x₂)
    (hpositions : CommonRows k [] n₁ n₂ y₁ y₂) (h₁ : Kernel.rotaryPosition ops [x₁, y₁] = .ok u₁)
    (h₂ : Kernel.rotaryPosition ops [x₂, y₂] = .ok u₂) : CommonRows k [heads, w] n₁ n₂ u₁ u₂ := by
  obtain ⟨m₁, hd₁, w₁, hx₁, -, -, heven, -, hshape₁, hdata₁⟩ := rotaryPosition_eq_ok.1 h₁
  obtain ⟨m₂, hd₂, w₂, hx₂, -, -, -, -, hshape₂, hdata₂⟩ := rotaryPosition_eq_ok.1 h₂
  cases h.shape₁.symm.trans hx₁
  cases h.shape₂.symm.trans hx₂
  have hlength (y x : Tensor) (i : ℕ) : (rotatedRow ops x y heads w i).length = [heads, w].prod := by
    rw [length_rotatedRow heven, List.prod_pair]
  refine of_flatMap h.le₁ h.le₂ hshape₁ hshape₂ hdata₁ hdata₂ (fun i _ => hlength y₁ x₁ i)
    (fun i _ => hlength y₂ x₂ i) fun i hi => ?_
  have hposition : y₁.get i = y₂.get i :=
    hpositions.get_eq (by rw [List.prod_nil, Nat.mul_one]; exact hi)
  refine List.flatMap_congr fun head hhead => List.flatMap_congr fun pair hpair => ?_
  have hhead := List.mem_range.1 hhead
  have hpair := List.mem_range.1 hpair
  have hget (offset : ℕ) (hoffset : offset < w) :
      x₁.get ((i * heads + head) * w + offset) = x₂.get ((i * heads + head) * w + offset) :=
    h.get_eq (by rw [List.prod_pair]; exact head_place_lt hi hhead hoffset)
  rw [rotatePair, rotatePair, hposition, hget _ (by omega), Nat.add_assoc, hget _ (by omega)]

/-- **Attention looks back**: a row of the result rests on the keys and values up to its own. -/
theorem causalAttention {heads kvHeads : ℕ} (hq : CommonRows k [heads, w] n₁ n₂ x₁ x₂)
    (hk : CommonRows k [kvHeads, w] n₁ n₂ y₁ y₂) (hv : CommonRows k [kvHeads, w] n₁ n₂ t₁ t₂)
    (h₁ : Kernel.causalAttention ops [x₁, y₁, t₁] = .ok u₁)
    (h₂ : Kernel.causalAttention ops [x₂, y₂, t₂] = .ok u₂) : CommonRows k [heads, w] n₁ n₂ u₁ u₂ := by
  obtain ⟨m₁, hd₁, kv₁, w₁, hx₁, hy₁, -, -, hkv, hheads, hgroups, hshape₁, hdata₁⟩ :=
    causalAttention_eq_ok.1 h₁
  obtain ⟨m₂, hd₂, kv₂, w₂, hx₂, hy₂, -, -, -, -, -, hshape₂, hdata₂⟩ :=
    causalAttention_eq_ok.1 h₂
  cases hq.shape₁.symm.trans hx₁
  cases hq.shape₂.symm.trans hx₂
  cases hk.shape₁.symm.trans hy₁
  cases hk.shape₂.symm.trans hy₂
  have hprod : heads * w = [heads, w].prod := List.prod_pair.symm
  refine of_flatMap hq.le₁ hq.le₂ hshape₁ hshape₂ hdata₁ hdata₂
    (fun _ _ => length_attendRow.trans hprod) (fun _ _ => length_attendRow.trans hprod)
    fun i hi => List.flatMap_congr fun head hhead => ?_
  have hhead := List.mem_range.1 hhead
  have hgroup : head / (heads / kvHeads) < kvHeads := by
    obtain ⟨group, rfl⟩ := Nat.dvd_of_mod_eq_zero hgroups
    rw [Nat.mul_div_cancel_left _ (Nat.pos_of_ne_zero hkv)]
    exact Nat.div_lt_of_lt_mul (Nat.mul_comm kvHeads group ▸ hhead)
  have hquery (offset : ℕ) (hoffset : offset < w) :
      x₁.get ((i * heads + head) * w + offset) = x₂.get ((i * heads + head) * w + offset) :=
    hq.get_eq (by rw [List.prod_pair]; exact head_place_lt hi hhead hoffset)
  have hearlier {a₁ a₂ : Tensor} (ha : CommonRows k [kvHeads, w] n₁ n₂ a₁ a₂) {position : ℕ}
      (hposition : position ∈ List.range (i + 1)) (offset : ℕ) (hoffset : offset < w) :
      a₁.get ((position * kvHeads + head / (heads / kvHeads)) * w + offset) =
        a₂.get ((position * kvHeads + head / (heads / kvHeads)) * w + offset) := by
    have hle : position < k := (Nat.lt_succ_iff.1 (List.mem_range.1 hposition)).trans_lt hi
    exact ha.get_eq (by rw [List.prod_pair]; exact head_place_lt hle hgroup hoffset)
  have hscores : ((List.range (i + 1)).map fun position => score ops x₁ y₁ w
        ((i * heads + head) * w) ((position * kvHeads + head / (heads / kvHeads)) * w)) =
      (List.range (i + 1)).map fun position => score ops x₂ y₂ w
        ((i * heads + head) * w) ((position * kvHeads + head / (heads / kvHeads)) * w) := by
    refine List.map_congr_left fun position hposition => ?_
    exact score_congr hquery fun offset hoffset => hearlier hk hposition offset hoffset
  rw [attendHead, attendHead]
  refine List.map_congr_left fun offset hoffset => ?_
  refine List.foldl_ext _ _ _ fun sum position hposition => ?_
  rw [hscores, hearlier hv hposition offset (List.mem_range.1 hoffset)]

theorem elementwise {op : F32 → F32 → F32} {rest' : List ℕ} (hx : CommonRows k rest n₁ n₂ x₁ x₂)
    (hy : CommonRows k rest' n₁ n₂ y₁ y₂) (h₁ : elementwiseBinary op [x₁, y₁] = .ok u₁)
    (h₂ : elementwiseBinary op [x₂, y₂] = .ok u₂) : CommonRows k rest n₁ n₂ u₁ u₂ := by
  obtain ⟨hsame, hshape₁, hdata₁⟩ := elementwiseBinary_eq_ok.1 h₁
  obtain ⟨-, hshape₂, hdata₂⟩ := elementwiseBinary_eq_ok.1 h₂
  obtain ⟨-, rfl⟩ := List.cons.inj ((hx.shape₁.symm.trans hsame).trans hy.shape₁)
  refine ⟨hshape₁.trans hx.shape₁, hshape₂.trans hx.shape₂, hx.le₁, hx.le₂, ?_⟩
  rw [hdata₁, hdata₂, List.take_zipWith, List.take_zipWith, hx.take_eq, hy.take_eq]

theorem silu (h : CommonRows k rest n₁ n₂ x₁ x₂) (h₁ : Kernel.silu ops [x₁] = .ok u₁)
    (h₂ : Kernel.silu ops [x₂] = .ok u₂) : CommonRows k rest n₁ n₂ u₁ u₂ := by
  obtain ⟨hshape₁, hdata₁⟩ := silu_eq_ok.1 h₁
  obtain ⟨hshape₂, hdata₂⟩ := silu_eq_ok.1 h₂
  refine ⟨hshape₁.trans h.shape₁, hshape₂.trans h.shape₂, h.le₁, h.le₂, ?_⟩
  rw [hdata₁, hdata₂, ← List.map_take, ← List.map_take, h.take_eq]

end CommonRows

end NTD97
