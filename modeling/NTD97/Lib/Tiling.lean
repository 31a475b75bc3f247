import Mathlib

/-!
# Lib/Tiling — intervals laid end to end

    a ──i──▸ hi i ──j──▸ hi j ──▸ … ──▸ b

The members of a list name half-open intervals of a linear order.  `Tiles` says that each starts
where the one before it ends, the first at `a`, and that the last ends at `b`.  Two facts about any
tiling:

* `Tiles.existsUnique` — a place from `a` to `b` is in exactly one of the intervals;
* `Tiles.flatten_extract` — what is read piece by piece is what is read at once.

`Cut size` is the tiling whose pieces are as long as `size` lets them be; `Cut.length_eq` counts
them.
-/

namespace Tiling

variable {ι α β : Type}

section Order

variable [LinearOrder α] {lo hi : ι → α} {a b : α} {l : List ι}

/-- **Laid end to end from `a` to `b`**, none of them empty. -/
inductive Tiles (lo hi : ι → α) : α → α → List ι → Prop
  | nil (a : α) : Tiles lo hi a a []
  | cons {a b : α} {i : ι} {l : List ι} (hlo : lo i = a) (hlt : a < hi i)
      (rest : Tiles lo hi (hi i) b l) : Tiles lo hi a b (i :: l)

namespace Tiles

theorem le (h : Tiles lo hi a b l) : a ≤ b := by
  induction h with
  | nil a => exact le_rfl
  | cons _ hlt _ ih => exact hlt.le.trans ih

theorem between (h : Tiles lo hi a b l) : ∀ i ∈ l, a ≤ lo i ∧ lo i < hi i ∧ hi i ≤ b := by
  induction h with
  | nil a => exact List.forall_mem_nil _
  | cons hlo hlt rest ih =>
    refine List.forall_mem_cons.2 ⟨⟨hlo.ge, hlo ▸ hlt, rest.le⟩, fun j hj => ?_⟩
    obtain ⟨hfrom, hne, hto⟩ := ih j hj
    exact ⟨hlt.le.trans hfrom, hne, hto⟩

/-- The first starts at `a`. -/
theorem head (h : Tiles lo hi a b l) : ∀ i ∈ l.head?, lo i = a := by
  rintro i hi
  cases h with
  | nil => exact nomatch hi
  | cons hlo => exact Option.some.inj hi ▸ hlo

/-- The last ends at `b`. -/
theorem last (h : Tiles lo hi a b l) : ∀ i ∈ l.getLast?, hi i = b := by
  induction h with
  | nil a => exact fun i hi => nomatch hi
  | cons _ _ rest ih =>
    cases rest with
    | nil => exact fun i hi => Option.some.inj hi ▸ rfl
    | cons => rwa [List.getLast?_cons_cons]

/-- Each starts where the one before it ends. -/
theorem isChain (h : Tiles lo hi a b l) : l.IsChain fun i j => hi i = lo j := by
  induction h with
  | nil a => exact .nil
  | cons _ _ rest ih =>
    cases rest with
    | nil => exact .singleton _
    | cons hlo => exact List.isChain_cons_cons.2 ⟨hlo.symm, ih⟩

/-- **A place from `a` to `b` is in exactly one of the intervals.** -/
theorem existsUnique (h : Tiles lo hi a b l) {x : α} (hx : x ∈ Set.Ico a b) :
    ∃! k : Fin l.length, x ∈ Set.Ico (lo (l.get k)) (hi (l.get k)) := by
  induction h with
  | nil a => exact absurd (hx.1.trans_lt hx.2) (lt_irrefl a)
  | @cons a b i l hlo hlt rest ih =>
    rcases lt_or_ge x (hi i) with hin | hout
    · refine ⟨⟨0, Nat.succ_pos _⟩, ⟨hlo.trans_le hx.1, hin⟩, ?_⟩
      refine Fin.cases (fun _ => rfl) fun k hk => ?_
      have hfrom := (rest.between _ (List.get_mem l k)).1
      exact absurd (hin.trans_le hfrom) (not_lt.2 hk.1)
    · obtain ⟨k, hk, hunique⟩ := ih ⟨hout, hx.2⟩
      refine ⟨k.succ, hk, Fin.cases (fun hfirst => ?_) fun j hj => congrArg _ (hunique j hj)⟩
      exact absurd hfirst.2 (not_lt.2 hout)

end Tiles

end Order

section Size

variable {lo hi : ι → ℕ} {size a b : ℕ} {l : List ι}

/-- **What is read piece by piece** is what is read at once. -/
theorem Tiles.flatten_extract (h : Tiles lo hi a b l) (text : List β) :
    (l.map fun i => text.extract (lo i) (hi i)).flatten = text.extract a b := by
  induction h with
  | nil a =>
    rw [List.map_nil, List.flatten_nil, List.extract_eq_take_drop, Nat.sub_self, List.take_zero]
  | @cons a b i l hlo hlt rest ih =>
    have hlen : b - a = (hi i - a) + (b - hi i) := by
      have hle := rest.le
      omega
    have hstart : a + (hi i - a) = hi i := Nat.add_sub_cancel' hlt.le
    rw [List.map_cons, List.flatten_cons, ih, hlo, List.extract_eq_take_drop,
      List.extract_eq_take_drop, List.extract_eq_take_drop, hlen, List.take_add, List.drop_drop,
      hstart]

/-- **Cut from `a` to `b`**: each piece takes what is left, as far as `size` goes. -/
inductive Cut (lo hi : ι → ℕ) (size : ℕ) : ℕ → ℕ → List ι → Prop
  | nil (a : ℕ) : Cut lo hi size a a []
  | cons {a b : ℕ} {i : ι} {l : List ι} (hlo : lo i = a) (hlt : a < b)
      (hhi : hi i = min (a + size) b) (rest : Cut lo hi size (hi i) b l) :
      Cut lo hi size a b (i :: l)

namespace Cut

theorem tiles (hsize : 0 < size) (h : Cut lo hi size a b l) : Tiles lo hi a b l := by
  induction h with
  | nil a => exact .nil a
  | cons hlo hlt hhi _ ih => exact .cons hlo (by omega) ih

theorem le_size (h : Cut lo hi size a b l) : ∀ i ∈ l, hi i ≤ lo i + size := by
  induction h with
  | nil a => exact List.forall_mem_nil _
  | cons hlo _ hhi _ ih => exact List.forall_mem_cons.2 ⟨by omega, ih⟩

/-- Only the last piece may be shorter. -/
theorem full (h : Cut lo hi size a b l) : ∀ i ∈ l.dropLast, hi i = lo i + size := by
  induction h with
  | nil a => exact List.forall_mem_nil _
  | cons hlo _ hhi rest ih =>
    cases rest with
    | nil => exact List.forall_mem_nil _
    | cons _ hlt =>
      rw [List.dropLast_cons_cons]
      exact List.forall_mem_cons.2 ⟨by omega, ih⟩

/-- **The number of pieces.** -/
theorem length_eq (hsize : 0 < size) (h : Cut lo hi size a b l) : l.length = (b - a) ⌈/⌉ size := by
  induction h with
  | nil a => rw [Nat.sub_self, zero_ceilDiv, List.length_nil]
  | @cons a b i l _ hlt hhi _ ih =>
    rw [List.length_cons, ih, Nat.ceilDiv_eq_add_pred_div, Nat.ceilDiv_eq_add_pred_div]
    rcases le_total (a + size) b with hle | hle
    · have hsum : b - a + size - 1 = b - hi i + size - 1 + size := by omega
      rw [hsum, Nat.add_div_right _ hsize]
    · have hnone : b - hi i + size - 1 = size - 1 := by omega
      have hone : b - a + size - 1 = b - a - 1 + size := by omega
      rw [hnone, hone, Nat.add_div_right _ hsize, Nat.div_eq_of_lt (by omega),
        Nat.div_eq_of_lt (by omega)]

end Cut

end Size

end Tiling
