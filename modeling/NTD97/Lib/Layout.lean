import Mathlib

/-!
# Lib/Layout — blocks at aligned offsets

    pos ▪ gap ▪ block ▪ gap ▪ block ▪ … ▪ gap ▪ block

Each block starts at the next multiple of `a`.  `Laid` is what a reader of the blocks accepts, with
anything in the gaps; `laid` is what a writer produces that copies the blocks into a buffer of
`fill`.  `Laid.eq_laid_iff` says which accepted buffers are the written one.
-/

namespace Layout

variable {α : Type} {a pos : ℕ} {fill : α} {block : List α} {blocks : List (List α)}
  {b buf pre : List α}

/-- The next multiple of `a`. -/
def alignUp (a n : ℕ) : ℕ := (n + (a - 1)) / a * a

theorem le_alignUp (ha : 0 < a) (n : ℕ) : n ≤ alignUp a n := by
  have hdiv := Nat.div_add_mod (n + (a - 1)) a
  have hmod := Nat.mod_lt (n + (a - 1)) ha
  rw [alignUp, Nat.mul_comm]
  omega

/-- A multiple of `a` needs no gap. -/
theorem alignUp_of_dvd (ha : 0 < a) {n : ℕ} (h : a ∣ n) : alignUp a n = n := by
  obtain ⟨m, rfl⟩ := h
  rw [alignUp, Nat.mul_add_div ha, Nat.div_eq_of_lt (by omega), Nat.add_zero, Nat.mul_comm]

/-- Overwrite the part of a buffer that starts at `start`. -/
def copyFromSlice (dst : List α) (start : ℕ) (src : List α) : List α :=
  dst.take start ++ (src ++ dst.drop (start + src.length))

/-- A part of the buffer that has the length of what is copied is replaced by it. -/
theorem copyFromSlice_append {part tail src : List α} (hpart : part.length = src.length)
    (hpos : pre.length = pos) :
    copyFromSlice (pre ++ (part ++ tail)) pos src = pre ++ (src ++ tail) := by
  have hdrop : (pre ++ (part ++ tail)).drop (pos + src.length) = tail := by
    rw [← List.append_assoc]
    exact List.drop_left' (by rw [List.length_append, hpos, hpart])
  rw [copyFromSlice, List.take_left' hpos, hdrop]

/-! ## What a reader accepts -/

/-- The buffer holds the blocks, each at the next multiple of `a`, and nothing after them. -/
def Laid (a : ℕ) : ℕ → List (List α) → List α → Prop
  | _, [], b => b = []
  | pos, block :: blocks, b => ∃ gap rest, b = gap ++ (block ++ rest) ∧
      gap.length = alignUp a pos - pos ∧ Laid a (alignUp a pos + block.length) blocks rest

/-- Where the last block ends. -/
def extent (a : ℕ) : ℕ → List (List α) → ℕ
  | pos, [] => pos
  | pos, block :: blocks => extent a (alignUp a pos + block.length) blocks

/-- Where the blocks end. -/
def ends (a : ℕ) : ℕ → List (List α) → List ℕ
  | _, [] => []
  | pos, block :: blocks =>
    (alignUp a pos + block.length) :: ends a (alignUp a pos + block.length) blocks

theorem le_extent (ha : 0 < a) : ∀ (blocks : List (List α)) (pos : ℕ), pos ≤ extent a pos blocks
  | [], _ => Nat.le_refl _
  | block :: blocks, pos => by
      have hrest := le_extent ha blocks (alignUp a pos + block.length)
      have halign := le_alignUp ha pos
      exact Nat.le_trans (by omega) hrest

theorem Laid.length_eq (ha : 0 < a) : ∀ {blocks : List (List α)} {pos : ℕ} {b : List α},
    Laid a pos blocks b → pos + b.length = extent a pos blocks
  | [], pos, b, h => by
      rw [show b = [] from h]
      rfl
  | block :: blocks, pos, b, h => by
      obtain ⟨gap, rest, rfl, hgap, hrest⟩ := h
      have halign := le_alignUp ha pos
      have hlen := hrest.length_eq ha
      rw [extent, ← hlen]
      simp only [List.length_append, hgap]
      omega

/-! ## What a writer produces -/

/-- The blocks with `fill` in every gap. -/
def laid (a : ℕ) (fill : α) : ℕ → List (List α) → List α
  | _, [] => []
  | pos, block :: blocks => List.replicate (alignUp a pos - pos) fill ++
      (block ++ laid a fill (alignUp a pos + block.length) blocks)

theorem laid_laid : ∀ (blocks : List (List α)) (pos : ℕ), Laid a pos blocks (laid a fill pos blocks)
  | [], _ => rfl
  | _ :: blocks, _ => ⟨_, _, rfl, List.length_replicate, laid_laid blocks _⟩

/-- Copy the blocks to their places. -/
def copyBlocks (a : ℕ) : ℕ → List (List α) → List α → List α
  | _, [], out => out
  | pos, block :: blocks, out =>
    copyBlocks a (alignUp a pos + block.length) blocks (copyFromSlice out (alignUp a pos) block)

/-- **Copying the blocks into a buffer of `fill`** lays them out with `fill` in the gaps. -/
theorem copyBlocks_replicate (ha : 0 < a) : ∀ {blocks : List (List α)} {pos : ℕ} {pre : List α},
    pre.length = pos → copyBlocks a pos blocks
      (pre ++ List.replicate (extent a pos blocks - pos) fill) = pre ++ laid a fill pos blocks
  | [], pos, pre, _ => by
      rw [copyBlocks, extent, Nat.sub_self]
      rfl
  | block :: blocks, pos, pre, hpre => by
      have halign := le_alignUp ha pos
      have hextent := le_extent ha blocks (alignUp a pos + block.length)
      have hlen : extent a pos (block :: blocks) - pos = (alignUp a pos - pos) + (block.length +
          (extent a (alignUp a pos + block.length) blocks - (alignUp a pos + block.length))) := by
        rw [extent]
        omega
      have hpos : (pre ++ List.replicate (alignUp a pos - pos) fill).length = alignUp a pos := by
        rw [List.length_append, List.length_replicate, hpre]
        omega
      rw [copyBlocks, hlen, List.replicate_add, List.replicate_add, ← List.append_assoc,
        copyFromSlice_append List.length_replicate hpos, ← List.append_assoc,
        copyBlocks_replicate ha (by rw [List.length_append, hpos])]
      simp only [laid, List.append_assoc]

/-! ## The gaps -/

/-- The gap behind `e` holds `fill` as far as the buffer reaches. -/
def Filled (a : ℕ) (fill : α) (buf : List α) (e : ℕ) : Prop :=
  ∀ i, e ≤ i → i < alignUp a e → ∀ x, buf[i]? = some x → x = fill

theorem filled_iff_replicate {gap tail : List α} (hpre : pre.length = pos)
    (hgap : gap.length = alignUp a pos - pos) :
    Filled a fill (pre ++ (gap ++ tail)) pos ↔ gap = List.replicate (alignUp a pos - pos) fill := by
  have hget : ∀ i, i < gap.length → (pre ++ (gap ++ tail))[pos + i]? = gap[i]? := by
    intro i hi
    rw [List.getElem?_append_right (by omega), hpre, Nat.add_sub_cancel_left,
      List.getElem?_append_left hi]
  constructor
  · intro h
    refine List.eq_replicate_iff.2 ⟨hgap, fun x hx => ?_⟩
    obtain ⟨i, hi, rfl⟩ := List.getElem_of_mem hx
    refine h (pos + i) (Nat.le_add_right ..) (by omega) _ ?_
    rw [hget i hi, List.getElem?_eq_getElem hi]
  · intro h i hle hlt x hx
    obtain ⟨j, rfl⟩ := Nat.exists_eq_add_of_le hle
    have hj : j < gap.length := by omega
    rw [hget j hj] at hx
    exact List.eq_of_mem_replicate (h ▸ List.mem_of_getElem? hx)

/-- **An accepted buffer is the written one** exactly if all its gaps hold `fill`. -/
theorem Laid.eq_laid_iff : ∀ {blocks : List (List α)} {pos : ℕ} {pre b : List α},
    0 < a → pre.length = pos → Laid a pos blocks b →
    (b = laid a fill pos blocks ↔ ∀ e ∈ pos :: ends a pos blocks, Filled a fill (pre ++ b) e)
  | [], pos, pre, b, _, hpre, h => by
      obtain rfl : b = [] := h
      refine ⟨fun _ e he i hle _ x hx => ?_, fun _ => rfl⟩
      obtain rfl := List.mem_singleton.1 he
      rw [List.append_nil, List.getElem?_eq_none (by omega)] at hx
      exact nomatch hx
  | block :: blocks, pos, pre, b, ha, hpre, h => by
      obtain ⟨gap, rest, rfl, hgap, hrest⟩ := h
      have halign := le_alignUp ha pos
      have hpre' : (pre ++ (gap ++ block)).length = alignUp a pos + block.length := by
        simp only [List.length_append, hpre, hgap]
        omega
      have hbuf : pre ++ (gap ++ block) ++ rest = pre ++ (gap ++ (block ++ rest)) := by
        simp only [List.append_assoc]
      have ih : rest = laid a fill (alignUp a pos + block.length) blocks ↔ _ :=
        hrest.eq_laid_iff ha hpre'
      rw [hbuf] at ih
      rw [ends, List.forall_mem_cons, ← ih, filled_iff_replicate hpre hgap, laid]
      constructor
      · intro heq
        obtain ⟨hfill, htail⟩ := List.append_inj heq (by rw [hgap, List.length_replicate])
        exact ⟨hfill, List.append_cancel_left htail⟩
      · rintro ⟨hfill, htail⟩
        rw [← hfill, ← htail]

end Layout
