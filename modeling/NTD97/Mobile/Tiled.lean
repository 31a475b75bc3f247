import Mathlib
import NTD97.Mobile
import NTD97.Tensor.Shapes

/-!
# Mobile/Tiled — products in blocks

    0 ─tile─▸ ─tile─▸ … ─rest─▸ k        one sum, carried across the blocks

The blocks cut the inner dimension, and the sum of an element goes on from one to the next: the
additions are those of the reference, in its order.  A block of width zero never moves, so the loop
takes its rounds from a given number; a provider's tile is positive, and `2 ^ 64` rounds are enough.
-/

namespace NTD97

open Guard

namespace Kernel

variable (ops : F32Ops)

/-- The additions of one block. -/
def sumBlock (lhs rhs : Tensor) (k n row col block stop : ℕ) (sum : F32) : F32 :=
  (List.range' block (stop - block)).foldl
    (fun sum inner => ops.add sum (ops.mul (lhs.get (row * k + inner)) (rhs.get (inner * n + col))))
    sum

/-- The blocks from one on, within so many rounds. -/
def sumBlocks (lhs rhs : Tensor) (k n row col tile : ℕ) : ℕ → ℕ → F32 → Option F32
  | 0, block, sum => if block < k then none else some sum
  | rounds + 1, block, sum =>
    if block < k then
      let stop := min (min (block + tile) (2 ^ 64 - 1)) k
      sumBlocks lhs rhs k n row col tile rounds stop
        (sumBlock ops lhs rhs k n row col block stop sum)
    else some sum

/-- `none`: a loop over blocks has not ended within so many rounds. -/
def tiledMatmul (rounds : ℕ) (inputs : List Tensor) (tile : ℕ) :
    Option (Except TensorError Tensor) :=
  match inputs with
  | [lhs, rhs] =>
    match lhs.shape, rhs.shape with
    | [m, k], [k', n] =>
      if k ≠ k' then some (throw .shapeMismatch)
      else match checkedMulUsize m n with
        | none => some (throw .invalidShape)
        | some _ => do
          let output ← (List.range m).mapM fun row => (List.range n).mapM fun col =>
            sumBlocks ops lhs rhs k n row col tile rounds 0 F32.zero
          return Tensor.new [m, n] output.flatten
    | _, _ => some (throw .shapeMismatch)
  | inputs => some (throw (.arity 2 inputs.length))

variable {ops} {lhs rhs : Tensor} {m k n row col tile : ℕ}

/-! ## The blocks of one element -/

/-- The sum over the first `stop` places. -/
def sumTo (ops : F32Ops) (lhs rhs : Tensor) (k n row col stop : ℕ) : F32 :=
  sumBlock ops lhs rhs k n row col 0 stop F32.zero

theorem sumTo_eq_dotProduct :
    sumTo ops lhs rhs k n row col k = dotProduct ops lhs rhs k n row col := by
  rw [sumTo, sumBlock, dotProduct, List.range_eq_range', Nat.sub_zero]

/-- **One block** goes on where the sum stands. -/
theorem sumBlock_sumTo {block stop : ℕ} (h : block ≤ stop) :
    sumBlock ops lhs rhs k n row col block stop (sumTo ops lhs rhs k n row col block) =
      sumTo ops lhs rhs k n row col stop := by
  have hsplit : List.range' 0 block ++ List.range' block (stop - block) = List.range' 0 stop := by
    have happend := List.range'_append_1 (s := 0) (m := block) (n := stop - block)
    rwa [Nat.zero_add, Nat.add_sub_cancel' h] at happend
  rw [sumTo, sumTo, sumBlock, sumBlock, sumBlock, ← List.foldl_append, Nat.sub_zero, Nat.sub_zero,
    hsplit]

/-- **All blocks**: each round ends a positive number of places further. -/
theorem sumBlocks_eq (htile : 0 < tile) (hk : k < 2 ^ 64) :
    ∀ {rounds block : ℕ}, block ≤ k → k ≤ block + rounds →
      sumBlocks ops lhs rhs k n row col tile rounds block (sumTo ops lhs rhs k n row col block) =
        some (dotProduct ops lhs rhs k n row col)
  | 0, block, hle, henough => by
      obtain rfl : block = k := by omega
      rw [sumBlocks, if_neg (lt_irrefl _), sumTo_eq_dotProduct]
  | rounds + 1, block, hle, henough => by
      rw [sumBlocks]
      rcases hle.lt_or_eq with hlt | rfl
      · have hmoved : block < min (min (block + tile) (2 ^ 64 - 1)) k := by omega
        rw [if_pos hlt]
        simp only [sumBlock_sumTo hmoved.le]
        exact sumBlocks_eq htile hk (min_le_right _ _) (by omega)
      · rw [if_neg (lt_irrefl _), sumTo_eq_dotProduct]

/-! ## The whole product -/

theorem mapM_some {α β : Type} {f : α → Option β} {g : α → β} :
    ∀ {l : List α}, (∀ a ∈ l, f a = some (g a)) → l.mapM f = some (l.map g)
  | [], _ => rfl
  | a :: l, h => by
      obtain ⟨ha, hl⟩ := List.forall_mem_cons.1 h
      rw [List.mapM_cons, ha, mapM_some hl]
      rfl

/-- A dimension of a tensor with elements fits a machine word. -/
theorem inner_lt {t : Tensor} (hshape : t.shape = [m, k]) (hm : 0 < m) : k < 2 ^ 64 := by
  have hlt := t.length_data_lt
  rw [t.length_data, hshape, List.prod_cons, List.prod_singleton] at hlt
  exact (Nat.le_mul_of_pos_left k hm).trans_lt hlt

/-- The product of matrices, where the loops run. -/
theorem tiledMatmul_matrices {k' : ℕ} (hlhs : lhs.shape = [m, k]) (hrhs : rhs.shape = [k', n])
    (htile : 0 < tile) {rounds : ℕ} (hrounds : 2 ^ 64 ≤ rounds) :
    tiledMatmul ops rounds [lhs, rhs] tile = some (matmul ops [lhs, rhs]) := by
  simp only [tiledMatmul, matmul, hlhs, hrhs]
  by_cases hk : k = k'
  · have hpass : (refuse (k ≠ k') .shapeMismatch : Except TensorError Unit) = .ok () :=
      refuse_eq_ok.2 (not_not.2 hk)
    rw [if_neg (not_not.2 hk), hpass]
    cases hcount : checkedMulUsize m n with
    | none => rfl
    | some count =>
      have hrows : ∀ row ∈ List.range m, ((List.range n).mapM fun col =>
          sumBlocks ops lhs rhs k n row col tile rounds 0 F32.zero) =
            some ((List.range n).map fun col => dotProduct ops lhs rhs k n row col) := by
        intro row hrow
        have hlt : k < 2 ^ 64 := inner_lt hlhs (Nat.zero_lt_of_lt (List.mem_range.1 hrow))
        exact mapM_some fun col _ => sumBlocks_eq htile hlt (Nat.zero_le k) (by omega)
      simp only [mapM_some hrows, List.flatMap_def]
      rfl
  · have hstop : (refuse (k ≠ k') .shapeMismatch : Except TensorError Unit) =
        .error .shapeMismatch := refuse_eq_error.2 ⟨hk, rfl⟩
    rw [if_pos hk, hstop]
    rfl

/-- **A product in blocks is the product.** -/
theorem tiledMatmul_of_pos (inputs : List Tensor) (htile : 0 < tile) {rounds : ℕ}
    (hrounds : 2 ^ 64 ≤ rounds) :
    tiledMatmul ops rounds inputs tile = some (matmul ops inputs) := by
  rcases inputs with _ | ⟨lhs, _ | ⟨rhs, _ | ⟨_, _⟩⟩⟩
  · rfl
  · rfl
  · rcases hlhs : lhs.shape with _ | ⟨m, _ | ⟨k, _ | ⟨_, _⟩⟩⟩ <;>
      rcases hrhs : rhs.shape with _ | ⟨k', _ | ⟨n, _ | ⟨_, _⟩⟩⟩
    case cons.cons.nil.cons.cons.nil => exact tiledMatmul_matrices hlhs hrhs htile hrounds
    all_goals simp only [tiledMatmul, matmul, hlhs, hrhs]
  · rfl

end Kernel

open Kernel

/-! ## The provider -/

/-- A provider whose products are in blocks; the width is positive. -/
structure CpuTiledProvider where
  tile : ℕ
  tile_pos : 0 < tile

namespace CpuTiledProvider

def new (tile : ℕ) : CpuTiledProvider := ⟨max tile 1, by omega⟩

def default : CpuTiledProvider := new 32

theorem returns (ops : F32Ops) (self : CpuTiledProvider) (inputs : List Tensor) :
    (tiledMatmul ops (2 ^ 64) inputs self.tile).isSome := by
  rw [tiledMatmul_of_pos inputs self.tile_pos le_rfl]
  rfl

def execute (ops : F32Ops) (self : CpuTiledProvider) : ExecutionProvider := fun op inputs =>
  let tiled := do
    let output ← (tiledMatmul ops (2 ^ 64) inputs self.tile).get (self.returns ops inputs)
    return [output]
  match op with
  | .matMul => tiled
  | .quantizedMatMul => tiled
  | op => cpuReferenceProvider ops op inputs

def profile : ProviderProfile :=
  { ProviderProfile.allTensorOps .cpuTiled "cpu-tiled" with
    power := .medium
    priority := 300 }

def provider (ops : F32Ops) (self : CpuTiledProvider) : MobileExecutionProvider :=
  ⟨profile, self.execute ops⟩

/-- **The provider is the reference provider**, whatever its tile. -/
theorem execute_eq (ops : F32Ops) (self : CpuTiledProvider) :
    self.execute ops = cpuReferenceProvider ops := by
  have hget (inputs : List Tensor) :
      (tiledMatmul ops (2 ^ 64) inputs self.tile).get (self.returns ops inputs) =
        matmul ops inputs := by
    simp only [tiledMatmul_of_pos inputs self.tile_pos le_rfl, Option.get_some]
  funext op inputs
  cases op <;> simp only [execute, hget, cpuReferenceProvider]

end CpuTiledProvider

/-! ## Every tile size -/

/-- **Products in blocks are bit-identical to the reference**, and end: with every tile from one on,
and every addition and multiplication. -/
theorem tiledMatmul_eq_matmul (ops : F32Ops) (inputs : List Tensor) {tile : ℕ} (htile : 1 ≤ tile) :
    ∃ enough, ∀ rounds ≥ enough,
      tiledMatmul ops rounds inputs tile = some (matmul ops inputs) :=
  ⟨2 ^ 64, fun _ hrounds => tiledMatmul_of_pos inputs htile hrounds⟩

namespace Tiled.Sample

/-- A product of one element. -/
def one : Tensor := ⟨[1, 1], [F32.one], rfl⟩

/-- Three rows of five, and five rows of three. -/
def three : Tensor := ⟨[3, 5], [1, 2, 3, 4, 5, 0, 1, 0, 1, 0, 5, 4, 3, 2, 1], rfl⟩
def five : Tensor := ⟨[5, 3], [1, 0, 0, 0, 1, 0, 0, 0, 1, 1, 1, 1, 2, 2, 2], rfl⟩

end Tiled.Sample

open F32Ops Tiled.Sample

/-- Three and five elements in tiles of two: the last tile of every row is cut short. -/
theorem tiledMatmul_eq_matmul_remainder : 1 ≤ 2 ∧
    (matmul words [three, five]).toOption.map Tensor.data =
      some [15, 16, 17, 1, 2, 1, 9, 8, 7] ∧
    ∃ enough, ∀ rounds ≥ enough,
      tiledMatmul words rounds [three, five] 2 = some (matmul words [three, five]) :=
  ⟨by decide, by decide +kernel, tiledMatmul_eq_matmul words [three, five] (by decide)⟩

/-- A block of width zero never moves. -/
theorem sumBlocks_zero {ops : F32Ops} {lhs rhs : Tensor} {k n row col : ℕ} (hk : 0 < k) :
    ∀ {rounds : ℕ} {sum : F32}, sumBlocks ops lhs rhs k n row col 0 rounds 0 sum = none
  | 0, sum => by rw [sumBlocks, if_pos hk]
  | rounds + 1, sum => by
      rw [sumBlocks, if_pos hk]
      exact sumBlocks_zero hk

/-- With a tile of zero the product of one element never ends. -/
theorem tiledMatmul_zero : ¬ ∃ (ops : F32Ops) (rounds : ℕ),
    tiledMatmul ops rounds [one, one] 0 = some (matmul ops [one, one]) := by
  rintro ⟨ops, rounds, h⟩
  have hnone : tiledMatmul ops rounds [one, one] 0 = none := by
    change ((List.range 1).mapM fun row => (List.range 1).mapM fun col =>
      sumBlocks ops one one 1 1 row col 0 rounds 0 F32.zero).bind _ = none
    simp [sumBlocks_zero Nat.one_pos]
  rw [hnone] at h
  exact nomatch h

end NTD97
