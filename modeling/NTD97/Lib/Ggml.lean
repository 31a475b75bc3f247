import Mathlib

/-!
# Lib/Ggml — the tensor formats of ggml

    row ▪▪▪ of blocks        block ▪ scales ▪ quants ──▸ elements

A tensor is stored row by row, a row in blocks, a block in whole bytes.  What an element of a block
is worth is said here by its place in the block and by whole numbers alone: `b i` is the byte at `i`,
and a field of bits is a quotient and a remainder.
-/

namespace Ggml

inductive Format where
  | f32
  | f16
  | bf16
  | q4_0
  | q8_0
  | q4K
  | q5K
  | q6K
  deriving DecidableEq

namespace Format

/-- The format that a tensor names by its number. -/
def ofCode : ℕ → Option Format
  | 0 => some f32
  | 1 => some f16
  | 2 => some q4_0
  | 8 => some q8_0
  | 12 => some q4K
  | 13 => some q5K
  | 14 => some q6K
  | 30 => some bf16
  | _ => none

/-- The elements of a block. -/
def blockElements : Format → ℕ
  | f32 | f16 | bf16 => 1
  | q4_0 | q8_0 => 32
  | q4K | q5K | q6K => 256

/-- The bytes of a block. -/
def blockBytes : Format → ℕ
  | f32 => 4
  | f16 | bf16 => 2
  | q4_0 => 18
  | q8_0 => 34
  | q4K => 144
  | q5K => 176
  | q6K => 210

theorem blockElements_pos (f : Format) : 0 < f.blockElements := by
  cases f <;> decide

theorem blockBytes_pos (f : Format) : 0 < f.blockBytes := by
  cases f <;> decide

end Format

/-! ## What quants are worth -/

/-- The arithmetic that the formats rest on; `half` reads a number off the bits of half
precision. -/
structure Arith (F : Type) where
  sub : F → F → F
  mul : F → F → F
  ofInt : ℤ → F
  half : ℕ → F

section Dequantize

variable {F : Type} (ar : Arith F) (b : ℕ → ℕ)

/-- The number of half precision at a place. -/
def scalar (i : ℕ) : F := ar.half (b i + 256 * b (i + 1))

/-- A byte as a number with a sign. -/
def signed (byte : ℕ) : ℤ := if byte < 128 then byte else byte - 256

/-- Sixteen bytes hold the first half of the quants in their low bits and the second in their high
bits. -/
def q4_0 (j : ℕ) : F :=
  let quant := if j < 16 then b (2 + j) % 16 else b (2 + (j - 16)) / 16
  ar.mul (scalar ar b 0) (ar.ofInt ((quant : ℤ) - 8))

def q8_0 (j : ℕ) : F := ar.mul (scalar ar b 0) (ar.ofInt (signed (b (2 + j))))

/-- One of eight scales of six bits: four are whole in their bytes, and the others have two of their
bits in those. -/
def scaleOf (s : ℕ) : ℕ :=
  if s < 4 then b (4 + s) % 64 else b (8 + s) % 16 + 16 * (b (4 + (s - 4)) / 64)

/-- The minimum that goes with a scale. -/
def minOf (s : ℕ) : ℕ :=
  if s < 4 then b (8 + s) % 64 else b (8 + s) / 16 + 16 * (b (4 + s) / 64)

/-- Thirty-two quants share a scale and a minimum. -/
def scaled (j quant : ℕ) : F :=
  ar.sub (ar.mul (ar.mul (scalar ar b 0) (ar.ofInt (scaleOf b (j / 32)))) (ar.ofInt quant))
    (ar.mul (scalar ar b 2) (ar.ofInt (minOf b (j / 32))))

/-- Thirty-two bytes hold as many quants in their low bits, and the next ones in their high bits. -/
def nibble (start j : ℕ) : ℕ :=
  let byte := b (start + 32 * (j / 64) + j % 32)
  if j % 64 < 32 then byte % 16 else byte / 16

def q4K (j : ℕ) : F := scaled ar b j (nibble b 16 j)

/-- The fifth bit of a quant, in a plane of its own. -/
def q5K (j : ℕ) : F :=
  scaled ar b j (nibble b 48 j + 16 * (b (16 + j % 32) / 2 ^ (j / 32) % 2))

/-- Each half of the block is four runs of thirty-two quants, of which the first two have the low
bits of the same bytes as the last two; the planes of high bits hold two bits of each run. -/
def q6K (j : ℕ) : F :=
  let half := j / 128
  let run := j % 128 / 32
  let lane := j % 32
  let byte := b (64 * half + 32 * (run % 2) + lane)
  let low := if run < 2 then byte % 16 else byte / 16
  let high := b (128 + 32 * half + lane) / 4 ^ run % 4
  let scale := signed (b (192 + 8 * half + lane / 16 + 2 * run))
  ar.mul (ar.mul (scalar ar b 208) (ar.ofInt scale)) (ar.ofInt ((low + 16 * high : ℕ) - 32))

/-- The element of a block at a place; a format that stores numbers has nothing to work out. -/
def dequantize : Format → Option (ℕ → F)
  | .f32 | .f16 | .bf16 => none
  | .q4_0 => some (q4_0 ar b)
  | .q8_0 => some (q8_0 ar b)
  | .q4K => some (q4K ar b)
  | .q5K => some (q5K ar b)
  | .q6K => some (q6K ar b)

end Dequantize

/-! ## Where elements lie -/

/-- The block of an element, with as many columns in a row. -/
def blockOf (f : Format) (columns row column : ℕ) : ℕ :=
  row * (columns / f.blockElements) + column / f.blockElements

theorem div_blockElements {f : Format} {columns row column : ℕ}
    (h : f.blockElements ∣ columns) :
    (row * columns + column) / f.blockElements = blockOf f columns row column := by
  obtain ⟨k, rfl⟩ := h
  have hpos := f.blockElements_pos
  rw [blockOf, Nat.mul_div_cancel_left _ hpos, Nat.mul_left_comm, Nat.mul_add_div hpos]

theorem mod_blockElements {f : Format} {columns row column : ℕ}
    (h : f.blockElements ∣ columns) :
    (row * columns + column) % f.blockElements = column % f.blockElements := by
  obtain ⟨k, rfl⟩ := h
  rw [Nat.mul_left_comm, Nat.mul_add_mod]

end Ggml
