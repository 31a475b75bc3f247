import Mathlib
import NTD97.Core
import NTD97.Lib.Wire

/-!
# Capsule/Hash — SHA-256

    input ▪ 80 ▪ 0 … 0 ▪ bit length        in blocks of 64 bytes, folded into eight words

The function runs in the kernel, so hashes of concrete files can be compared.  No proof rests on
what it computes: a statement that would need two inputs to hash differently says instead that the
two inputs collide.
-/

namespace NTD97

open Wire

abbrev Digest := Block 32

namespace Sha256

/-- The eight words of the state. -/
structure Words where
  a : UInt32
  b : UInt32
  c : UInt32
  d : UInt32
  e : UInt32
  f : UInt32
  g : UInt32
  h : UInt32

def initial : Words :=
  ⟨0x6a09e667, 0xbb67ae85, 0x3c6ef372, 0xa54ff53a, 0x510e527f, 0x9b05688c, 0x1f83d9ab, 0x5be0cd19⟩

def k : List UInt32 := [
  0x428a2f98, 0x71374491, 0xb5c0fbcf, 0xe9b5dba5, 0x3956c25b, 0x59f111f1, 0x923f82a4, 0xab1c5ed5,
  0xd807aa98, 0x12835b01, 0x243185be, 0x550c7dc3, 0x72be5d74, 0x80deb1fe, 0x9bdc06a7, 0xc19bf174,
  0xe49b69c1, 0xefbe4786, 0x0fc19dc6, 0x240ca1cc, 0x2de92c6f, 0x4a7484aa, 0x5cb0a9dc, 0x76f988da,
  0x983e5152, 0xa831c66d, 0xb00327c8, 0xbf597fc7, 0xc6e00bf3, 0xd5a79147, 0x06ca6351, 0x14292967,
  0x27b70a85, 0x2e1b2138, 0x4d2c6dfc, 0x53380d13, 0x650a7354, 0x766a0abb, 0x81c2c92e, 0x92722c85,
  0xa2bfe8a1, 0xa81a664b, 0xc24b8b70, 0xc76c51a3, 0xd192e819, 0xd6990624, 0xf40e3585, 0x106aa070,
  0x19a4c116, 0x1e376c08, 0x2748774c, 0x34b0bcb5, 0x391c0cb3, 0x4ed8aa4a, 0x5b9cca4f, 0x682e6ff3,
  0x748f82ee, 0x78a5636f, 0x84c87814, 0x8cc70208, 0x90befffa, 0xa4506ceb, 0xbef9a3f7, 0xc67178f2]

def rotateRight (x n : UInt32) : UInt32 := (x >>> n) ||| (x <<< (32 - n))

def toBeBytes (x : UInt32) : Bytes := (leBytes 4 x.toNat).reverse

def fromBeBytes (b : Bytes) : UInt32 := UInt32.ofNat (ofLe b.reverse)

/-- The first `count` parts of `n` bytes. -/
def chunksExact (n : ℕ) : ℕ → Bytes → List Bytes
  | 0, _ => []
  | count + 1, b => b.take n :: chunksExact n count (b.drop n)

/-- The input with its padding and its length in bits, which wraps at 64 bits. -/
def padded (input : Bytes) : Bytes :=
  input ++ [0x80] ++ List.replicate ((64 - (input.length + 9) % 64) % 64) 0 ++
    (leBytes 8 (8 * input.length % 2 ^ 64)).reverse

/-- The word after the first `i` words of the schedule. -/
def scheduled (w : List UInt32) (i : ℕ) : UInt32 :=
  let w15 := w.getD (i - 15) 0
  let w2 := w.getD (i - 2) 0
  let s0 := rotateRight w15 7 ^^^ rotateRight w15 18 ^^^ (w15 >>> 3)
  let s1 := rotateRight w2 17 ^^^ rotateRight w2 19 ^^^ (w2 >>> 10)
  w.getD (i - 16) 0 + s0 + w.getD (i - 7) 0 + s1

def schedule (block : Bytes) : List UInt32 :=
  (List.range' 16 48).foldl (fun w i => w ++ [scheduled w i])
    ((chunksExact 4 16 block).map fromBeBytes)

def round (s : Words) (kw : UInt32 × UInt32) : Words :=
  let sum1 := rotateRight s.e 6 ^^^ rotateRight s.e 11 ^^^ rotateRight s.e 25
  let ch := (s.e &&& s.f) ^^^ (~~~ s.e &&& s.g)
  let temp1 := s.h + sum1 + ch + kw.1 + kw.2
  let sum0 := rotateRight s.a 2 ^^^ rotateRight s.a 13 ^^^ rotateRight s.a 22
  let maj := (s.a &&& s.b) ^^^ (s.a &&& s.c) ^^^ (s.b &&& s.c)
  let temp2 := sum0 + maj
  { a := temp1 + temp2, b := s.a, c := s.b, d := s.c, e := s.d + temp1, f := s.e, g := s.f
    h := s.g }

def compress (state : Words) (block : Bytes) : Words :=
  let s := (k.zip (schedule block)).foldl round state
  { a := state.a + s.a, b := state.b + s.b, c := state.c + s.c, d := state.d + s.d
    e := state.e + s.e, f := state.f + s.f, g := state.g + s.g, h := state.h + s.h }

def Words.bytes (s : Words) : Bytes :=
  [s.a, s.b, s.c, s.d, s.e, s.f, s.g, s.h].flatMap toBeBytes

theorem Words.length_bytes (s : Words) : s.bytes.length = 32 := by
  simp [Words.bytes, toBeBytes]

end Sha256

open Sha256 in
def sha256 (input : Bytes) : Digest :=
  let blocks := padded input
  let state := (chunksExact 64 (blocks.length / 64) blocks).foldl compress initial
  ⟨state.bytes, state.length_bytes⟩

/-- The published digest of the text `abc`. -/
example : (sha256 [97, 98, 99]).bytes = [
    0xba, 0x78, 0x16, 0xbf, 0x8f, 0x01, 0xcf, 0xea, 0x41, 0x41, 0x40, 0xde, 0x5d, 0xae, 0x22, 0x23,
    0xb0, 0x03, 0x61, 0xa3, 0x96, 0x17, 0x7a, 0x9c, 0xb4, 0x10, 0xff, 0x61, 0xf2, 0x00, 0x15,
    0xad] := by
  decide +kernel

/-- Two different inputs with the same digest. -/
def Collides (x y : Bytes) : Prop := x ≠ y ∧ sha256 x = sha256 y

/-- Inputs with the same digest are equal, or they collide. -/
theorem eq_or_collides {x y : Bytes} (h : sha256 x = sha256 y) : x = y ∨ Collides x y := by
  by_cases hxy : x = y
  · exact .inl hxy
  · exact .inr ⟨hxy, h⟩

end NTD97
