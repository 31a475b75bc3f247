import Mathlib

/-!
# Lib/Fips180 — the SHA-256 of FIPS 180-4

    message ▪ 1 ▪ 0 … 0 ▪ length        in blocks of 512 bits, each of 16 words
    W₀ … W₆₃   from a block             (a, …, h) ↦ 64 rounds ↦ added to the hash so far

A message is a list of bits.  The constants are the leading bits of the fractional parts of roots of
primes: `fraction_eq` checks a table of them by integer inequalities.
-/

namespace Fips180

/-! ## Bits -/

/-- The lowest `w` bits of a number, the highest first. -/
def bits : ℕ → ℕ → List Bool
  | 0, _ => []
  | w + 1, n => n.testBit w :: bits w n

/-- The number with these bits. -/
def ofBits (m : List Bool) : ℕ := m.foldl (fun n b => 2 * n + b.toNat) 0

/-- Part `i` of a message cut into parts of `w` bits. -/
def segment (w i : ℕ) (m : List Bool) : List Bool := (m.drop (w * i)).take w

@[simp] theorem length_bits : ∀ w n : ℕ, (bits w n).length = w
  | 0, _ => rfl
  | w + 1, n => congrArg Nat.succ (length_bits w n)

theorem bits_mod (w n : ℕ) : ∀ {v : ℕ}, v ≤ w → bits v (n % 2 ^ w) = bits v n
  | 0, _ => rfl
  | v + 1, h => by
      rw [bits, bits, Nat.testBit_mod_two_pow, bits_mod w n (Nat.le_of_succ_le h),
        decide_eq_true (show v < w from h), Bool.true_and]

/-- The bits of a number are the bits of its two parts. -/
theorem bits_add (w n : ℕ) : ∀ v : ℕ, bits (v + w) n = bits v (n / 2 ^ w) ++ bits w n
  | 0 => by rw [Nat.zero_add, bits, List.nil_append]
  | v + 1 => by
      rw [Nat.succ_add, bits, bits, bits_add w n v, Nat.testBit_div_two_pow, Nat.add_comm v w,
        List.cons_append]

theorem foldl_ofBits : ∀ (m : List Bool) (n : ℕ),
    m.foldl (fun n b => 2 * n + b.toNat) n = n * 2 ^ m.length + ofBits m
  | [], n => by simp [ofBits]
  | b :: m, n => by
      rw [ofBits, List.foldl_cons, List.foldl_cons, foldl_ofBits m (2 * n + b.toNat),
        foldl_ofBits m (2 * 0 + b.toNat), List.length_cons, pow_succ]
      ring

theorem ofBits_append (m m' : List Bool) :
    ofBits (m ++ m') = ofBits m * 2 ^ m'.length + ofBits m' := by
  rw [ofBits, List.foldl_append, foldl_ofBits]
  rfl

theorem ofBits_bits (n : ℕ) : ∀ w : ℕ, ofBits (bits w n) = n % 2 ^ w
  | 0 => (Nat.mod_one n).symm
  | w + 1 => by
      have hcons : ofBits (n.testBit w :: bits w n) =
          (n.testBit w).toNat * 2 ^ w + ofBits (bits w n) := by
        rw [← List.singleton_append, ofBits_append, length_bits]
        simp [ofBits]
      rw [bits, hcons, ofBits_bits n w, Nat.toNat_testBit, pow_succ, Nat.mod_mul]
      ring

/-! ## Functions on words -/

def rotr (n : ℕ) (x : UInt32) : UInt32 := ⟨x.toBitVec.rotateRight n⟩

def ch (x y z : UInt32) : UInt32 := (x &&& y) ^^^ (~~~ x &&& z)

def maj (x y z : UInt32) : UInt32 := (x &&& y) ^^^ (x &&& z) ^^^ (y &&& z)

def bigSigma0 (x : UInt32) : UInt32 := rotr 2 x ^^^ rotr 13 x ^^^ rotr 22 x

def bigSigma1 (x : UInt32) : UInt32 := rotr 6 x ^^^ rotr 11 x ^^^ rotr 25 x

def smallSigma0 (x : UInt32) : UInt32 := rotr 7 x ^^^ rotr 18 x ^^^ (x >>> 3)

def smallSigma1 (x : UInt32) : UInt32 := rotr 17 x ^^^ rotr 19 x ^^^ (x >>> 10)

/-! ## Constants -/

/-- The `k`-th root, rounded down. -/
def root (k n : ℕ) : ℕ := Nat.findGreatest (fun r => r ^ k ≤ n) n

/-- The first 32 bits of the fractional part of the `k`-th root. -/
def fraction (k p : ℕ) : UInt32 := UInt32.ofNat (root k (p * 2 ^ (32 * k)))

/-- From the cube roots of the first 64 primes. -/
def roundConstants : List UInt32 := ((List.range 312).filter Nat.Prime).map (fraction 3)

/-- From the square roots of the first 8 primes. -/
def initialWords : List UInt32 := ((List.range 20).filter Nat.Prime).map (fraction 2)

theorem root_eq {k n r : ℕ} (hk : k ≠ 0) (hle : r ^ k ≤ n) (hlt : n < (r + 1) ^ k) :
    root k n = r := by
  refine Nat.findGreatest_eq_iff.2 ⟨(Nat.le_self_pow hk r).trans hle, fun _ => hle, ?_⟩
  intro s hs _ hsn
  exact absurd (hlt.trans_le (Nat.pow_le_pow_left hs k)) (Nat.not_lt.2 hsn)

/-- The word is the fraction of a root whose whole part is below 8. -/
def IsFraction (k p : ℕ) (c : UInt32) : Prop :=
  ∃ whole < 8, (whole * 2 ^ 32 + c.toNat) ^ k ≤ p * 2 ^ (32 * k) ∧
    p * 2 ^ (32 * k) < (whole * 2 ^ 32 + c.toNat + 1) ^ k

instance (k p : ℕ) (c : UInt32) : Decidable (IsFraction k p c) :=
  inferInstanceAs (Decidable (∃ whole < 8, _))

theorem fraction_eq {k p : ℕ} {c : UInt32} (hk : k ≠ 0) (h : IsFraction k p c) :
    fraction k p = c := by
  obtain ⟨whole, -, hle, hlt⟩ := h
  rw [fraction, root_eq hk hle hlt, ← UInt32.toNat_inj, UInt32.toNat_ofNat', Nat.mul_add_mod']
  exact Nat.mod_eq_of_lt c.toNat_lt

/-- **A table of constants** is checked entry by entry. -/
theorem map_fraction_eq {k : ℕ} (hk : k ≠ 0) : ∀ {primes : List ℕ} {table : List UInt32},
    List.Forall₂ (IsFraction k) primes table → primes.map (fraction k) = table
  | _, _, .nil => rfl
  | p :: primes, c :: table, .cons h hrest => by
      rw [List.map_cons, fraction_eq hk h, map_fraction_eq hk hrest]

/-! ## The message -/

theorem exists_zeros (l : ℕ) : ∃ k, (l + 1 + k) % 512 = 448 := ⟨959 - l % 512, by omega⟩

/-- The least number of zeros behind `l` bits and a one that leaves 64 bits of a block. -/
def zeros (l : ℕ) : ℕ := Nat.find (exists_zeros l)

def pad (m : List Bool) : List Bool :=
  m ++ [true] ++ List.replicate (zeros m.length) false ++ bits 64 m.length

theorem zeros_eq {l k : ℕ} (h : (l + 1 + k) % 512 = 448) (hk : k < 512) : zeros l = k := by
  refine (Nat.find_eq_iff _).2 ⟨h, fun n hn => ?_⟩
  omega

/-- Word `t` of a block. -/
def word (block : List Bool) (t : ℕ) : UInt32 := UInt32.ofNat (ofBits (segment 32 t block))

/-- The words `W` of a block. -/
def schedule (m : ℕ → UInt32) (t : ℕ) : UInt32 :=
  if t < 16 then m t
  else smallSigma1 (schedule m (t - 2)) + schedule m (t - 7) + smallSigma0 (schedule m (t - 15)) +
    schedule m (t - 16)
termination_by t

/-! ## The hash -/

/-- The working variables, and the eight words of a hash. -/
structure Working where
  a : UInt32
  b : UInt32
  c : UInt32
  d : UInt32
  e : UInt32
  f : UInt32
  g : UInt32
  h : UInt32

def round (k w : UInt32) (v : Working) : Working :=
  let t1 := v.h + bigSigma1 v.e + ch v.e v.f v.g + k + w
  let t2 := bigSigma0 v.a + maj v.a v.b v.c
  { a := t1 + t2, b := v.a, c := v.b, d := v.c, e := v.d + t1, f := v.e, g := v.f, h := v.g }

/-- The first `t` rounds. -/
def rounds (k w : ℕ → UInt32) : ℕ → Working → Working
  | 0, v => v
  | t + 1, v => round (k t) (w t) (rounds k w t v)

def compress (v : Working) (block : List Bool) : Working :=
  let s := rounds (fun t => roundConstants.getD t 0) (schedule (word block)) 64 v
  { a := v.a + s.a, b := v.b + s.b, c := v.c + s.c, d := v.d + s.d, e := v.e + s.e, f := v.f + s.f
    g := v.g + s.g, h := v.h + s.h }

def initial : Working where
  a := initialWords.getD 0 0
  b := initialWords.getD 1 0
  c := initialWords.getD 2 0
  d := initialWords.getD 3 0
  e := initialWords.getD 4 0
  f := initialWords.getD 5 0
  g := initialWords.getD 6 0
  h := initialWords.getD 7 0

/-- The hash after the first `n` blocks. -/
def hash (m : List Bool) : ℕ → Working
  | 0 => initial
  | n + 1 => compress (hash m n) (segment 512 n m)

/-- The 256 bits of the hash of a message. -/
def sha256 (m : List Bool) : List Bool :=
  let v := hash (pad m) ((pad m).length / 512)
  [v.a, v.b, v.c, v.d, v.e, v.f, v.g, v.h].flatMap fun x => bits 32 x.toNat

end Fips180
