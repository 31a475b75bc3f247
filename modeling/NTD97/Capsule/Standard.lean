import Mathlib
import NTD97.Capsule.Hash
import NTD97.Lib.Fips180

/-!
# Capsule/Standard — the hash is the standard's

    input   ──padded──▸   bytes   ──chunks──▸   compress …   ──▸   digest
      │ bits                │ bits                  │                 │ bits
    message ──pad─────▸   bits    ──segments─▸  compress …   ──▸   256 bits

The code counts in bytes and keeps its schedule in a list, the standard counts in bits and defines
the words by recursion.
-/

namespace NTD97

open Wire

namespace Sha256

open Fips180 (bits ofBits)

/-! ## Bytes and bits -/

/-- The bits of a message of bytes. -/
def toBits (b : Bytes) : List Bool := b.flatMap fun byte => bits 8 byte.toNat

@[simp] theorem toBits_append (a b : Bytes) : toBits (a ++ b) = toBits a ++ toBits b :=
  List.flatMap_append

@[simp] theorem length_toBits (b : Bytes) : (toBits b).length = 8 * b.length := by
  rw [toBits, List.length_flatMap, List.map_congr_left (g := fun _ => 8) (fun _ _ =>
    Fips180.length_bits ..), List.map_const', List.sum_replicate, smul_eq_mul, mul_comm]

theorem toBits_cons (x : UInt8) (b : Bytes) : toBits (x :: b) = bits 8 x.toNat ++ toBits b := rfl

theorem toBits_drop : ∀ (n : ℕ) (b : Bytes), toBits (b.drop n) = (toBits b).drop (8 * n)
  | 0, b => rfl
  | n + 1, [] => by simp [toBits]
  | n + 1, x :: b => by
      rw [List.drop_succ_cons, toBits_drop n b, toBits_cons, Nat.mul_succ, Nat.add_comm (8 * n) 8,
        ← List.drop_drop, List.drop_left' (Fips180.length_bits ..)]

theorem toBits_take : ∀ (n : ℕ) (b : Bytes), toBits (b.take n) = (toBits b).take (8 * n)
  | 0, b => rfl
  | n + 1, [] => by simp [toBits]
  | n + 1, x :: b => by
      have hlen := Fips180.length_bits 8 x.toNat
      rw [List.take_succ_cons, toBits_cons, toBits_take n b, toBits_cons, List.take_append, hlen,
        List.take_of_length_le (l := bits 8 x.toNat) (by omega)]
      congr 2

/-- Part `i` of the bytes is part `i` of the bits. -/
theorem toBits_segment (n i : ℕ) (b : Bytes) :
    toBits ((b.drop (n * i)).take n) = Fips180.segment (8 * n) i (toBits b) := by
  rw [toBits_take, toBits_drop, Fips180.segment, ← Nat.mul_assoc]

/-- A number in big-endian bytes is written in its bits. -/
theorem toBits_beBytes : ∀ n v : ℕ, toBits (leBytes n v).reverse = bits (8 * n) v
  | 0, _ => rfl
  | n + 1, v => by
      have hlow : bits 8 (UInt8.ofNat v).toNat = bits 8 v := by
        rw [UInt8.toNat_ofNat', Fips180.bits_mod 8 v le_rfl]
      rw [leBytes, List.reverse_cons, toBits_append, toBits_beBytes n (v / 256), toBits_cons, hlow,
        Nat.mul_succ, Fips180.bits_add 8 v (8 * n)]
      exact congrArg _ (List.append_nil _)

theorem ofBits_toBits_reverse : ∀ b : Bytes, ofBits (toBits b.reverse) = ofLe b
  | [] => rfl
  | x :: b => by
      have hx : toBits [x] = bits 8 x.toNat := List.append_nil _
      rw [List.reverse_cons, toBits_append, hx, Fips180.ofBits_append, ofBits_toBits_reverse b,
        Fips180.length_bits, Fips180.ofBits_bits, Nat.mod_eq_of_lt x.toNat_lt, ofLe]
      ring

/-- **A big-endian word** is the number of its bits. -/
theorem fromBeBytes_eq (b : Bytes) : fromBeBytes b = UInt32.ofNat (ofBits (toBits b)) := by
  rw [fromBeBytes, ← ofBits_toBits_reverse, List.reverse_reverse]

theorem toBits_toBeBytes (x : UInt32) : toBits (toBeBytes x) = bits 32 x.toNat :=
  toBits_beBytes 4 x.toNat

/-! ## Padding -/

theorem toBits_zeros (n : ℕ) : toBits (List.replicate n 0) = List.replicate (8 * n) false := by
  have hzero : bits 8 (0 : UInt8).toNat = List.replicate 8 false := rfl
  induction n with
  | zero => rfl
  | succ n ih =>
    rw [List.replicate_succ, toBits_cons, ih, hzero, List.replicate_append_replicate]
    congr 1
    omega

/-- **The padded bytes are the padded bits**, as long as the length in bits fits its field. -/
theorem toBits_padded {input : Bytes} (h : input.length < 2 ^ 61) :
    toBits (padded input) = Fips180.pad (toBits input) := by
  have hmark : toBits [0x80] = [true] ++ List.replicate 7 false := rfl
  have hzeros : Fips180.zeros (8 * input.length) =
      7 + 8 * ((64 - (input.length + 9) % 64) % 64) :=
    Fips180.zeros_eq (by omega) (by omega)
  have hfits : 8 * input.length % 2 ^ 64 = 8 * input.length := Nat.mod_eq_of_lt (by omega)
  rw [padded, Fips180.pad, length_toBits, hzeros, hfits, toBits_append, toBits_append,
    toBits_append, hmark, toBits_zeros, toBits_beBytes, ← List.replicate_append_replicate]
  simp only [List.append_assoc]

/-! ## Words -/

theorem rotateRight_eq (x n : UInt32) (hpos : 0 < n.toNat) (hlt : n.toNat < 32) :
    rotateRight x n = Fips180.rotr n.toNat x := by
  have hle : n ≤ 32 := UInt32.le_iff_toNat_le.2 hlt.le
  have hright : (n.toBitVec % 32).toNat = n.toNat := by
    rw [BitVec.toNat_umod]
    exact Nat.mod_eq_of_lt hlt
  have hleft : ((32 - n).toBitVec % 32).toNat = 32 - n.toNat := by
    have hsub : (32 - n).toBitVec.toNat = 32 - n.toNat := UInt32.toNat_sub_of_le _ _ hle
    rw [BitVec.toNat_umod, hsub]
    exact Nat.mod_eq_of_lt (Nat.sub_lt (by decide) hpos)
  rw [← UInt32.toBitVec_inj, rotateRight, UInt32.toBitVec_or, UInt32.toBitVec_shiftRight,
    UInt32.toBitVec_shiftLeft, BitVec.ushiftRight_eq', BitVec.shiftLeft_eq', hright, hleft,
    Fips180.rotr, BitVec.rotateRight_def, Nat.mod_eq_of_lt hlt]

/-- Below the square of a bound, trial division up to the bound finds the primes. -/
theorem filter_prime_eq {n : ℕ} (b : ℕ) (h : n ≤ b * b) : (List.range n).filter Nat.Prime =
    (List.range n).filter fun p => 2 ≤ p ∧ ∀ m < b, 2 ≤ m → m < p → ¬ m ∣ p := by
  refine List.filter_congr fun p hp => decide_eq_decide.2 ?_
  have hlt : p < b * b := (List.mem_range.1 hp).trans_le h
  rw [Nat.prime_def_le_sqrt]
  refine and_congr_right fun htwo => ⟨fun hnone m _ hm hmp hdvd => ?_, fun hnone m hm hsqrt => ?_⟩
  · have hprime := Nat.prime_def_le_sqrt.2 ⟨htwo, hnone⟩
    rcases (Nat.dvd_prime hprime).1 hdvd with rfl | rfl
    · exact absurd hm (by decide)
    · exact hmp.false
  · exact hnone m (hsqrt.trans_lt (Nat.sqrt_lt.2 hlt)) hm
      (hsqrt.trans_lt (Nat.sqrt_lt_self htwo))

/-- **The table of round constants.** -/
theorem roundConstants_eq : Fips180.roundConstants = k := by
  have hprimes : (List.range 312).filter Nat.Prime = [2, 3, 5, 7, 11, 13, 17, 19, 23, 29, 31, 37,
      41, 43, 47, 53, 59, 61, 67, 71, 73, 79, 83, 89, 97, 101, 103, 107, 109, 113, 127, 131, 137,
      139, 149, 151, 157, 163, 167, 173, 179, 181, 191, 193, 197, 199, 211, 223, 227, 229, 233,
      239, 241, 251, 257, 263, 269, 271, 277, 281, 283, 293, 307, 311] := by
    rw [filter_prime_eq 18 (by decide)]
    decide +kernel
  rw [Fips180.roundConstants, hprimes]
  exact Fips180.map_fraction_eq (by decide) (by decide +kernel)

theorem initialWords_eq : Fips180.initialWords = [0x6a09e667, 0xbb67ae85, 0x3c6ef372, 0xa54ff53a,
    0x510e527f, 0x9b05688c, 0x1f83d9ab, 0x5be0cd19] := by
  have hprimes : (List.range 20).filter Nat.Prime = [2, 3, 5, 7, 11, 13, 17, 19] := by
    decide +kernel
  rw [Fips180.initialWords, hprimes]
  exact Fips180.map_fraction_eq (by decide) (by decide +kernel)

/-! ## The schedule -/

/-- The parts of the bytes, by their place. -/
theorem chunksExact_eq (n : ℕ) : ∀ (count : ℕ) (b : Bytes),
    chunksExact n count b = (List.range count).map fun i => (b.drop (n * i)).take n
  | 0, _ => rfl
  | count + 1, b => by
      rw [chunksExact, chunksExact_eq n count, List.range_succ_eq_map, List.map_cons, List.map_map]
      refine congrArg _ (List.map_congr_left fun i _ => ?_)
      rw [Function.comp_apply, List.drop_drop, Nat.mul_succ, Nat.add_comm n]

/-- Word `t` of a block, as the code reads it. -/
theorem getD_words {block : Bytes} {t : ℕ} (ht : t < 16) :
    ((chunksExact 4 16 block).map fromBeBytes).getD t 0 = Fips180.word (toBits block) t := by
  rw [chunksExact_eq, List.map_map, List.getD_eq_getElem?_getD, List.getElem?_map,
    List.getElem?_range ht, Option.map_some, Option.getD_some, Function.comp_apply, fromBeBytes_eq,
    toBits_segment, Fips180.word]

theorem scheduled_eq {w : List UInt32} {m : ℕ → UInt32} {i : ℕ} (hi : 16 ≤ i)
    (h : ∀ t < i, w.getD t 0 = Fips180.schedule m t) :
    scheduled w i = Fips180.schedule m i := by
  have hback {n : ℕ} (hn : 0 < n) (hn' : n ≤ 16) :
      w.getD (i - n) 0 = Fips180.schedule m (i - n) := h _ (by omega)
  rw [Fips180.schedule, if_neg (Nat.not_lt.2 hi), scheduled, hback (by decide) (by decide),
    hback (by decide) (by decide), hback (by decide) (by decide), hback (by decide) (by decide),
    rotateRight_eq _ 7 (by decide) (by decide), rotateRight_eq _ 18 (by decide) (by decide),
    rotateRight_eq _ 17 (by decide) (by decide), rotateRight_eq _ 19 (by decide) (by decide)]
  change _ + Fips180.smallSigma0 _ + _ + Fips180.smallSigma1 _ = _
  ac_rfl

/-- **The list holds the words of the recursion**, however far it has got. -/
theorem getD_foldl_scheduled {m : ℕ → UInt32} {start : List UInt32} (hlen : start.length = 16)
    (hstart : ∀ t < 16, start.getD t 0 = m t) : ∀ n : ℕ,
    ((List.range' 16 n).foldl (fun w i => w ++ [scheduled w i]) start).length = 16 + n ∧
      ∀ t < 16 + n, ((List.range' 16 n).foldl (fun w i => w ++ [scheduled w i]) start).getD t 0 =
        Fips180.schedule m t
  | 0 => ⟨hlen, fun t ht => by rw [Fips180.schedule, if_pos ht]; exact hstart t ht⟩
  | n + 1 => by
      obtain ⟨hn, hwords⟩ := getD_foldl_scheduled hlen hstart n
      rw [List.range'_1_concat, List.foldl_append, List.foldl_cons, List.foldl_nil]
      refine ⟨by rw [List.length_append, hn]; rfl, fun t ht => ?_⟩
      have ht : t < 16 + n ∨ t = 16 + n := by omega
      rcases ht with ht | rfl
      · rw [List.getD_append _ _ _ _ (by omega)]
        exact hwords t ht
      · rw [List.getD_append_right _ _ _ _ hn.le, hn, Nat.sub_self]
        exact scheduled_eq (Nat.le_add_right _ _) hwords

/-- **The schedule of a block.** -/
theorem schedule_spec (block : Bytes) : (schedule block).length = 64 ∧ ∀ t < 64,
    (schedule block).getD t 0 = Fips180.schedule (Fips180.word (toBits block)) t :=
  getD_foldl_scheduled (by rw [List.length_map]; rfl) (fun _ ht => getD_words ht) 48

/-! ## The rounds -/

def Words.toWorking (s : Words) : Fips180.Working where
  a := s.a
  b := s.b
  c := s.c
  d := s.d
  e := s.e
  f := s.f
  g := s.g
  h := s.h

theorem toWorking_round (s : Words) (kw : UInt32 × UInt32) :
    (round s kw).toWorking = Fips180.round kw.1 kw.2 s.toWorking := by
  simp only [round, rotateRight_eq _ 6 (by decide) (by decide),
    rotateRight_eq _ 11 (by decide) (by decide), rotateRight_eq _ 25 (by decide) (by decide),
    rotateRight_eq _ 2 (by decide) (by decide), rotateRight_eq _ 13 (by decide) (by decide),
    rotateRight_eq _ 22 (by decide) (by decide)]
  rfl

/-- **The rounds over a list** are those over its entries. -/
theorem toWorking_foldl_round {k w : ℕ → UInt32} {kw : List (UInt32 × UInt32)} (s : Words) :
    ∀ {n : ℕ}, (∀ t < n, kw[t]? = some (k t, w t)) →
      ((kw.take n).foldl round s).toWorking = Fips180.rounds k w n s.toWorking
  | 0, _ => rfl
  | n + 1, h => by
      rw [List.take_add_one, h n (Nat.lt_succ_self n), Option.toList_some, List.foldl_append,
        List.foldl_cons, List.foldl_nil, toWorking_round,
        toWorking_foldl_round s fun t ht => h t (Nat.lt_succ_of_lt ht), Fips180.rounds]

theorem length_k : k.length = 64 := rfl

theorem getElem?_of_getD {l : List UInt32} {f : ℕ → UInt32} {t : ℕ} (ht : t < l.length)
    (h : l.getD t 0 = f t) : l[t]? = some (f t) := by
  rw [← h, List.getD_eq_getElem _ _ ht]
  exact List.getElem?_eq_getElem ht

seal k schedule

/-- The constants and the words of a block, side by side. -/
theorem getElem?_zip_schedule (block : Bytes) {t : ℕ} (ht : t < 64) :
    (k.zip (schedule block))[t]? = some (Fips180.roundConstants.getD t 0,
      Fips180.schedule (Fips180.word (toBits block)) t) := by
  obtain ⟨hlen, hwords⟩ := schedule_spec block
  rw [List.getElem?_zip_eq_some]
  refine ⟨getElem?_of_getD (f := fun t => Fips180.roundConstants.getD t 0) (length_k ▸ ht) ?_,
    getElem?_of_getD (hlen ▸ ht) (hwords t ht)⟩
  rw [roundConstants_eq]

/-- **One block.** -/
theorem toWorking_compress (s : Words) (block : Bytes) :
    (compress s block).toWorking = Fips180.compress s.toWorking (toBits block) := by
  have hall : (k.zip (schedule block)).take 64 = k.zip (schedule block) :=
    List.take_of_length_le (by
      rw [List.length_zip, length_k, (schedule_spec block).1, Nat.min_self])
  have hrounds := toWorking_foldl_round s fun t ht => getElem?_zip_schedule block ht
  rw [hall] at hrounds
  rw [Fips180.compress, ← hrounds]
  rfl

/-! ## The hash -/

theorem toWorking_initial : initial.toWorking = Fips180.initial := by
  rw [Fips180.initial, initialWords_eq]
  rfl

/-- **All blocks.** -/
theorem toWorking_foldl_compress (b : Bytes) : ∀ n : ℕ,
    ((chunksExact 64 n b).foldl compress initial).toWorking = Fips180.hash (toBits b) n
  | 0 => toWorking_initial
  | n + 1 => by
      have hn := toWorking_foldl_compress b n
      rw [chunksExact_eq] at hn
      rw [chunksExact_eq, List.range_succ, List.map_append, List.map_singleton, List.foldl_append,
        List.foldl_cons, List.foldl_nil, toWorking_compress, hn, toBits_segment, Fips180.hash]

theorem toBits_words (s : Words) : toBits s.bytes =
    [s.a, s.b, s.c, s.d, s.e, s.f, s.g, s.h].flatMap fun x => bits 32 x.toNat := by
  rw [toBits, Words.bytes, List.flatMap_assoc]
  exact congrArg (fun f => List.flatMap f _) (funext toBits_toBeBytes)

end Sha256

open Sha256 in
/-- **The hash is SHA-256**: bit for bit the one of the standard, for every input whose length in bits
fits its field. -/
theorem sha256_eq_fips180 (input : Bytes) (h : input.length < 2 ^ 61) :
    toBits (sha256 input).bytes = Fips180.sha256 (toBits input) := by
  have hcount : (Fips180.pad (toBits input)).length / 512 = (padded input).length / 64 := by
    rw [← toBits_padded h, length_toBits]
    exact Nat.mul_div_mul_left _ 64 (by decide)
  have hhash := toWorking_foldl_compress (padded input) ((padded input).length / 64)
  rw [toBits_padded h] at hhash
  rw [Fips180.sha256, hcount, ← hhash]
  exact toBits_words _

/-- The text `abc`. -/
theorem sha256_eq_fips180_abc :
    Sha256.toBits (sha256 [97, 98, 99]).bytes = Fips180.sha256 (Sha256.toBits [97, 98, 99]) :=
  sha256_eq_fips180 [97, 98, 99] (by decide)

end NTD97
