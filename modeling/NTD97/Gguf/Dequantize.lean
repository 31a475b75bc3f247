import Mathlib
import NTD97.Gguf.Transcode
import NTD97.Lib.Ggml

/-!
# Gguf/Dequantize — a block is worked out as its format says

    block ──q4_0Block ▪ q4KBlock ▪ …──▸ (0..n).map value

The loops of a decoder go over halves, groups and lanes; `Lib/Ggml` says what each element is worth
by its place.  No decoder leaves the slices of its block.
-/

namespace NTD97

open Guard Wire Slices

/-! ## Fields of bits -/

theorem toNat_mask {x m : UInt8} (k : ℕ) (hm : m.toNat = 2 ^ k - 1) :
    (x &&& m).toNat = x.toNat % 2 ^ k := by
  rw [UInt8.toNat_and, hm, Nat.and_two_pow_sub_one_eq_mod]

theorem toNat_shiftRight {x s : UInt8} (hs : s.toNat < 8) :
    (x >>> s).toNat = x.toNat / 2 ^ s.toNat := by
  rw [UInt8.toNat_shiftRight, Nat.mod_eq_of_lt hs, Nat.shiftRight_eq_div_pow]

theorem toNat_lowNibble (x : UInt8) : (lowNibble x).toNat = x.toNat % 16 := toNat_mask 4 rfl

theorem toNat_highNibble (x : UInt8) : (highNibble x).toNat = x.toNat / 16 :=
  toNat_shiftRight (by decide)

theorem toNat_withHigh {low high : UInt8} (hlow : low.toNat < 16) (hhigh : high.toNat < 16) :
    (withHigh low high).toNat = low.toNat + 16 * high.toNat := by
  have hshift : (high <<< 4).toNat = 2 ^ 4 * high.toNat := by
    rw [UInt8.toNat_shiftLeft, Nat.shiftLeft_eq]
    change high.toNat * 2 ^ 4 % 2 ^ 8 = _
    omega
  rw [withHigh, UInt8.toNat_or, hshift, Nat.lor_comm, ← Nat.two_pow_add_eq_or_of_lt hlow,
    Nat.add_comm]

theorem toNat_highBit {x m : UInt8} {k : ℕ} (hm : m.toNat = 2 ^ k) :
    (highBit x m).toNat = 16 * (x.toNat / 2 ^ k % 2) := by
  have hand : (x &&& m).toNat = (x.toNat.testBit k).toNat * 2 ^ k := by
    rw [UInt8.toNat_and, hm, Nat.and_two_pow]
  have hbit : x.toNat.testBit k = decide (x.toNat / 2 ^ k % 2 = 1) :=
    Nat.testBit_eq_decide_div_mod_eq
  have hpos : 0 < 2 ^ k := Nat.two_pow_pos k
  by_cases h : x.toNat / 2 ^ k % 2 = 1
  · have hne : x &&& m ≠ 0 := by
      intro h0
      rw [h0, hbit, decide_eq_true h, Bool.toNat_true, Nat.one_mul] at hand
      exact hpos.ne hand
    rw [highBit, if_pos hne, h]
    rfl
  · have h0 : x &&& m = 0 := by
      rw [hbit, decide_eq_false h, Bool.toNat_false, Nat.zero_mul] at hand
      exact UInt8.toNat_inj.1 hand
    rw [highBit, if_neg (not_not.2 h0), (Nat.mod_two_eq_zero_or_one _).resolve_right h]
    rfl

theorem ofI8_eq (ops : F32Ops) (x : UInt8) : ofI8 ops x = ops.ofInt (Ggml.signed x.toNat) := by
  have hlt : x.toNat < 256 := x.toNat_lt
  have hsigned : x.toInt8.toInt = Ggml.signed x.toNat := by
    change x.toBitVec.toInt = _
    rw [BitVec.toInt_eq_toNat_cond, Ggml.signed]
    change (if 2 * x.toNat < 2 ^ 8 then (x.toNat : ℤ) else x.toNat - (2 ^ 8 : ℕ)) = _
    split <;> split <;> omega
  rw [ofI8, hsigned]

/-! ## Slices of a block -/

section Blocks

variable (ops : F32Ops) (f16ToF32 : UInt16 → F32)

/-- The arithmetic of the processor, for the formats. -/
def ggmlArith : Ggml.Arith F32 where
  sub := ops.sub
  mul := ops.mul
  ofInt := ops.ofInt
  half bits := f16ToF32 (UInt16.ofNat bits)

/-- The byte at a place of a block. -/
def byteAt (block : Bytes) (i : ℕ) : ℕ := (block.getD i 0).toNat

variable {ops f16ToF32} {block : Bytes}

theorem safe_slice {start n stop : ℕ} (hstop : stop = start + n) (h : stop ≤ block.length) :
    Safe (Slices.slice block start stop : Code GgufError Bytes)
      (· = (List.range n).map fun i => block.getD (start + i) 0) := Safe.slice 0 hstop h

theorem getD_map_range {α : Type} {f : ℕ → α} {n i : ℕ} {d : α} (h : i < n) :
    ((List.range n).map f).getD i d = f i := by
  rw [List.getD_eq_getElem _ _ (by simpa using h), List.getElem_map, List.getElem_range]

theorem safe_halfAt (ops : F32Ops) {i : ℕ} (h : i + 1 < block.length) :
    Safe (halfAt f16ToF32 block i)
      (· = Ggml.scalar (ggmlArith ops f16ToF32) (byteAt block) i) := by
  refine (Safe.index (d := 0) (Nat.lt_of_succ_lt h)).bind fun low hlow => ?_
  refine (Safe.index (d := 0) h).bind fun high hhigh => Safe.pure ?_
  subst hlow hhigh
  rfl

theorem safe_q8_0Block {output : List F32} (h : block.length = 34) :
    Safe (q8_0Block ops f16ToF32 output block)
      (· = output ++ (List.range 32).map
        (Ggml.q8_0 (ggmlArith ops f16ToF32) (byteAt block))) := by
  refine (safe_halfAt ops (by omega)).bind fun scale hscale => ?_
  refine Safe.refuse.bind fun _ _ => ?_
  refine (safe_slice (n := 32) rfl h.ge).bind fun quants hquants => Safe.pure ?_
  subst hscale hquants
  rw [List.map_map]
  refine congrArg (output ++ ·) (List.map_congr_left fun i _ => ?_)
  rw [Function.comp, ofI8_eq]
  rfl

theorem safe_q4_0Block {output : List F32} (h : block.length = 18) :
    Safe (q4_0Block ops f16ToF32 output block)
      (· = output ++ (List.range 32).map
        (Ggml.q4_0 (ggmlArith ops f16ToF32) (byteAt block))) := by
  refine (safe_halfAt ops (by omega)).bind fun scale hscale => ?_
  refine Safe.refuse.bind fun _ _ => ?_
  refine (safe_slice (n := 16) rfl h.ge).bind fun quants hquants => Safe.pure ?_
  subst hscale hquants
  rw [List.map_map, List.map_map, List.append_assoc, ← map_range_add _ 16 16]
  congr 2
  · refine List.map_congr_left fun i hi => ?_
    have hlt : i < 16 := List.mem_range.1 hi
    rw [Function.comp, toNat_lowNibble, Ggml.q4_0, if_pos hlt]
    rfl
  · refine List.map_congr_left fun i hi => ?_
    rw [Function.comp, toNat_highNibble, Ggml.q4_0, if_neg (by omega), Nat.add_sub_cancel_left]
    rfl

/-! ## Larger blocks -/

/-- The scale and the minimum at a place of the table. -/
theorem safe_scaleMinK4 {s : ℕ} (hs : s < 8) :
    Safe (scaleMinK4 s ((List.range 12).map fun i => block.getD (4 + i) 0)) fun p =>
      p.1.toNat = Ggml.scaleOf (byteAt block) s ∧ p.2.toNat = Ggml.minOf (byteAt block) s := by
  set packed := (List.range 12).map fun i => block.getD (4 + i) 0 with hpacked
  have hlength : packed.length = 12 := by rw [hpacked, List.length_map, List.length_range]
  have hread {i : ℕ} (hi : i < 12) :
      Safe (Slices.index packed i : Code GgufError UInt8) (· = block.getD (4 + i) 0) := by
    have h := Safe.index (ε := GgufError) (d := 0) (l := packed) (i := i) (by omega)
    rwa [hpacked, getD_map_range hi] at h
  refine Safe.refuse.bind fun _ _ => (hread (by omega)).bind fun here hhere => ?_
  refine (hread (by omega)).bind fun next hnext => ?_
  have hnext' : next = block.getD (8 + s) 0 := by
    rw [hnext, Nat.add_comm s 4, ← Nat.add_assoc]
  have hmask (x : UInt8) : (x &&& 0x3f).toNat = x.toNat % 64 := toNat_mask 6 rfl
  have hshift (x : UInt8) : (x >>> 6).toNat = x.toNat / 64 := toNat_shiftRight (by decide)
  have hlt (x : UInt8) : x.toNat < 256 := x.toNat_lt
  subst hhere hnext'
  refine Safe.ite (fun hlow => Safe.pure ?_) fun hlow => ?_
  · rw [hmask, hmask, Ggml.scaleOf, Ggml.minOf, if_pos hlow, if_pos hlow]
    exact ⟨rfl, rfl⟩
  · refine (hread (by omega)).bind fun before hbefore => Safe.pure ?_
    subst hbefore
    have hhigh (x : UInt8) : (x >>> 6).toNat < 16 := by
      have := hlt x
      rw [hshift]
      omega
    have hwhole (x : UInt8) : (highNibble x).toNat < 16 := by
      have := hlt x
      rw [toNat_highNibble]
      omega
    have hrest (x : UInt8) : (lowNibble x).toNat < 16 := by
      rw [toNat_lowNibble]
      exact Nat.mod_lt _ (by decide)
    rw [toNat_withHigh (hrest _) (hhigh _), toNat_withHigh (hwhole _) (hhigh _), hshift, hshift,
      toNat_lowNibble, toNat_highNibble, Ggml.scaleOf, Ggml.minOf, if_neg hlow, if_neg hlow]
    exact ⟨rfl, rfl⟩

/-- A scale as the groups multiply with it. -/
def scaleAt (ops : F32Ops) (f16ToF32 : UInt16 → F32) (block : Bytes) (s : ℕ) : F32 :=
  ops.mul (Ggml.scalar (ggmlArith ops f16ToF32) (byteAt block) 0)
    (ops.ofInt (Ggml.scaleOf (byteAt block) s))

/-- A minimum as the groups take it away. -/
def minAt (ops : F32Ops) (f16ToF32 : UInt16 → F32) (block : Bytes) (s : ℕ) : F32 :=
  ops.mul (Ggml.scalar (ggmlArith ops f16ToF32) (byteAt block) 2)
    (ops.ofInt (Ggml.minOf (byteAt block) s))

theorem safe_groupScales {s : ℕ} (hs : s + 1 < 8) :
    Safe (groupScales ops (Ggml.scalar (ggmlArith ops f16ToF32) (byteAt block) 0)
      (Ggml.scalar (ggmlArith ops f16ToF32) (byteAt block) 2)
      ((List.range 12).map fun i => block.getD (4 + i) 0) s)
      (· = (scaleAt ops f16ToF32 block s, minAt ops f16ToF32 block s,
        scaleAt ops f16ToF32 block (s + 1), minAt ops f16ToF32 block (s + 1))) := by
  refine (safe_scaleMinK4 (by omega)).bind fun ⟨scale1, min1⟩ h1 => ?_
  refine (safe_scaleMinK4 hs).bind fun ⟨scale2, min2⟩ h2 => Safe.pure ?_
  simp only [ofByte, scaleAt, minAt, ← h1.1, ← h1.2, ← h2.1, ← h2.2]

/-- Two runs of thirty-two values go behind those of the groups before. -/
theorem append_runs {out : List F32} {v f g : ℕ → F32} {n : ℕ} (hf : ∀ i < 32, f i = v (n + i))
    (hg : ∀ i < 32, g i = v (n + 32 + i)) :
    out ++ (List.range n).map v ++ (List.range 32).map f ++ (List.range 32).map g =
      out ++ (List.range (n + 64)).map v := by
  have hf' : (List.range 32).map f = (List.range 32).map fun i => v (n + i) :=
    List.map_congr_left fun i hi => hf i (List.mem_range.1 hi)
  have hg' : (List.range 32).map g = (List.range 32).map fun i => v (n + 32 + i) :=
    List.map_congr_left fun i hi => hg i (List.mem_range.1 hi)
  rw [hf', hg', List.append_assoc, List.append_assoc, ← List.append_assoc ((List.range n).map v),
    map_range_add, map_range_add]

/-- The quants of a group, out of the bytes from `start` on. -/
theorem safe_group {start group : ℕ} (hgroup : group < 4) :
    Safe (Slices.slice ((List.range 128).map fun i => block.getD (start + i) 0) (group * 32)
      (group * 32 + 32) : Code GgufError Bytes)
      (· = (List.range 32).map fun i => block.getD (start + 32 * group + i) 0) := by
  refine (safe_slice rfl ?_).mono fun q hq => ?_
  · rw [List.length_map, List.length_range]
    omega
  · rw [hq]
    refine List.map_congr_left fun i hi => ?_
    have hlt : i < 32 := List.mem_range.1 hi
    rw [getD_map_range (by omega), Nat.mul_comm group, Nat.add_assoc]

/-- The places of a group: thirty-two quants in the low bits, and thirty-two in the high bits. -/
theorem nibble_low {start group i : ℕ} (hi : i < 32) :
    Ggml.nibble (byteAt block) start (64 * group + i) =
      byteAt block (start + 32 * group + i) % 16 := by
  have hdiv : (64 * group + i) / 64 = group := by omega
  have hmod : (64 * group + i) % 64 = i := by omega
  have hlane : (64 * group + i) % 32 = i := by omega
  rw [Ggml.nibble, hdiv, hmod, hlane, if_pos hi]

theorem nibble_high {start group i : ℕ} (hi : i < 32) :
    Ggml.nibble (byteAt block) start (64 * group + 32 + i) =
      byteAt block (start + 32 * group + i) / 16 := by
  have hdiv : (64 * group + 32 + i) / 64 = group := by omega
  have hmod : ¬ (64 * group + 32 + i) % 64 < 32 := by omega
  have hlane : (64 * group + 32 + i) % 32 = i := by omega
  rw [Ggml.nibble, hdiv, hlane, if_neg hmod]

theorem scaled_low {group i quant : ℕ} (hi : i < 32) :
    Ggml.scaled (ggmlArith ops f16ToF32) (byteAt block) (64 * group + i) quant =
      ops.sub (ops.mul (scaleAt ops f16ToF32 block (2 * group)) (ops.ofInt quant))
        (minAt ops f16ToF32 block (2 * group)) := by
  have hdiv : (64 * group + i) / 32 = 2 * group := by omega
  rw [Ggml.scaled, hdiv]
  rfl

theorem scaled_high {group i quant : ℕ} (hi : i < 32) :
    Ggml.scaled (ggmlArith ops f16ToF32) (byteAt block) (64 * group + 32 + i) quant =
      ops.sub (ops.mul (scaleAt ops f16ToF32 block (2 * group + 1)) (ops.ofInt quant))
        (minAt ops f16ToF32 block (2 * group + 1)) := by
  have hdiv : (64 * group + 32 + i) / 32 = 2 * group + 1 := by omega
  rw [Ggml.scaled, hdiv]
  rfl

theorem safe_q4KBlock {output : List F32} (h : block.length = 144) :
    Safe (q4KBlock ops f16ToF32 output block)
      (· = output ++ (List.range 256).map
        (Ggml.q4K (ggmlArith ops f16ToF32) (byteAt block))) := by
  refine (safe_halfAt ops (by omega)).bind fun d hd => ?_
  refine (safe_halfAt ops (by omega)).bind fun dmin hdmin => ?_
  refine Safe.refuse.bind fun _ _ => ?_
  refine (safe_slice (n := 12) rfl (by omega)).bind fun scales hscales => ?_
  refine (safe_slice (n := 128) rfl h.ge).bind fun qs hqs => ?_
  subst hd hdmin hscales hqs
  let value := Ggml.q4K (ggmlArith ops f16ToF32) (byteAt block)
  let done (group : ℕ) (state : List F32 × ℕ) : Prop :=
    state = (output ++ (List.range (64 * group)).map value, 2 * group)
  refine (Safe.range (I := done) (fun group hgroup state hstate => ?_) ?_).bind
    fun state hstate => Safe.pure (congrArg Prod.fst hstate)
  · subst hstate
    refine (safe_groupScales (by omega)).bind fun p hp => ?_
    subst hp
    refine (safe_group hgroup).bind fun q hq => Safe.pure (Prod.ext ?_ rfl)
    subst hq
    simp only [List.map_map]
    refine append_runs (fun i hi => ?_) fun i hi => ?_
    · simp only [value, Function.comp, Ggml.q4K, nibble_low hi, scaled_low hi, ofByte,
        toNat_lowNibble, byteAt]
    · simp only [value, Function.comp, Ggml.q4K, nibble_high hi, scaled_high hi, ofByte,
        toNat_highNibble, byteAt]
  · change (output, 0) = (output ++ [], 2 * 0)
    rw [List.append_nil]

/-! ## The plane of fifth bits -/

/-- The masks of a group pick the bits of its two runs. -/
theorem mask_group {group : ℕ} (hgroup : group < 4) :
    (UInt8.ofNat (4 ^ group)).toNat = 2 ^ (2 * group) ∧
      (UInt8.ofNat (2 * 4 ^ group)).toNat = 2 ^ (2 * group + 1) := by
  interval_cases group <;> decide

theorem mask_next {group : ℕ} (hgroup : group < 4) :
    UInt8.ofNat (4 ^ group) <<< 2 = UInt8.ofNat (4 ^ (group + 1)) ∧
      UInt8.ofNat (2 * 4 ^ group) <<< 2 = UInt8.ofNat (2 * 4 ^ (group + 1)) := by
  interval_cases group <;> decide

/-- Four bits with a fifth above them. -/
theorem toNat_add_highBit {x y mask : UInt8} {k : ℕ} (hx : x.toNat < 16)
    (hmask : mask.toNat = 2 ^ k) :
    (x + highBit y mask).toNat = x.toNat + 16 * (y.toNat / 2 ^ k % 2) := by
  have hbit : y.toNat / 2 ^ k % 2 < 2 := Nat.mod_lt _ (by decide)
  rw [UInt8.toNat_add, toNat_highBit hmask, Nat.mod_eq_of_lt]
  omega

theorem lowNibble_lt (x : UInt8) : (lowNibble x).toNat < 16 := by
  rw [toNat_lowNibble]
  exact Nat.mod_lt _ (by decide)

theorem highNibble_lt (x : UInt8) : (highNibble x).toNat < 16 := by
  have hlt : x.toNat < 256 := x.toNat_lt
  rw [toNat_highNibble]
  omega

theorem safe_q5KBlock {output : List F32} (h : block.length = 176) :
    Safe (q5KBlock ops f16ToF32 output block)
      (· = output ++ (List.range 256).map
        (Ggml.q5K (ggmlArith ops f16ToF32) (byteAt block))) := by
  refine (safe_halfAt ops (by omega)).bind fun d hd => ?_
  refine (safe_halfAt ops (by omega)).bind fun dmin hdmin => ?_
  refine Safe.refuse.bind fun _ _ => ?_
  refine (safe_slice (n := 12) rfl (by omega)).bind fun scales hscales => ?_
  refine (safe_slice (n := 32) rfl (by omega)).bind fun qh hqh => ?_
  refine (safe_slice (n := 128) rfl h.ge).bind fun qs hqs => ?_
  subst hd hdmin hscales hqh hqs
  let value := Ggml.q5K (ggmlArith ops f16ToF32) (byteAt block)
  let done (group : ℕ) (state : Q5KState) : Prop :=
    state = ⟨output ++ (List.range (64 * group)).map value, 2 * group, UInt8.ofNat (4 ^ group),
      UInt8.ofNat (2 * 4 ^ group)⟩
  refine (Safe.range (I := done) (fun group hgroup state hstate => ?_) ?_).bind
    fun state hstate => Safe.pure (congrArg Q5KState.output hstate)
  · subst hstate
    obtain ⟨hlow, hhigh⟩ := mask_group hgroup
    refine (safe_groupScales (s := 2 * group) (by omega)).bind fun p hp => ?_
    subst hp
    refine (safe_group hgroup).bind fun q hq => Safe.pure ?_
    subst hq
    rw [(mask_next hgroup).1, (mask_next hgroup).2]
    refine Q5KState.mk.injEq .. |>.mpr ⟨?_, rfl, rfl, rfl⟩
    simp only [List.zip_map', List.map_map]
    refine append_runs (fun i hi => ?_) fun i hi => ?_
    · have hlane : (64 * group + i) % 32 = i := by omega
      have hrun : (64 * group + i) / 32 = 2 * group := by omega
      simp only [value, Function.comp, Ggml.q5K, nibble_low hi, scaled_low hi, ofByte, hlane, hrun,
        toNat_add_highBit (lowNibble_lt _) hlow, toNat_lowNibble, byteAt]
    · have hlane : (64 * group + 32 + i) % 32 = i := by omega
      have hrun : (64 * group + 32 + i) / 32 = 2 * group + 1 := by omega
      simp only [value, Function.comp, Ggml.q5K, nibble_high hi, scaled_high hi, ofByte, hlane,
        hrun, toNat_add_highBit (highNibble_lt _) hhigh, toNat_highNibble, byteAt]
  · change Q5KState.mk output 0 1 2 = ⟨output ++ [], 2 * 0, 1, 2⟩
    rw [List.append_nil]

/-! ## Six bits and a signed scale -/

theorem toNat_withPlane {x y s : UInt8} (run : ℕ) (hx : x.toNat < 16) (hs : s.toNat = 2 * run)
    (hrun : run < 4) :
    (withHigh x ((y >>> s) &&& 0x03)).toNat = x.toNat + 16 * (y.toNat / 4 ^ run % 4) := by
  have hplane : ((y >>> s) &&& 0x03).toNat = y.toNat / 4 ^ run % 4 := by
    have hpow : 2 ^ (2 * run) = 4 ^ run := Nat.pow_mul 2 2 run
    rw [toNat_mask 2 rfl, toNat_shiftRight (by omega), hs, hpow]
    rfl
  have hlt : y.toNat / 4 ^ run % 4 < 4 := Nat.mod_lt _ (by decide)
  rw [toNat_withHigh hx (by omega), hplane]

/-- One value of a lane, with the bits that belong there. -/
theorem fills_q6KValue {half lane : ℕ} (run : ℕ) {bits : UInt8} (hhalf : half < 2) (hrun : run < 4)
    (hlane : lane < 32)
    (hbits : bits.toNat = (if run < 2 then byteAt block (64 * half + 32 * (run % 2) + lane) % 16
      else byteAt block (64 * half + 32 * (run % 2) + lane) / 16) +
        16 * (byteAt block (128 + 32 * half + lane) / 4 ^ run % 4)) :
    Fills 256 (Ggml.q6K (ggmlArith ops f16ToF32) (byteAt block))
      (· = half * 128 + lane + 32 * run)
      (q6KValue ops (Ggml.scalar (ggmlArith ops f16ToF32) (byteAt block) 208)
        ((List.range 16).map fun i => block.getD (192 + i) 0) (half * 128 + lane + 32 * run)
        (half * 8 + lane / 16 + 2 * run) bits) := by
  intro l hl
  have hscale : half * 8 + lane / 16 + 2 * run < 16 := by omega
  have hplace : half * 128 + lane + 32 * run < 256 := by omega
  refine (Safe.index (d := 0) (by simpa using hscale)).bind fun s hs => ?_
  rw [getD_map_range hscale] at hs
  refine Fills.set hplace ?_ l hl
  have hh : (half * 128 + lane + 32 * run) / 128 = half := by omega
  have hr : (half * 128 + lane + 32 * run) % 128 / 32 = run := by omega
  have hln : (half * 128 + lane + 32 * run) % 32 = lane := by omega
  have hat : 192 + (half * 8 + lane / 16 + 2 * run) = 192 + 8 * half + lane / 16 + 2 * run := by
    omega
  simp only [Ggml.q6K, hh, hr, hln, ← hbits, hs, ofI8_eq, hat]
  rfl

theorem fills_q6KLane {half lane : ℕ} (hhalf : half < 2) (hlane : lane < 32) :
    Fills 256 (Ggml.q6K (ggmlArith ops f16ToF32) (byteAt block))
      (fun j => j / 128 = half ∧ j % 32 = lane)
      (q6KLane ops (Ggml.scalar (ggmlArith ops f16ToF32) (byteAt block) 208)
        ((List.range 128).map fun i => block.getD (0 + i) 0)
        ((List.range 64).map fun i => block.getD (128 + i) 0)
        ((List.range 16).map fun i => block.getD (192 + i) 0) half lane) := by
  intro l hl
  have hhigh : half * 32 + lane < 64 := by omega
  have hlow1 : half * 64 + lane < 128 := by omega
  have hlow2 : half * 64 + lane + 32 < 128 := by omega
  refine (Safe.index (d := 0) (by simpa using hhigh)).bind fun high hhigh' => ?_
  refine (Safe.index (d := 0) (by simpa using hlow1)).bind fun low1 hlow1' => ?_
  refine (Safe.index (d := 0) (by simpa using hlow2)).bind fun low2 hlow2' => ?_
  rw [getD_map_range hhigh] at hhigh'
  rw [getD_map_range hlow1, Nat.zero_add, Nat.mul_comm half] at hlow1'
  rw [getD_map_range hlow2, Nat.zero_add, Nat.mul_comm half, Nat.add_right_comm] at hlow2'
  have hplane : 128 + (half * 32 + lane) = 128 + 32 * half + lane := by omega
  rw [hplane] at hhigh'
  subst hhigh' hlow1' hlow2'
  have hplane0 (x y : UInt8) (hx : x.toNat < 16) :
      (withHigh x (y &&& 0x03)).toNat = x.toNat + 16 * (y.toNat / 4 ^ 0 % 4) := by
    have hmask : (y &&& 0x03).toNat = y.toNat % 4 := toNat_mask 2 rfl
    have hlt : y.toNat % 4 < 4 := Nat.mod_lt _ (by decide)
    rw [toNat_withHigh hx (by omega), hmask, Nat.pow_zero, Nat.div_one]
  refine (((fills_q6KValue 0 hhalf (by decide) hlane ?_).comp
    ((fills_q6KValue 1 hhalf (by decide) hlane ?_).comp
      ((fills_q6KValue 2 hhalf (by decide) hlane ?_).comp
        (fills_q6KValue 3 hhalf (by decide) hlane ?_)))).mono fun j hj => ?_) l hl
  · rw [hplane0 _ _ (lowNibble_lt _), toNat_lowNibble]
    rfl
  · rw [toNat_withPlane (s := 2) 1 (lowNibble_lt _) rfl (by decide), toNat_lowNibble]
    rfl
  · rw [toNat_withPlane (s := 4) 2 (highNibble_lt _) rfl (by decide), toNat_highNibble]
    rfl
  · rw [toNat_withPlane (s := 6) 3 (highNibble_lt _) rfl (by decide), toNat_highNibble]
    rfl
  · omega

theorem safe_q6KBlock {output : List F32} (h : block.length = 210) :
    Safe (q6KBlock ops f16ToF32 output block)
      (· = output ++ (List.range 256).map
        (Ggml.q6K (ggmlArith ops f16ToF32) (byteAt block))) := by
  refine (safe_slice (n := 128) rfl (by omega)).bind fun ql hql => ?_
  refine (safe_slice (n := 64) rfl (by omega)).bind fun qh hqh => ?_
  refine (safe_slice (n := 16) rfl (by omega)).bind fun scales hscales => ?_
  refine (safe_halfAt ops (by omega)).bind fun d hd => ?_
  refine Safe.refuse.bind fun _ _ => ?_
  subst hql hqh hscales hd
  refine ((Fills.foldlM fun half hhalf => Fills.foldlM fun lane hlane =>
    fills_q6KLane (List.mem_range.1 hhalf) (List.mem_range.1 hlane)).full (fun j hj => ?_)
      List.length_replicate).bind fun values hvalues =>
        Safe.pure (congrArg (output ++ ·) hvalues)
  exact ⟨j / 128, List.mem_range.2 (by omega), j % 32, List.mem_range.2 (by omega), rfl, rfl⟩

end Blocks

end NTD97
