import Mathlib
import NTD97.Lib.Slices
import NTD97.Tensor.Typed

/-!
# Tensor/Loaded — what the loader makes of bytes

    ⟨dtype, shape, bytes⟩ ──load──▸ tensor of this shape

Bytes are loaded if there are as many as the shape and the width of an element say.
-/

namespace NTD97

open Guard Wire Slices

namespace TensorLoader

variable {ops : F32Ops} {dtype : DType} {shape : List UInt64} {quantization : QuantizationParams}
  {bytes : Bytes} {t : Tensor}

/-- What is loaded has the shape that was asked for. -/
theorem load_shape (h : load ops dtype shape quantization bytes = .ok t) :
    t.shape = shape.map UInt64.toNat := by
  have hnew {data : List F32} {e : TensorLoadError}
      (h : (Tensor.new (shape.map UInt64.toNat) data).mapError (fun _ => e) = .ok t) :
      t.shape = shape.map UInt64.toNat := (Tensor.new_eq_ok.1 (mapError_eq_ok.1 h)).1
  obtain ⟨_, -, h⟩ := bind_eq_ok.1 h
  obtain ⟨_, -, h⟩ := bind_eq_ok.1 h
  cases quantization with
  | none =>
    obtain ⟨_, -, h⟩ := bind_eq_ok.1 h
    exact hnew h
  | symmetricI8 scale =>
    obtain ⟨_, -, h⟩ := bind_eq_ok.1 h
    obtain ⟨_, -, h⟩ := bind_eq_ok.1 h
    exact hnew h
  | affineI8 scale zeroPoint =>
    obtain ⟨_, -, h⟩ := bind_eq_ok.1 h
    obtain ⟨_, -, h⟩ := bind_eq_ok.1 h
    obtain ⟨_, -, h⟩ := bind_eq_ok.1 h
    exact hnew h

/-- The types of numbers, which are those of a model's tensors. -/
def IsFloat : DType → Prop
  | .f32 | .f16 | .bf16 => True
  | _ => False

/-- The numbers that bytes of such a type say. -/
def numbers : DType → Bytes → List F32
  | .f16, bytes => (chunksExact 2 bytes).map fun chunk => f16ToF32 (UInt16.ofNat (ofLe chunk))
  | .bf16, bytes => (chunksExact 2 bytes).map fun chunk => UInt32.ofNat (ofLe chunk) <<< 16
  | _, bytes => (chunksExact 4 bytes).map fun chunk => UInt32.ofNat (ofLe chunk)

theorem length_chunks {α : Type} {width n : ℕ} {l : List α} (hwidth : width ≠ 0)
    (hl : l.length = n * width) : (chunksExact width l).length = n := by
  rw [chunksExact, List.length_map, List.length_range, hl,
    Nat.mul_div_cancel _ (Nat.pos_of_ne_zero hwidth)]

theorem length_numbers {elements : ℕ} (hfloat : IsFloat dtype)
    (hlength : bytes.length = elements * dtypeWidth dtype) :
    (numbers dtype bytes).length = elements := by
  cases dtype with
  | f32 | f16 | bf16 => exact (List.length_map _).trans (length_chunks (by decide) hlength)
  | _ => exact hfloat.elim

theorem decodeUnquantized_of_float {elements : ℕ} (hfloat : IsFloat dtype)
    (hlength : bytes.length = elements * dtypeWidth dtype) (hlt : bytes.length < 2 ^ 64) :
    decodeUnquantized ops dtype elements bytes = .ok (numbers dtype bytes) := by
  have hexpected : okOr (checkedMulUsize elements (dtypeWidth dtype)) TensorLoadError.invalidShape =
      (.ok bytes.length : Except TensorLoadError ℕ) := okOr_eq_ok.2 (checkedMulUsize_eq_some.2 ⟨hlength ▸ hlt, hlength.symm⟩)
  have hbytes : (refuse (bytes.length ≠ bytes.length)
      (TensorLoadError.byteLengthMismatch bytes.length bytes.length) :
        Except TensorLoadError Unit) = .ok () := refuse_eq_ok.2 (not_not.2 rfl)
  cases dtype with
  | f32 | f16 | bf16 => exact bind_eq_ok.2 ⟨_, hexpected, bind_eq_ok.2 ⟨(), hbytes, rfl⟩⟩
  | _ => exact hfloat.elim

/-- **Bytes of numbers are loaded**, if the elements of the shape can be counted, and there are as
many. -/
theorem load_of_count {elements : ℕ} (ops : F32Ops) (hfloat : IsFloat dtype)
    (hcount : elementCountUsize (shape.map UInt64.toNat) = .ok elements)
    (hlength : bytes.length = elements * dtypeWidth dtype) (hlt : bytes.length < 2 ^ 64) :
    ∃ t, load ops dtype shape .none bytes = .ok t ∧ t.shape = shape.map UInt64.toNat ∧
      t.data = numbers dtype bytes := by
  have hnumbers := length_numbers hfloat hlength
  refine ⟨⟨shape.map UInt64.toNat, numbers dtype bytes, hnumbers ▸ hcount⟩, ?_, rfl, rfl⟩
  exact bind_eq_ok.2 ⟨_, mapError_eq_ok.2 hcount, bind_eq_ok.2 ⟨(),
    refuse_eq_ok.2 fun h => h.1 rfl, bind_eq_ok.2 ⟨_,
      decodeUnquantized_of_float hfloat hlength hlt,
      mapError_eq_ok.2 (Tensor.new_eq_ok.2 ⟨rfl, rfl⟩)⟩⟩⟩

/-- Where no dimension is zero, the elements can be counted. -/
theorem load_of_float (hfloat : IsFloat dtype) (hne : ∀ d ∈ shape, d ≠ 0)
    (hlength : bytes.length = (shape.map UInt64.toNat).prod * dtypeWidth dtype)
    (hlt : bytes.length < 2 ^ 64) :
    ∃ t, load ops dtype shape .none bytes = .ok t ∧ t.shape = shape.map UInt64.toNat ∧
      t.data = numbers dtype bytes := by
  have hwidth : 0 < dtypeWidth dtype := by cases dtype <;> decide
  have hprod : (shape.map UInt64.toNat).prod < 2 ^ 64 :=
    (Nat.le_mul_of_pos_right _ hwidth).trans_lt (hlength ▸ hlt)
  have hne' : ∀ d ∈ shape.map UInt64.toNat, d ≠ 0 := by
    intro d hd
    obtain ⟨e, he, rfl⟩ := List.mem_map.1 hd
    exact fun h0 => hne e he (UInt64.toNat_inj.1 h0)
  have hcount : elementCountUsize (shape.map UInt64.toNat) =
      .ok (shape.map UInt64.toNat).prod :=
    (foldlM_count_of_ne_zero hne' (by rwa [Nat.one_mul])).trans (by rw [Nat.one_mul])
  exact load_of_count ops hfloat hcount hlength hlt

/-- Numbers of single precision, laid out and read back. -/
theorem numbers_flatMap (l : List F32) :
    numbers .f32 (l.flatMap fun value => leBytes 4 value.toNat) = l := by
  have hlength : (l.flatMap fun value => leBytes 4 value.toNat).length = l.length * 4 := by
    rw [List.length_flatMap, List.map_congr_left fun value _ => length_leBytes 4 value.toNat,
      List.map_const', List.sum_replicate, smul_eq_mul]
  refine List.ext_getElem ((List.length_map _).trans (length_chunks (by decide) hlength))
    fun i hi hi' => ?_
  have hcell : ((l.flatMap fun value => leBytes 4 value.toNat).drop (i * 4)).take 4 =
      leBytes 4 l[i].toNat :=
    cell_flatMap (fun _ => length_leBytes 4 _) (List.getElem?_eq_getElem hi')
  simp only [numbers, chunksExact, List.getElem_map, List.getElem_range, hcell]
  rw [ofLe_leBytes (l[i].toNat_lt), UInt32.ofNat_toNat]

end TensorLoader

end NTD97
