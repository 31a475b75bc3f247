import Mathlib
import NTD97.Gguf.Dequantize
import NTD97.Tensor.Shapes

/-!
# Gguf/Decoded — a transcoded tensor has the elements that the file stores

    stored (row, column) ──Lib/Ggml──▸ reference        payload ──cell──▸ element

An element of the result is the number that is stored, or what the reference makes of its block;
with the flag it lies at the transposed place.  No slice is indexed out of bounds.
-/

namespace NTD97

open Guard Wire Slices

/-! ## Machine words -/

theorem checkedMul64_eq_some {a b c : UInt64} :
    checkedMul64 a b = some c ↔ c.toNat = a.toNat * b.toNat := by
  unfold checkedMul64
  split
  · next h =>
    rw [Option.some.injEq, ← UInt64.toNat_inj, UInt64.toNat_mul, Nat.mod_eq_of_lt h, eq_comm]
  · next h =>
    refine ⟨fun hc => (nomatch hc), fun hc => absurd ?_ h⟩
    exact hc ▸ c.toNat_lt

theorem foldlM_product64 : ∀ {dimensions : List UInt64} {product n : UInt64},
    dimensions.foldlM (fun product dimension => okOr (checkedMul64 product dimension) .overflow)
        product = (.ok n : Except GgufError UInt64) →
      n.toNat = product.toNat * (dimensions.map UInt64.toNat).prod
  | [], product, n, h => by
      obtain rfl := pure_eq_ok.1 h
      rw [List.map_nil, List.prod_nil, Nat.mul_one]
  | dimension :: dimensions, product, n, h => by
      rw [List.foldlM_cons, bind_eq_ok] at h
      obtain ⟨next, hnext, hrest⟩ := h
      rw [foldlM_product64 hrest, checkedMul64_eq_some.1 (okOr_eq_ok.1 hnext), List.map_cons,
        List.prod_cons, Nat.mul_assoc]

theorem product64_eq {dimensions : List UInt64} {n : UInt64} (h : product64 dimensions = .ok n) :
    n.toNat = (dimensions.map UInt64.toNat).prod :=
  (foldlM_product64 h).trans (Nat.one_mul _)

/-! ## Shapes -/

namespace GgufTensorInfo

/-- The elements of a row, which are stored one after the other. -/
def columns (tensor : GgufTensorInfo) : ℕ := (tensor.dimensions.headD 0).toNat

def rows (tensor : GgufTensorInfo) : ℕ := ((tensor.dimensions.drop 1).map UInt64.toNat).prod

/-- The shape of the result has the columns last, unless it is transposed. -/
def transcodedShape (tensor : GgufTensorInfo) (transpose2d : Bool) : List UInt64 :=
  if transpose2d then tensor.dimensions else tensor.dimensions.reverse

/-- The place of an element in the result. -/
def place (tensor : GgufTensorInfo) (transpose2d : Bool) (row column : ℕ) : ℕ :=
  if transpose2d then column * tensor.rows + row else row * tensor.columns + column

end GgufTensorInfo

theorem ggmlLayout_eq_ok {code : UInt32} {layout : GgmlLayout} (h : ggmlLayout code = .ok layout) :
    ∃ format, Ggml.Format.ofCode code.toNat = some format ∧
      layout.blockElements.toNat = format.blockElements ∧
        layout.blockBytes.toNat = format.blockBytes := by
  unfold ggmlLayout at h
  split at h
  case h_9 => cases h
  all_goals
    obtain rfl := pure_eq_ok.1 h
    exact ⟨_, rfl, rfl, rfl⟩

/-- The bytes of a tensor are whole rows of whole blocks. -/
theorem ggmlTensorByteLen_eq_ok {tensor : GgufTensorInfo} {len : UInt64}
    (h : ggmlTensorByteLen tensor = .ok len) :
    ∃ format, Ggml.Format.ofCode tensor.ggmlType.toNat = some format ∧ 0 < tensor.columns ∧
      format.blockElements ∣ tensor.columns ∧
        len.toNat = tensor.rows * (tensor.columns / format.blockElements) * format.blockBytes := by
  simp only [ggmlTensorByteLen, bind_eq_ok, exists_unit, okOr_eq_ok, refuse_eq_ok, not_or,
    not_not, Option.bind_eq_some_iff] at h
  obtain ⟨layout, hlayout, first, hfirst, ⟨hpos, hdvd⟩, rows, hrows, blocks, hblocks, hlen⟩ := h
  obtain ⟨format, hformat, helements, hbytes⟩ := ggmlLayout_eq_ok hlayout
  have hcolumns : tensor.columns = first.toNat := by
    rw [GgufTensorInfo.columns, List.headD_eq_head?_getD, hfirst]
    rfl
  refine ⟨format, hformat, ?_, ?_, ?_⟩
  · rw [hcolumns]
    exact Nat.pos_of_ne_zero fun h0 => hpos (UInt64.toNat_inj.1 h0)
  · rw [hcolumns, ← helements]
    exact Nat.dvd_of_mod_eq_zero (by rw [← UInt64.toNat_mod, hdvd]; rfl)
  · rw [checkedMul64_eq_some.1 hlen, checkedMul64_eq_some.1 hblocks, product64_eq hrows,
      UInt64.toNat_div, helements, hbytes, hcolumns]
    rfl

/-! ## Reading the source -/

/-- What is stored of a tensor: the bytes of the source at its place, in whole rows of whole
blocks. -/
structure Stored (source : GgufByteSource) (model : GgufModel) (tensor : GgufTensorInfo)
    (format : Ggml.Format) (bytes : Bytes) : Prop where
  format_eq : Ggml.Format.ofCode tensor.ggmlType.toNat = some format
  read : ∃ start, start.toNat = model.dataOffset.toNat + tensor.dataOffset.toNat ∧
    source.readExactAt start bytes.length = .ok bytes
  columns_pos : 0 < tensor.columns
  whole : format.blockElements ∣ tensor.columns
  length_eq : bytes.length =
    tensor.rows * (tensor.columns / format.blockElements) * format.blockBytes

section Reading

variable {source : GgufByteSource} {model : GgufModel} {tensor : GgufTensorInfo}
  {format : Ggml.Format} {bytes : Bytes}

theorem ggufTensorBytesFromSource_eq_ok
    (h : ggufTensorBytesFromSource source model tensor = .ok bytes) :
    ∃ format, Stored source model tensor format bytes := by
  simp only [ggufTensorBytesFromSource, bind_eq_ok, exists_unit, okOr_eq_ok, refuse_eq_ok] at h
  obtain ⟨-, -, -, len, hlen, start, hstart, -, -, -, hread⟩ := h
  obtain ⟨format, hformat, hpos, hdvd, hlen⟩ := ggmlTensorByteLen_eq_ok hlen
  exact ⟨format, {
    format_eq := hformat
    read := ⟨start, checkedAdd64_eq_some.1 hstart, (source.length_of_read hread).symm ▸ hread⟩
    columns_pos := hpos
    whole := hdvd
    length_eq := (source.length_of_read hread).trans hlen }⟩

namespace Stored

theorem unique {format' : Ggml.Format} {bytes' : Bytes}
    (h : Stored source model tensor format bytes) (h' : Stored source model tensor format' bytes') :
    format = format' ∧ bytes = bytes' := by
  obtain rfl := Option.some.inj (h.format_eq.symm.trans h'.format_eq)
  obtain ⟨start, hstart, hread⟩ := h.read
  obtain ⟨start', hstart', hread'⟩ := h'.read
  obtain rfl : start = start' := UInt64.toNat_inj.1 (hstart.trans hstart'.symm)
  rw [h'.length_eq, ← h.length_eq] at hread'
  exact ⟨rfl, Except.ok.inj (hread.symm.trans hread')⟩

end Stored

theorem nativeShape_eq_ok {transpose2d : Bool} {shape : List UInt64}
    (h : nativeShape tensor transpose2d = .ok shape) :
    shape = tensor.transcodedShape transpose2d ∧ 0 < tensor.rows ∧
      (transpose2d = true → ∃ ne0 ne1, tensor.dimensions = [ne0, ne1]) := by
  unfold nativeShape at h
  split at h
  · next width hdims =>
    split at h
    · next hc =>
      obtain rfl := pure_eq_ok.1 h
      rw [GgufTensorInfo.transcodedShape, GgufTensorInfo.rows, hdims, hc.2]
      exact ⟨rfl, Nat.one_pos, fun h => nomatch h⟩
    · cases h
  · next ne0 ne1 hdims =>
    split at h
    · next hc =>
      obtain rfl := pure_eq_ok.1 h
      rw [GgufTensorInfo.transcodedShape, GgufTensorInfo.rows, hdims]
      refine ⟨rfl, ?_, fun _ => ⟨ne0, ne1, rfl⟩⟩
      change 0 < ne1.toNat * 1
      rw [Nat.mul_one]
      exact hc.2
    · cases h
  · cases h

/-! ## Transposition -/

section Transpose

variable {rows cols width : ℕ}

/-- Where the element at a place of the transposed array comes from. -/
def origin (rows cols t : ℕ) : ℕ := t % rows * cols + t / rows

theorem origin_eq {row col : ℕ} (hrow : row < rows) :
    origin rows cols (col * rows + row) = row * cols + col := by
  rw [origin, Nat.mul_comm col, Nat.mul_add_mod, Nat.mod_eq_of_lt hrow,
    Nat.mul_add_div (Nat.zero_lt_of_lt hrow), Nat.div_eq_of_lt hrow, Nat.add_zero]

theorem place_lt {n m i j : ℕ} (hi : i < n) (hj : j < m) : i * m + j < n * m := by
  have := cell_le m hi
  omega

theorem origin_lt {t : ℕ} (ht : t < rows * cols) : origin rows cols t < rows * cols := by
  have hrows : 0 < rows := Nat.pos_of_ne_zero fun h0 => by simp [h0] at ht
  exact place_lt (Nat.mod_lt _ hrows) (Nat.div_lt_of_lt_mul ht)

/-- Every place of the transposed array has a row and a column. -/
theorem place_origin {t : ℕ} (ht : t < rows * cols) :
    t % rows < rows ∧ t / rows < cols ∧ t = t / rows * rows + t % rows := by
  have hrows : 0 < rows := Nat.pos_of_ne_zero fun h0 => by simp [h0] at ht
  exact ⟨Nat.mod_lt _ hrows, Nat.div_lt_of_lt_mul ht, (Nat.div_add_mod' t rows).symm⟩

/-- **The loop puts every value at its transposed place.** -/
theorem safe_transposeValues {values : List F32} :
    Safe (transposeValues values rows cols) fun output => values.length = rows * cols ∧
      output = (List.range (rows * cols)).map fun t =>
        values.getD (origin rows cols t) F32.zero := by
  refine Safe.okOr.bind fun elements helements => Safe.refuse.bind fun _ hlength => ?_
  obtain ⟨-, rfl⟩ := checkedMulUsize_eq_some.1 helements
  rw [not_not] at hlength
  have hmove (row : ℕ) (hrow : row ∈ List.range rows) (col : ℕ) (hcol : col ∈ List.range cols) :
      Fills (rows * cols) (fun t => values.getD (origin rows cols t) F32.zero)
        (· = col * rows + row) (moveValue values rows cols row col) := by
    rw [List.mem_range] at hrow hcol
    intro l hl
    refine (Safe.index (d := F32.zero) ?_).bind fun value hvalue => ?_
    · rw [hlength]
      exact place_lt hrow hcol
    · refine Fills.set ?_ ?_ l hl
      · rw [Nat.mul_comm rows]
        exact place_lt hcol hrow
      · rw [hvalue, origin_eq hrow]
  refine ((Fills.foldlM fun row hrow => Fills.foldlM (hmove row hrow)).full (fun t ht => ?_)
    List.length_replicate).mono fun output houtput => ⟨hlength, houtput⟩
  obtain ⟨hrow, hcol, hplace⟩ := place_origin ht
  exact ⟨_, List.mem_range.2 hrow, _, List.mem_range.2 hcol, hplace⟩

/-- The byte of the transposed array at a place: the same byte of the element that comes there. -/
def movedByte (bytes : Bytes) (rows cols width p : ℕ) : UInt8 :=
  bytes.getD (origin rows cols (p / width) * width + p % width) 0

theorem movedByte_eq {row col k : ℕ} (hrow : row < rows) (hk : k < width) :
    movedByte bytes rows cols width ((col * rows + row) * width + k) =
      bytes.getD ((row * cols + col) * width + k) 0 := by
  have hpos : 0 < width := Nat.zero_lt_of_lt hk
  have hdiv : ((col * rows + row) * width + k) / width = col * rows + row := by
    rw [Nat.mul_comm _ width, Nat.mul_add_div hpos, Nat.div_eq_of_lt hk, Nat.add_zero]
  have hmod : ((col * rows + row) * width + k) % width = k := by
    rw [Nat.mul_comm _ width, Nat.mul_add_mod, Nat.mod_eq_of_lt hk]
  rw [movedByte, hdiv, hmod, origin_eq hrow]

theorem fills_moveElement {row col : ℕ} (hlength : bytes.length = rows * cols * width)
    (hrow : row < rows) (hcol : col < cols) :
    Fills (rows * cols * width) (movedByte bytes rows cols width)
      (fun p => (col * rows + row) * width ≤ p ∧ p < (col * rows + row) * width + width)
      (moveElement bytes rows cols width row col) := by
  intro l hl
  refine Safe.okOr.bind fun rowStart hrowStart => Safe.okOr.bind fun sourceElement hsource => ?_
  refine Safe.okOr.bind fun colStart hcolStart => Safe.okOr.bind fun targetElement htarget => ?_
  obtain ⟨-, rfl⟩ := checkedMulUsize_eq_some.1 hrowStart
  obtain ⟨-, rfl⟩ := checkedAddUsize_eq_some.1 hsource
  obtain ⟨-, rfl⟩ := checkedMulUsize_eq_some.1 hcolStart
  obtain ⟨-, rfl⟩ := checkedAddUsize_eq_some.1 htarget
  refine Safe.okOr.bind fun start hstart => Safe.okOr.bind fun stop hstop => ?_
  obtain ⟨-, rfl⟩ := checkedMulUsize_eq_some.1 hstart
  obtain ⟨-, rfl⟩ := checkedMulUsize_eq_some.1 hstop
  refine (safe_slice rfl (hlength ▸ cell_le width (place_lt hrow hcol))).bind fun chunk hchunk => ?_
  subst hchunk
  have htarget : (col * rows + row) * width + width ≤ rows * cols * width := by
    rw [Nat.mul_comm rows]
    exact cell_le width (place_lt hcol hrow)
  refine Fills.copy (Nat.le_add_right _ _) htarget ?_ (fun k hk => ?_) l hl
  · rw [List.length_map, List.length_range, Nat.add_sub_cancel_left]
  · rw [Nat.add_sub_cancel_left] at hk
    rw [List.getElem?_map, List.getElem?_range hk, movedByte_eq hrow hk]
    rfl

theorem safe_transposeElements :
    Safe (transposeElements bytes rows cols width) fun output =>
      bytes.length = rows * cols * width ∧
        output = (List.range (rows * cols * width)).map (movedByte bytes rows cols width) := by
  refine Safe.okOr.bind fun elements helements => Safe.okOr.bind fun expected hexpected => ?_
  obtain ⟨-, rfl⟩ := checkedMulUsize_eq_some.1 helements
  obtain ⟨-, rfl⟩ := checkedMulUsize_eq_some.1 hexpected
  refine Safe.refuse.bind fun _ hlength => ?_
  rw [not_not] at hlength
  refine ((Fills.foldlM fun row hrow => Fills.foldlM fun col hcol =>
    fills_moveElement hlength (List.mem_range.1 hrow) (List.mem_range.1 hcol)).full (fun p hp => ?_)
      List.length_replicate).mono fun output houtput => ⟨hlength, houtput⟩
  have hwidth : 0 < width := Nat.pos_of_ne_zero fun h0 => by simp [h0] at hp
  have helement : p / width < rows * cols := Nat.div_lt_of_lt_mul (Nat.mul_comm width _ ▸ hp)
  obtain ⟨hrow, hcol, hplace⟩ := place_origin helement
  refine ⟨_, List.mem_range.2 hrow, _, List.mem_range.2 hcol, ?_⟩
  rw [← hplace]
  exact ⟨Nat.div_mul_le_self p width, Nat.lt_div_mul_add hwidth⟩

/-- An element of the transposed array is the one it comes from. -/
theorem cell_moved {row col : ℕ} (hlength : bytes.length = rows * cols * width) (hrow : row < rows)
    (hcol : col < cols) :
    cell width ((List.range (rows * cols * width)).map (movedByte bytes rows cols width))
      (col * rows + row) = cell width bytes (row * cols + col) := by
  have hplace : col * rows + row < rows * cols := Nat.mul_comm cols rows ▸ place_lt hcol hrow
  rw [cell_eq 0 (by rw [List.length_map, List.length_range]) hplace,
    cell_eq 0 hlength (place_lt hrow hcol)]
  refine List.map_congr_left fun k hk => ?_
  have hlt : k < width := List.mem_range.1 hk
  have hin := cell_le width hplace
  rw [getD_map_range (by omega), movedByte_eq hrow hlt]

end Transpose

/-! ## The result -/

/-- The result has the shape of the tensor, and at the place of each row and column the bytes of its
element. -/
structure Transcoded (tensor : GgufTensorInfo) (transpose2d : Bool) (dtype : DType)
    (reference : ℕ → ℕ → Bytes) (native : TranscodedTensor) : Prop where
  dtype_eq : native.dtype = dtype
  shape_eq : native.shape = tensor.transcodedShape transpose2d
  length_eq : native.payload.length =
    tensor.rows * tensor.columns * TensorLoader.dtypeWidth dtype
  cell_eq : ∀ row < tensor.rows, ∀ column < tensor.columns,
    cell (TensorLoader.dtypeWidth dtype) native.payload (tensor.place transpose2d row column) =
      reference row column

/-- A tensor of two dimensions has its rows and columns in them. -/
theorem safe_dimensions {ne0 ne1 : UInt64} (hdims : tensor.dimensions = [ne0, ne1]) :
    Safe (index tensor.dimensions 1 : Code GgufError UInt64) (·.toNat = tensor.rows) ∧
      Safe (index tensor.dimensions 0 : Code GgufError UInt64) (·.toNat = tensor.columns) := by
  have hrows : tensor.rows = ne1.toNat := by
    rw [GgufTensorInfo.rows, hdims]
    exact Nat.mul_one _
  have hcolumns : tensor.columns = ne0.toNat := by
    rw [GgufTensorInfo.columns, hdims]
    rfl
  rw [hdims, hrows, hcolumns]
  exact ⟨⟨.ok ne1, rfl, fun _ h => Except.ok.inj h ▸ rfl⟩,
    ⟨.ok ne0, rfl, fun _ h => Except.ok.inj h ▸ rfl⟩⟩

theorem safe_transcodeUnquantized {transpose2d : Bool} {dtype : DType}
    (hlength : bytes.length =
      tensor.rows * tensor.columns * TensorLoader.dtypeWidth dtype) :
    Safe (transcodeUnquantized tensor bytes dtype (TensorLoader.dtypeWidth dtype) transpose2d)
      (Transcoded tensor transpose2d dtype fun row column =>
        cell (TensorLoader.dtypeWidth dtype) bytes (row * tensor.columns + column)) := by
  refine (Safe.lift fun shape hshape => nativeShape_eq_ok hshape).bind fun shape hshape => ?_
  obtain ⟨rfl, -, hdims⟩ := hshape
  cases transpose2d with
  | false =>
    have horder : Safe (orderElements tensor bytes (TensorLoader.dtypeWidth dtype) false)
        (· = bytes) := Safe.pure rfl
    refine horder.bind fun payload hpayload => Safe.pure ?_
    subst hpayload
    exact { dtype_eq := rfl, shape_eq := rfl, length_eq := hlength, cell_eq := fun _ _ _ _ => rfl }
  | true =>
    obtain ⟨ne0, ne1, hdims⟩ := hdims rfl
    obtain ⟨hrows, hcolumns⟩ := safe_dimensions hdims
    have horder : Safe (orderElements tensor bytes (TensorLoader.dtypeWidth dtype) true)
        (· = (List.range (tensor.rows * tensor.columns * TensorLoader.dtypeWidth dtype)).map
          (movedByte bytes tensor.rows tensor.columns (TensorLoader.dtypeWidth dtype))) := by
      refine hrows.bind fun rows hrows => hcolumns.bind fun cols hcols => ?_
      rw [hrows, hcols]
      exact safe_transposeElements.mono fun output h => h.2
    refine horder.bind fun payload hpayload => Safe.pure ?_
    subst hpayload
    exact {
      dtype_eq := rfl
      shape_eq := rfl
      length_eq := by rw [List.length_map, List.length_range]
      cell_eq := fun row hrow column hcolumn => cell_moved hlength hrow hcolumn }

/-! ## Decoding -/

section Decode

variable {ops : F32Ops} {f16ToF32 : UInt16 → F32}

theorem foldlM_pushValue : ∀ {values : List F32} {payload result : Bytes},
    values.foldlM (pushValue ops) payload = .ok result →
      (∀ value ∈ values, ops.isFinite value = true) ∧
        result = payload ++ values.flatMap fun value => leBytes 4 value.toNat
  | [], payload, result, h => by
      obtain rfl := pure_eq_ok.1 h
      exact ⟨by simp, (List.append_nil _).symm⟩
  | value :: values, payload, result, h => by
      rw [List.foldlM_cons, bind_eq_ok] at h
      obtain ⟨next, hnext, hrest⟩ := h
      rw [pushValue, bind_eq_ok, exists_unit, refuse_eq_ok, pure_eq_ok, Bool.not_eq_false] at hnext
      obtain ⟨hfinite, rfl⟩ := hnext
      obtain ⟨hall, rfl⟩ := foldlM_pushValue hrest
      exact ⟨List.forall_mem_cons.2 ⟨hfinite, hall⟩, by rw [List.flatMap_cons, List.append_assoc]⟩

theorem length_payload {n : ℕ} {v : ℕ → F32} :
    (((List.range n).map v).flatMap fun value => leBytes 4 value.toNat).length = n * 4 := by
  rw [List.flatMap_map, List.length_flatMap]
  simp [length_leBytes]

/-- The values are written in their order, or each at its transposed place. -/
theorem safe_orderValues {transpose2d : Bool} {v : ℕ → F32}
    (hdims : transpose2d = true → ∃ ne0 ne1, tensor.dimensions = [ne0, ne1]) :
    ∃ w : ℕ → F32, Safe (orderValues tensor
        ((List.range (tensor.rows * tensor.columns)).map v) transpose2d)
        (· = (List.range (tensor.rows * tensor.columns)).map w) ∧
      ∀ row < tensor.rows, ∀ column < tensor.columns,
        tensor.place transpose2d row column < tensor.rows * tensor.columns ∧
          w (tensor.place transpose2d row column) = v (row * tensor.columns + column) := by
  cases transpose2d with
  | false => exact ⟨v, Safe.pure rfl, fun row hrow column hcolumn => ⟨place_lt hrow hcolumn, rfl⟩⟩
  | true =>
    obtain ⟨ne0, ne1, hdims⟩ := hdims rfl
    obtain ⟨hrows, hcolumns⟩ := safe_dimensions hdims
    refine ⟨fun t => v (origin tensor.rows tensor.columns t),
      hrows.bind fun rows hrows => hcolumns.bind fun cols hcols => ?_,
      fun row hrow column hcolumn => ⟨?_, congrArg v (origin_eq hrow)⟩⟩
    · rw [hrows, hcols]
      refine safe_transposeValues.mono fun output houtput => houtput.2.trans ?_
      exact List.map_congr_left fun t ht => getD_map_range (origin_lt (List.mem_range.1 ht))
    · rw [Nat.mul_comm tensor.rows]
      exact place_lt hcolumn hrow

theorem safe_transcodeDequantized {transpose2d : Bool} {v : ℕ → F32} :
    Safe (transcodeDequantized ops tensor
      ((List.range (tensor.rows * tensor.columns)).map v) transpose2d)
      (Transcoded tensor transpose2d .f32 fun row column =>
        leBytes 4 (v (row * tensor.columns + column)).toNat) := by
  refine (Safe.lift fun shape hshape => nativeShape_eq_ok hshape).bind fun shape hshape => ?_
  obtain ⟨rfl, -, hdims⟩ := hshape
  obtain ⟨w, hvalues, hplace⟩ := safe_orderValues (v := v) hdims
  refine hvalues.bind fun values hvalues => Safe.okOr.bind fun _ _ => ?_
  subst hvalues
  refine (Safe.lift fun payload hpayload => (foldlM_pushValue hpayload).2).bind
    fun payload hpayload => Safe.pure ?_
  rw [List.nil_append] at hpayload
  subst hpayload
  refine {
    dtype_eq := rfl
    shape_eq := rfl
    length_eq := length_payload
    cell_eq := fun row hrow column hcolumn => ?_ }
  obtain ⟨hlt, hw⟩ := hplace row hrow column hcolumn
  rw [← hw]
  refine cell_flatMap (fun value : F32 => length_leBytes 4 value.toNat) ?_
  rw [List.getElem?_map, List.getElem?_range hlt]
  rfl

/-- The element of a tensor that the reference works out of the block it is in. -/
def decodedValue (format : Ggml.Format) (value : (ℕ → ℕ) → ℕ → F32) (bytes : Bytes) (e : ℕ) : F32 :=
  value (byteAt (cell format.blockBytes bytes (e / format.blockElements)))
    (e % format.blockElements)

theorem validateQuantizedPayload_eq_ok (hformat : Ggml.Format.ofCode tensor.ggmlType.toNat =
      some format) (h : validateQuantizedPayload tensor bytes = .ok ()) :
    bytes.length = tensor.rows * (tensor.columns / format.blockElements) * format.blockBytes ∧
      format.blockElements ∣ tensor.columns := by
  simp only [validateQuantizedPayload, bind_eq_ok, refuse_eq_ok, not_not] at h
  obtain ⟨len, hlen, hbytes⟩ := h
  obtain ⟨format', hformat', -, hdvd, hlen⟩ := ggmlTensorByteLen_eq_ok hlen
  obtain rfl := Option.some.inj (hformat.symm.trans hformat')
  exact ⟨hbytes.trans hlen, hdvd⟩

/-- **Block after block**, each as the reference works it out. -/
theorem safe_decodeBlocks {block : List F32 → Bytes → Code GgufError (List F32)}
    {value : (ℕ → ℕ) → ℕ → F32}
    (hformat : Ggml.Format.ofCode tensor.ggmlType.toNat = some format)
    (hblock : ∀ output b, b.length = format.blockBytes → Safe (block output b)
      (· = output ++ (List.range format.blockElements).map (value (byteAt b)))) :
    Safe (decodeBlocks format.blockBytes block tensor bytes)
      (· = (List.range (tensor.rows * tensor.columns)).map
        (decodedValue format value bytes)) := by
  refine (Safe.lift fun u hu => validateQuantizedPayload_eq_ok hformat hu).bind fun _ h => ?_
  obtain ⟨hlength, hwhole⟩ := h
  refine (Safe.lift fun _ _ => trivial).bind fun capacity _ => ?_
  have hcount : bytes.length / format.blockBytes =
      tensor.rows * (tensor.columns / format.blockElements) := by
    rw [hlength, Nat.mul_div_cancel _ format.blockBytes_pos]
  have hfold : Safe ((chunksExact format.blockBytes bytes).foldlM block [])
      (· = [] ++ (chunksExact format.blockBytes bytes).flatMap fun b =>
        (List.range format.blockElements).map (value (byteAt b))) := by
    refine Safe.flatMap fun b hb output => hblock output b ?_
    obtain ⟨i, hi, rfl⟩ := List.mem_map.1 hb
    rw [List.mem_range, hcount] at hi
    exact length_cell hlength hi
  refine hfold.bind fun output houtput => Safe.refuse.bind fun _ _ => Safe.pure ?_
  rw [houtput, List.nil_append, chunksExact, List.flatMap_map, hcount]
  have hflat := flatMap_range format.blockElements_pos
    (fun i => value (byteAt (cell format.blockBytes bytes i)))
    (tensor.rows * (tensor.columns / format.blockElements))
  rw [Nat.mul_assoc _ _ format.blockElements, Nat.div_mul_cancel hwhole] at hflat
  exact hflat

theorem safe_decodeFinite {width : ℕ} {block : List F32 → Bytes → Code GgufError (List F32)}
    {Q : List F32 → Prop} (h : Safe (decodeBlocks width block tensor bytes) Q) :
    Safe (decodeFinite ops width block tensor bytes) Q :=
  h.bind fun _ houtput => Safe.refuse.bind fun _ _ => Safe.pure houtput

theorem safe_decodeQ4_0 (hformat : Ggml.Format.ofCode tensor.ggmlType.toNat = some .q4_0) :
    Safe (decodeQ4_0 ops f16ToF32 tensor bytes)
      (· = (List.range (tensor.rows * tensor.columns)).map
        (decodedValue .q4_0 (Ggml.q4_0 (ggmlArith ops f16ToF32)) bytes)) := by
  apply safe_decodeBlocks hformat
  exact fun _ _ hb => safe_q4_0Block hb

theorem safe_decodeQ8_0 (hformat : Ggml.Format.ofCode tensor.ggmlType.toNat = some .q8_0) :
    Safe (decodeQ8_0 ops f16ToF32 tensor bytes)
      (· = (List.range (tensor.rows * tensor.columns)).map
        (decodedValue .q8_0 (Ggml.q8_0 (ggmlArith ops f16ToF32)) bytes)) := by
  apply safe_decodeBlocks hformat
  exact fun _ _ hb => safe_q8_0Block hb

theorem safe_decodeQ4K (hformat : Ggml.Format.ofCode tensor.ggmlType.toNat = some .q4K) :
    Safe (decodeQ4K ops f16ToF32 tensor bytes)
      (· = (List.range (tensor.rows * tensor.columns)).map
        (decodedValue .q4K (Ggml.q4K (ggmlArith ops f16ToF32)) bytes)) := by
  apply safe_decodeFinite
  apply safe_decodeBlocks hformat
  exact fun _ _ hb => safe_q4KBlock hb

theorem safe_decodeQ5K (hformat : Ggml.Format.ofCode tensor.ggmlType.toNat = some .q5K) :
    Safe (decodeQ5K ops f16ToF32 tensor bytes)
      (· = (List.range (tensor.rows * tensor.columns)).map
        (decodedValue .q5K (Ggml.q5K (ggmlArith ops f16ToF32)) bytes)) := by
  apply safe_decodeFinite
  apply safe_decodeBlocks hformat
  exact fun _ _ hb => safe_q5KBlock hb

theorem safe_decodeQ6K (hformat : Ggml.Format.ofCode tensor.ggmlType.toNat = some .q6K) :
    Safe (decodeQ6K ops f16ToF32 tensor bytes)
      (· = (List.range (tensor.rows * tensor.columns)).map
        (decodedValue .q6K (Ggml.q6K (ggmlArith ops f16ToF32)) bytes)) := by
  apply safe_decodeFinite
  apply safe_decodeBlocks hformat
  exact fun _ _ hb => safe_q6KBlock hb

/-! ## Every type -/

/-- The type that a format is transcoded to. -/
def transcodedDtype : Ggml.Format → DType
  | .f16 => .f16
  | .bf16 => .bf16
  | .f32 | .q4_0 | .q8_0 | .q4K | .q5K | .q6K => .f32

/-- The bytes of an element: those that are stored, or of the number that the reference works out of
its block. -/
def referenceCell (ops : F32Ops) (f16ToF32 : UInt16 → F32) (tensor : GgufTensorInfo)
    (format : Ggml.Format) (bytes : Bytes) (row column : ℕ) : Bytes :=
  let block := cell format.blockBytes bytes (Ggml.blockOf format tensor.columns row column)
  match Ggml.dequantize (ggmlArith ops f16ToF32) (byteAt block) format with
  | some value => leBytes 4 (value (column % format.blockElements)).toNat
  | none => block

theorem Stored.decodedValue_eq (h : Stored source model tensor format bytes)
    (value : (ℕ → ℕ) → ℕ → F32) (row column : ℕ) :
    decodedValue format value bytes (row * tensor.columns + column) =
      value (byteAt (cell format.blockBytes bytes
        (Ggml.blockOf format tensor.columns row column))) (column % format.blockElements) := by
  rw [decodedValue, Ggml.div_blockElements h.whole, Ggml.mod_blockElements h.whole]

/-- A format that stores numbers. -/
theorem Stored.safe_plain (h : Stored source model tensor format bytes) {transpose2d : Bool}
    (hone : format.blockElements = 1)
    (hwidth : TensorLoader.dtypeWidth (transcodedDtype format) = format.blockBytes)
    (hnone : ∀ b, Ggml.dequantize (ggmlArith ops f16ToF32) b format = none) :
    Safe (transcodeUnquantized tensor bytes (transcodedDtype format) format.blockBytes transpose2d)
      (Transcoded tensor transpose2d (transcodedDtype format)
        (referenceCell ops f16ToF32 tensor format bytes)) := by
  have hlength : bytes.length =
      tensor.rows * tensor.columns * TensorLoader.dtypeWidth (transcodedDtype format) := by
    rw [h.length_eq, hone, Nat.div_one, hwidth]
  have href (row column : ℕ) : referenceCell ops f16ToF32 tensor format bytes row column =
      cell (TensorLoader.dtypeWidth (transcodedDtype format)) bytes
        (row * tensor.columns + column) := by
    rw [referenceCell, hnone, Ggml.blockOf, hone, Nat.div_one, Nat.div_one, hwidth]
  rw [← hwidth]
  exact (safe_transcodeUnquantized hlength).mono fun native hnative =>
    { hnative with cell_eq := fun row hrow column hcolumn =>
        (hnative.cell_eq row hrow column hcolumn).trans (href row column).symm }

/-- A format of quants. -/
theorem Stored.safe_quantized (h : Stored source model tensor format bytes) {transpose2d : Bool}
    {value : (ℕ → ℕ) → ℕ → F32} {decode : Code GgufError (List F32)}
    (hvalue : ∀ b, Ggml.dequantize (ggmlArith ops f16ToF32) b format = some (value b))
    (hdtype : transcodedDtype format = .f32)
    (hdecode : Safe decode (· = (List.range (tensor.rows * tensor.columns)).map
      (decodedValue format value bytes))) :
    Safe (decode >>= fun values => transcodeDequantized ops tensor values transpose2d)
      (Transcoded tensor transpose2d (transcodedDtype format)
        (referenceCell ops f16ToF32 tensor format bytes)) := by
  have href (row column : ℕ) : referenceCell ops f16ToF32 tensor format bytes row column =
      leBytes 4 (decodedValue format value bytes (row * tensor.columns + column)).toNat := by
    rw [referenceCell, hvalue, h.decodedValue_eq]
  refine hdecode.bind fun values hvalues => ?_
  subst hvalues
  rw [hdtype]
  exact safe_transcodeDequantized.mono fun native hnative =>
    { hnative with cell_eq := fun row hrow column hcolumn =>
        (hnative.cell_eq row hrow column hcolumn).trans (href row column).symm }

theorem Stored.safe_payload (h : Stored source model tensor format bytes) {transpose2d : Bool} :
    Safe (transcodeTensorPayload ops f16ToF32 tensor bytes transpose2d)
      (Transcoded tensor transpose2d (transcodedDtype format)
        (referenceCell ops f16ToF32 tensor format bytes)) := by
  have hformat := h.format_eq
  have hcode' := h.format_eq
  unfold transcodeTensorPayload
  split
  case h_9 => exact Safe.throw
  all_goals
    rename_i hcode
    rw [hcode] at hcode'
    obtain rfl := Option.some.inj hcode'
  · exact h.safe_plain rfl rfl fun _ => rfl
  · exact h.safe_plain rfl rfl fun _ => rfl
  · exact h.safe_plain rfl rfl fun _ => rfl
  · exact h.safe_quantized (fun _ => rfl) rfl (safe_decodeQ4_0 hformat)
  · exact h.safe_quantized (fun _ => rfl) rfl (safe_decodeQ8_0 hformat)
  · exact h.safe_quantized (fun _ => rfl) rfl (safe_decodeQ4K hformat)
  · exact h.safe_quantized (fun _ => rfl) rfl (safe_decodeQ5K hformat)
  · exact h.safe_quantized (fun _ => rfl) rfl (safe_decodeQ6K hformat)

/-! ## The transposed and the plain result -/

theorem nativeShape_plain {shape : List UInt64} (h : nativeShape tensor true = .ok shape) :
    ∃ plain, nativeShape tensor false = .ok plain := by
  unfold nativeShape at h ⊢
  split at h
  · rw [if_neg fun hc => nomatch hc.2] at h
    cases h
  · split at h
    · next hc =>
      rw [if_pos hc]
      exact ⟨_, rfl⟩
    · cases h
  · cases h

theorem transcodeUnquantized_plain {dtype : DType} {width : ℕ} {native : TranscodedTensor}
    (h : (transcodeUnquantized tensor bytes dtype width true).run = some (.ok native)) :
    ∃ plain, (transcodeUnquantized tensor bytes dtype width false).run = some (.ok plain) := by
  obtain ⟨shape, hshape, -⟩ := run_bind_eq_ok.1 h
  obtain ⟨shape', hshape'⟩ := nativeShape_plain (Option.some.inj hshape)
  exact ⟨_, run_bind_eq_ok.2 ⟨shape', congrArg some hshape', rfl⟩⟩

theorem foldlM_pushValue_of_finite : ∀ {values : List F32} (payload : Bytes),
    (∀ value ∈ values, ops.isFinite value = true) →
      ∃ result, values.foldlM (pushValue ops) payload = .ok result
  | [], payload, _ => ⟨payload, rfl⟩
  | value :: values, payload, h => by
      obtain ⟨hvalue, hrest⟩ := List.forall_mem_cons.1 h
      obtain ⟨result, hresult⟩ :=
        foldlM_pushValue_of_finite (payload ++ leBytes 4 value.toNat) hrest
      refine ⟨result, ?_⟩
      rw [List.foldlM_cons, bind_eq_ok]
      refine ⟨_, ?_, hresult⟩
      rw [pushValue, bind_eq_ok, exists_unit, refuse_eq_ok, hvalue]
      exact ⟨Bool.false_ne_true.symm, rfl⟩

/-- Every value has a place in the transposed array. -/
theorem mem_transposed {values output : List F32} {rows cols : ℕ}
    (hlength : values.length = rows * cols) (houtput : output = (List.range (rows * cols)).map
      fun t => values.getD (origin rows cols t) F32.zero) :
    output.length = values.length ∧ ∀ value ∈ values, value ∈ output := by
  subst houtput
  refine ⟨by rw [List.length_map, List.length_range, hlength], fun value hvalue => ?_⟩
  obtain ⟨e, he, rfl⟩ := List.getElem_of_mem hvalue
  rw [hlength, Nat.mul_comm] at he
  obtain ⟨hcol, hrow, hplace⟩ := place_origin he
  refine List.mem_map.2 ⟨e % cols * rows + e / cols, List.mem_range.2 ?_, ?_⟩
  · rw [Nat.mul_comm rows]
    exact place_lt hcol hrow
  · rw [origin_eq hrow, ← hplace]
    exact List.getD_eq_getElem _ _ _

theorem transcodeDequantized_plain {values : List F32} {native : TranscodedTensor}
    (h : (transcodeDequantized ops tensor values true).run = some (.ok native)) :
    ∃ plain, (transcodeDequantized ops tensor values false).run = some (.ok plain) := by
  obtain ⟨shape, hshape, h⟩ := run_bind_eq_ok.1 h
  obtain ⟨output, horder, h⟩ := run_bind_eq_ok.1 h
  obtain ⟨len, hlen, h⟩ := run_bind_eq_ok.1 h
  obtain ⟨payload, hpayload, -⟩ := run_bind_eq_ok.1 h
  obtain ⟨shape', hshape'⟩ := nativeShape_plain (Option.some.inj hshape)
  obtain ⟨rows, -, horder⟩ := run_bind_eq_ok.1 horder
  obtain ⟨cols, -, horder⟩ := run_bind_eq_ok.1 horder
  obtain ⟨hlength, houtput⟩ := safe_transposeValues.of_answer horder
  obtain ⟨hsame, hmem⟩ := mem_transposed hlength houtput
  have hfinite := (foldlM_pushValue (Option.some.inj hpayload)).1
  obtain ⟨result, hresult⟩ := foldlM_pushValue_of_finite []
    fun value hvalue => hfinite value (hmem value hvalue)
  rw [hsame] at hlen
  exact ⟨_, run_bind_eq_ok.2 ⟨shape', congrArg some hshape', run_bind_eq_ok.2 ⟨values, rfl,
    run_bind_eq_ok.2 ⟨len, hlen, run_bind_eq_ok.2 ⟨result, congrArg some hresult, rfl⟩⟩⟩⟩⟩

theorem transcodeTensorPayload_plain {native : TranscodedTensor}
    (h : (transcodeTensorPayload ops f16ToF32 tensor bytes true).run = some (.ok native)) :
    ∃ plain, (transcodeTensorPayload ops f16ToF32 tensor bytes false).run = some (.ok plain) := by
  have hquants {decode : Code GgufError (List F32)} (hd : (decode >>= fun values =>
      transcodeDequantized ops tensor values true).run = some (.ok native)) :
      ∃ plain, (decode >>= fun values =>
        transcodeDequantized ops tensor values false).run = some (.ok plain) := by
    obtain ⟨values, hvalues, hd⟩ := run_bind_eq_ok.1 hd
    obtain ⟨plain, hplain⟩ := transcodeDequantized_plain hd
    exact ⟨plain, run_bind_eq_ok.2 ⟨values, hvalues, hplain⟩⟩
  unfold transcodeTensorPayload at h ⊢
  generalize tensor.ggmlType = code at h ⊢
  split at h
  case h_9 => cases Option.some.inj h
  case h_1 | h_2 | h_3 => exact transcodeUnquantized_plain h
  all_goals exact hquants h

theorem transcodeTensorFromSource_plain {native : TranscodedTensor}
    (h : (transcodeTensorFromSource ops f16ToF32 source model tensor true).run =
      some (.ok native)) :
    ∃ plain, (transcodeTensorFromSource ops f16ToF32 source model tensor false).run =
      some (.ok plain) := by
  obtain ⟨u, hrank, h⟩ := run_bind_eq_ok.1 h
  obtain ⟨-, -, h⟩ := run_bind_eq_ok.1 h
  obtain ⟨bytes, hbytes, h⟩ := run_bind_eq_ok.1 h
  obtain ⟨plain, hplain⟩ := transcodeTensorPayload_plain h
  refine ⟨plain, run_bind_eq_ok.2 ⟨u, hrank, run_bind_eq_ok.2 ⟨(), ?_,
    run_bind_eq_ok.2 ⟨bytes, hbytes, hplain⟩⟩⟩⟩
  rw [refuse, if_neg fun hc => Bool.false_ne_true hc.1]
  rfl

/-- **A transcoded tensor has the elements of the file**, each at its place. -/
theorem safe_transcodeTensorFromSource {transpose2d : Bool} :
    Safe (transcodeTensorFromSource ops f16ToF32 source model tensor transpose2d) fun native =>
      ∃ format bytes, Stored source model tensor format bytes ∧
        Transcoded tensor transpose2d (transcodedDtype format)
          (referenceCell ops f16ToF32 tensor format bytes) native := by
  refine Safe.refuse.bind fun _ _ => Safe.refuse.bind fun _ _ => ?_
  refine (Safe.lift fun bytes hbytes => ggufTensorBytesFromSource_eq_ok hbytes).bind
    fun bytes ⟨format, hstored⟩ => ?_
  exact hstored.safe_payload.mono fun native hnative => ⟨format, bytes, hstored, hnative⟩

end Decode

end Reading

/-- **Quantised tensors are decoded as ggml defines them.**  No slice is indexed out of bounds; what
is answered has the type and the shape of the tensor, and at the place of every row and column the
number that is stored or the one that the reference works out of its block; the transposed result is
the transpose of the plain one. -/
theorem transcodeTensorFromSource_spec (ops : F32Ops) (f16ToF32 : UInt16 → F32)
    (source : GgufByteSource) (model : GgufModel) (tensor : GgufTensorInfo) (transpose2d : Bool) :
    (∃ r, (transcodeTensorFromSource ops f16ToF32 source model tensor transpose2d).run = some r) ∧
      ∀ native,
        (transcodeTensorFromSource ops f16ToF32 source model tensor transpose2d).run =
          some (.ok native) →
        (∃ format bytes, Stored source model tensor format bytes ∧
          Transcoded tensor transpose2d (transcodedDtype format)
            (referenceCell ops f16ToF32 tensor format bytes) native) ∧
        (transpose2d = true → ∃ plain,
          (transcodeTensorFromSource ops f16ToF32 source model tensor false).run =
            some (.ok plain) ∧
          plain.dtype = native.dtype ∧ plain.shape = native.shape.reverse ∧
          plain.payload.length = native.payload.length ∧
          ∀ row < tensor.rows, ∀ column < tensor.columns,
            cell (TensorLoader.dtypeWidth native.dtype) native.payload
                (column * tensor.rows + row) =
              cell (TensorLoader.dtypeWidth native.dtype) plain.payload
                (row * tensor.columns + column)) := by
  refine ⟨safe_transcodeTensorFromSource.exists_run, fun native h => ?_⟩
  obtain ⟨format, bytes, hstored, hnative⟩ := safe_transcodeTensorFromSource.of_answer h
  refine ⟨⟨format, bytes, hstored, hnative⟩, fun htranspose => ?_⟩
  subst htranspose
  obtain ⟨plain, hplain⟩ := transcodeTensorFromSource_plain h
  obtain ⟨format', bytes', hstored', hplain'⟩ := safe_transcodeTensorFromSource.of_answer hplain
  obtain ⟨rfl, rfl⟩ := hstored.unique hstored'
  refine ⟨plain, hplain, hplain'.dtype_eq.trans hnative.dtype_eq.symm, ?_,
    hplain'.length_eq.trans hnative.length_eq.symm, fun row hrow column hcolumn => ?_⟩
  · rw [hplain'.shape_eq, hnative.shape_eq]
    rfl
  · rw [hnative.dtype_eq]
    exact (hnative.cell_eq row hrow column hcolumn).trans
      (hplain'.cell_eq row hrow column hcolumn).symm

namespace TranscodeSample

/-- Three rows of two numbers, one word each. -/
def bytes : Bytes := [1, 0, 0, 0, 2, 0, 0, 0, 3, 0, 0, 0, 4, 0, 0, 0, 5, 0, 0, 0, 6, 0, 0, 0]

def tensor : GgufTensorInfo := ⟨"linear.weight", [2, 3], 0, 0⟩

def model : GgufModel := ⟨3, 32, ∅, [tensor], 0, 24⟩

def native : TranscodedTensor :=
  ⟨.f32, [2, 3], [1, 0, 0, 0, 3, 0, 0, 0, 5, 0, 0, 0, 2, 0, 0, 0, 4, 0, 0, 0, 6, 0, 0, 0]⟩

end TranscodeSample

open TranscodeSample in
/-- The columns of a small tensor, one after the other. -/
theorem transcodeTensorFromSource_spec_linear :
    (transcodeTensorFromSource .words (·.toUInt32) (SliceGgufSource.source bytes) model tensor
      true).run = some (.ok native) ∧
    ∃ format stored, Stored (SliceGgufSource.source bytes) model tensor format stored ∧
      Transcoded tensor true (transcodedDtype format)
        (referenceCell .words (·.toUInt32) tensor format stored) native := by
  have hrun : (transcodeTensorFromSource .words (·.toUInt32) (SliceGgufSource.source bytes) model
      tensor true).run = some (.ok native) := by
    decide +kernel
  exact ⟨hrun, ((transcodeTensorFromSource_spec .words (·.toUInt32) (SliceGgufSource.source bytes)
    model tensor true).2 native hrun).1⟩

/-- A block of thirty-two quants: the low bits first, then the high bits. -/
example : (q4_0Block .words (·.toUInt32) [] ([1, 0] ++ List.replicate 16 0x98)).run =
    some (.ok (List.replicate 16 0 ++ List.replicate 16 1)) := by
  decide +kernel

end NTD97
