import Mathlib
import NTD97.Gguf
import NTD97.Lib.Width

/-!
# Gguf/Reader — parsing the head of a GGUF file

    "GGUF" ▪ 3 ▪ counts ▪ key, type, value … ▪ name, dimensions, type, offset … ▪ padding ▪ data

The parser keeps the metadata by key, so it forgets their order; everything else of the head it
returns.  `reads_header` says so exactly: the bytes read are the layout of what is returned.
-/

namespace NTD97

open Guard Wire

namespace Gguf

/-- The letters `GGUF`, and the version that is read. -/
def ggufMagic : Bytes := [71, 71, 85, 70]
def ggufVersion : UInt32 := 3
/-- The alignment of a file that does not state one. -/
def ggufDefaultAlignment : UInt32 := 32
/-- The limits of the reader. -/
def maxMetadataEntries : ℕ := 100000
def maxTensors : ℕ := 1000000
def maxArrayElements : ℕ := 16000000
def maxStringBytes : ℕ := 64 * 1024 * 1024
def maxDims : ℕ := 4

/-- Reading a part of a file. -/
abbrev Decoder := Get GgufError

/-- Writing a part of a file, as the layout has it. -/
abbrev Encoder := Put GgufError Unit

/-! ## Values

A value is read by its type; an array by that of its elements, which cannot be arrays. -/

def i8 : Decoder Int8 := do return (← u8).toInt8
def i16 : Decoder Int16 := do return (← u16).toInt16
def i64 : Decoder Int64 := do return (← u64).toInt64

/-- A block of at most `cap` bytes behind its length. -/
def cappedBlock (cap : ℕ) : Decoder Bytes := do
  let len ← usize
  refuse (cap < len) .limitExceeded
  take len

/-- A text, its length in eight bytes. -/
def string : Decoder String := do
  let bytes ← cappedBlock maxStringBytes
  text bytes

/-- The type of a code. -/
def valueTypeOf : UInt32 → Except GgufError GgufValueType
  | 0 => .ok .uint8
  | 1 => .ok .int8
  | 2 => .ok .uint16
  | 3 => .ok .int16
  | 4 => .ok .uint32
  | 5 => .ok .int32
  | 6 => .ok .float32
  | 7 => .ok .bool
  | 8 => .ok .string
  | 9 => .ok .array
  | 10 => .ok .uint64
  | 11 => .ok .int64
  | 12 => .ok .float64
  | other => .error (.unsupportedValueType other)

/-- Four bytes that name a type. -/
def valueType : Decoder GgufValueType := do
  let raw ← u32
  valueTypeOf raw

/-- A value that is not an array; the elements of an array are such values. -/
def parsePlain : GgufValueType → Decoder GgufValue
  | .uint8 => do return .uint8 (← u8)
  | .int8 => do return .int8 (← i8)
  | .uint16 => do return .uint16 (← u16)
  | .int16 => do return .int16 (← i16)
  | .uint32 => do return .uint32 (← u32)
  | .int32 => do return .int32 (← i32)
  | .float32 => do return .float32 (← u32)
  | .bool => do return .bool (← boolean GgufError.invalidBool)
  | .string => do return .string (← string)
  | .array => throw .invalidArrayType
  | .uint64 => do return .uint64 (← u64)
  | .int64 => do return .int64 (← i64)
  | .float64 => do return .float64 (← u64)

/-- The elements of an array, of one type. -/
def elements (elementType : GgufValueType) : Decoder (List GgufValue) := do
  let count ← usize
  refuse (maxArrayElements < count) .limitExceeded
  getN (parsePlain elementType) count

/-- An array: the type of its elements, their number, then they. -/
def parseArray : Decoder GgufValue := do
  let elementType ← valueType
  refuse (elementType = .array) .invalidArrayType
  let values ← elements elementType
  return .array elementType values

/-- A value of a type that is known already. -/
def parseValue (ty : GgufValueType) : Decoder GgufValue :=
  if ty = .array then parseArray else parsePlain ty

/-! ## The head of a file

Metadata, then tensor infos, then padding up to the alignment that the metadata state. -/

/-- A value behind its type. -/
def typedValue : Decoder GgufValue := do
  let ty ← valueType
  parseValue ty

/-- The metadata after those of `metadata`. -/
def parseMetadata : ℕ → BTreeMap String GgufValue → Decoder (BTreeMap String GgufValue)
  | 0, metadata => return metadata
  | n + 1, metadata => do
    let key ← string
    refuse (key = "" ∨ key ∈ metadata) (.duplicateMetadata key)
    let value ← typedValue
    parseMetadata n (metadata.insert key value)

/-- `is_power_of_two`, which holds of no zero. -/
def IsPowerOfTwo (n : ℕ) : Prop := n = 2 ^ Nat.log2 n

instance (n : ℕ) : Decidable (IsPowerOfTwo n) := inferInstanceAs (Decidable (_ = _))

/-- The alignment is a power of two. -/
def alignmentOf (metadata : BTreeMap String GgufValue) : Except GgufError UInt32 := do
  let alignment ← match metadata["general.alignment"]? with
    | some value => okOr value.asU32 .invalidAlignment
    | none => pure ggufDefaultAlignment
  refuse (alignment = 0 ∨ ¬ IsPowerOfTwo alignment.toNat) .invalidAlignment
  return alignment

/-- A dimension, not zero. -/
def dimension : Decoder UInt64 := do
  let dimension ← u64
  refuse (dimension = 0) .invalidTensor
  return dimension

/-- One to four dimensions. -/
def dimensions : Decoder (List UInt64) := do
  let dims ← u32
  refuse (dims.toNat = 0 ∨ maxDims < dims.toNat) .invalidTensor
  getN dimension dims.toNat

/-- A tensor's entry behind its name. -/
def tensorInfo (alignment : UInt32) (name : String) : Decoder GgufTensorInfo := do
  let dimensions ← dimensions
  let ggmlType ← u32
  let dataOffset ← u64
  refuse (dataOffset.toNat % alignment.toNat ≠ 0) .invalidTensorAlignment
  return { name, dimensions, ggmlType, dataOffset }

/-- The tensors after those of `names`. -/
def parseTensors (alignment : UInt32) : ℕ → List String → Decoder (List GgufTensorInfo)
  | 0, _ => return []
  | n + 1, names => do
    let name ← string
    refuse (name = "" ∨ name ∈ names) (.duplicateTensor name)
    let info ← tensorInfo alignment name
    let infos ← parseTensors alignment n (name :: names)
    return info :: infos

/-- Metadata, alignment and tensors. -/
abbrev Head := BTreeMap String GgufValue × UInt32 × List GgufTensorInfo

/-- Magic, version, counts, metadata and tensor infos. -/
def header : Decoder Head := do
  let magic ← take 4
  refuse (magic ≠ ggufMagic) .invalidMagic
  let version ← u32
  refuse (version ≠ ggufVersion) (.unsupportedVersion version)
  let tensorCount ← usize
  let metadataCount ← usize
  refuse (maxTensors < tensorCount ∨ maxMetadataEntries < metadataCount) .limitExceeded
  let metadata ← parseMetadata metadataCount ∅
  let alignment ← alignmentOf metadata
  let tensors ← parseTensors alignment tensorCount []
  return (metadata, alignment, tensors)

/-- The next multiple of the alignment, where it fits. -/
def alignUp (value alignment : UInt64) : Except GgufError UInt64 := do
  refuse (alignment = 0 ∨ ¬ IsPowerOfTwo alignment.toNat) .invalidAlignment
  let sum ← okOr (checkedAdd64 value (alignment - 1)) .overflow
  return sum &&& ~~~ (alignment - 1)

/-- The data of a tensor starts within the file. -/
def checkStart (dataOffset fileLen : UInt64) (tensor : GgufTensorInfo) : Except GgufError Unit := do
  let absolute ← okOr (checkedAdd64 dataOffset tensor.dataOffset) .overflow
  refuse (fileLen < absolute) .truncated

end Gguf

open Gguf

/-- `parse`: the data of every tensor starts inside the file. -/
def parseGguf (bytes : Bytes) : Except GgufError GgufModel := do
  let ((metadata, alignment, tensors), rest) ← header.run bytes
  let offset ← lenU64 (bytes.length - rest.length)
  let dataOffset ← alignUp offset alignment.toUInt64
  let fileLen ← lenU64 bytes.length
  refuse (fileLen < dataOffset) .truncated
  tensors.forM (checkStart dataOffset fileLen)
  let model : GgufModel := {
    version := ggufVersion
    alignment, metadata, tensors, dataOffset, fileLen }
  let _ ← model.architecture
  let _ ← model.tokenizer
  return model

namespace Gguf

/-! ## The layout

The format as an encoder, which the source does not have; it says what a well-formed head is. -/

/-- The code of a type. -/
def typeCode : GgufValueType → UInt32
  | .uint8 => 0
  | .int8 => 1
  | .uint16 => 2
  | .int16 => 3
  | .uint32 => 4
  | .int32 => 5
  | .float32 => 6
  | .bool => 7
  | .string => 8
  | .array => 9
  | .uint64 => 10
  | .int64 => 11
  | .float64 => 12

/-- The type of a value. -/
def typeOf : GgufValue → GgufValueType
  | .uint8 _ => .uint8
  | .int8 _ => .int8
  | .uint16 _ => .uint16
  | .int16 _ => .int16
  | .uint32 _ => .uint32
  | .int32 _ => .int32
  | .float32 _ => .float32
  | .bool _ => .bool
  | .string _ => .string
  | .array .. => .array
  | .uint64 _ => .uint64
  | .int64 _ => .int64
  | .float64 _ => .float64

/-- A block behind its length; one above the cap has no layout. -/
def putBlock (cap : ℕ) (b : Bytes) : Encoder := do
  refuse (cap < b.length) .limitExceeded
  pushUsize b.length
  tell b

/-- A text, its length in front. -/
def putString (s : String) : Encoder := putBlock maxStringBytes (utf8 s)

/-- A value that is no array. -/
def putPlain : GgufValue → Encoder
  | .uint8 v => pushU8 v
  | .int8 v => pushU8 v.toUInt8
  | .uint16 v => pushU16 v
  | .int16 v => pushU16 v.toUInt16
  | .uint32 v => pushU32 v
  | .int32 v => pushI32 v
  | .float32 v => pushU32 v
  | .bool v => pushBool v
  | .string v => putString v
  | .array .. => throw .invalidArrayType
  | .uint64 v => pushU64 v
  | .int64 v => pushU64 v.toUInt64
  | .float64 v => pushU64 v

/-- An element of an array, which has the type of the array's elements. -/
def putElement (elementType : GgufValueType) (value : GgufValue) : Encoder := do
  refuse (typeOf value ≠ elementType) .invalidArrayType
  putPlain value

/-- The elements of an array. -/
def putElements (elementType : GgufValueType) (values : List GgufValue) : Encoder := do
  refuse (maxArrayElements < values.length) .limitExceeded
  pushUsize values.length
  values.forM (putElement elementType)

/-- An array behind the type and the number of its elements. -/
def putArray (elementType : GgufValueType) (values : List GgufValue) : Encoder := do
  refuse (elementType = .array) .invalidArrayType
  pushU32 (typeCode elementType)
  putElements elementType values

/-- A value without its type. -/
def putValue : GgufValue → Encoder
  | .array elementType values => putArray elementType values
  | value => putPlain value

/-- A value behind its type. -/
def putTyped (value : GgufValue) : Encoder := do
  pushU32 (typeCode (typeOf value))
  putValue value

/-- Key and value. -/
def putEntry (entry : String × GgufValue) : Encoder := do
  putString entry.1
  putTyped entry.2

/-- The number of dimensions, then they. -/
def putDimensions (dimensions : List UInt64) : Encoder := do
  pushU32 (← lenU32 (ε := GgufError) dimensions.length)
  dimensions.forM pushU64

/-- A tensor info behind its name. -/
def putInfo (info : GgufTensorInfo) : Encoder := do
  putDimensions info.dimensions
  pushU32 info.ggmlType
  pushU64 info.dataOffset

/-- Name and info. -/
def putTensor (info : GgufTensorInfo) : Encoder := do
  putString info.name
  putInfo info

/-- **The layout of a head**: its entries in their order, then its tensors. -/
def putHeader (entries : List (String × GgufValue)) (tensors : List GgufTensorInfo) : Encoder := do
  tell ggufMagic
  pushU32 ggufVersion
  pushUsize tensors.length
  pushUsize entries.length
  entries.forM putEntry
  tensors.forM putTensor

/-! ## Reading the layout

Each part of the layout is read back by the parser's function for it. -/

/-- Bytes behind their length are read back. -/
theorem codec_block (cap : ℕ) : Codec (putBlock cap) (cappedBlock cap) := by
  refine Inverse.refused (P := fun _ => True) (inverse_usize.checked List.length ?_ fun n _ hn => ?_)
  · exact fun b hb => ⟨trivial, hb.2⟩
  · exact (inverse_take n).domain fun b => by
      rw [true_and, and_iff_right_of_imp]
      rintro rfl
      exact hn

/-- A text is read back. -/
theorem codec_string : Codec putString string := inverse_utf8 (codec_block maxStringBytes)

theorem codec_i8 : Codec (fun v : Int8 => (pushU8 v.toUInt8 : Encoder)) i8 :=
  inverse_u8.last Int8.toUInt8 (fun _ _ => ⟨trivial, rfl⟩) fun _ _ => ⟨trivial, rfl⟩

theorem codec_i16 : Codec (fun v : Int16 => (pushU16 v.toUInt16 : Encoder)) i16 :=
  inverse_u16.last Int16.toUInt16 (fun _ _ => ⟨trivial, rfl⟩) fun _ _ => ⟨trivial, rfl⟩

theorem codec_i64 : Codec (fun v : Int64 => (pushU64 v.toUInt64 : Encoder)) i64 :=
  inverse_u64.last Int64.toUInt64 (fun _ _ => ⟨trivial, rfl⟩) fun _ _ => ⟨trivial, rfl⟩

/-- The code of a type and its inverse. -/
theorem valueTypeOf_eq_ok {raw : UInt32} {ty : GgufValueType} :
    valueTypeOf raw = .ok ty ↔ typeCode ty = raw := by
  constructor
  · intro h
    unfold valueTypeOf at h
    split at h <;> cases h <;> rfl
  · rintro rfl
    cases ty <;> rfl

/-- A type is read back. -/
theorem codec_valueType : Codec (fun ty => (pushU32 (typeCode ty) : Encoder)) valueType := by
  refine inverse_u32.resolve typeCode (fun ty _ => ⟨trivial, valueTypeOf_eq_ok.2 rfl⟩) ?_
  exact fun raw ty _ h => ⟨trivial, valueTypeOf_eq_ok.1 h⟩

/-- **A value that is not an array**, by its type. -/
theorem inverse_plain (ty : GgufValueType) :
    Inverse (fun v => True ∧ typeOf v = ty) putPlain (parsePlain ty) := by
  cases ty with
  | uint8 => exact kind₁ inverse_u8 GgufValue.uint8 (fun _ => rfl) fun a => by cases a <;> simp [typeOf]
  | int8 => exact kind₁ codec_i8 GgufValue.int8 (fun _ => rfl) fun a => by cases a <;> simp [typeOf]
  | uint16 =>
    exact kind₁ inverse_u16 GgufValue.uint16 (fun _ => rfl) fun a => by cases a <;> simp [typeOf]
  | int16 => exact kind₁ codec_i16 GgufValue.int16 (fun _ => rfl) fun a => by cases a <;> simp [typeOf]
  | uint32 =>
    exact kind₁ inverse_u32 GgufValue.uint32 (fun _ => rfl) fun a => by cases a <;> simp [typeOf]
  | int32 =>
    exact kind₁ inverse_i32 GgufValue.int32 (fun _ => rfl) fun a => by cases a <;> simp [typeOf]
  | float32 =>
    exact kind₁ inverse_u32 GgufValue.float32 (fun _ => rfl) fun a => by cases a <;> simp [typeOf]
  | bool =>
    exact kind₁ (inverse_boolean GgufError.invalidBool) GgufValue.bool (fun _ => rfl)
      fun a => by cases a <;> simp [typeOf]
  | string =>
    exact kind₁ codec_string GgufValue.string (fun _ => rfl) fun a => by cases a <;> simp [typeOf]
  | array =>
    refine ⟨fun {a b} ha hb => ?_, fun hr => absurd hr not_reads_throw⟩
    cases a with
    | array => exact absurd hb not_emits_throw
    | _ => exact nomatch ha.2
  | uint64 =>
    exact kind₁ inverse_u64 GgufValue.uint64 (fun _ => rfl) fun a => by cases a <;> simp [typeOf]
  | int64 => exact kind₁ codec_i64 GgufValue.int64 (fun _ => rfl) fun a => by cases a <;> simp [typeOf]
  | float64 =>
    exact kind₁ inverse_u64 GgufValue.float64 (fun _ => rfl) fun a => by cases a <;> simp [typeOf]

/-- A value that is no array is read back. -/
theorem codec_element (ty : GgufValueType) : Codec (putElement ty) (parsePlain ty) :=
  ((inverse_plain ty).domain fun v => by rw [not_not]).refused

/-- The elements of an array are read back. -/
theorem codec_elements (ty : GgufValueType) : Codec (putElements ty) (elements ty) := by
  refine Inverse.refused (P := fun _ => True) (inverse_usize.checked List.length ?_ fun n _ hn => ?_)
  · exact fun l hl => ⟨trivial, hl.2⟩
  · exact (inverse_getN (codec_element ty) n).domain fun l => by
      simp only [true_and, implies_true]
      exact and_iff_right_of_imp fun hl => hl ▸ hn

/-- An array is read back. -/
theorem inverse_array : Inverse (fun v => True ∧ typeOf v = .array) putValue parseArray := by
  have hpair : Inverse (fun p : GgufValueType × List GgufValue => True)
      (fun p => putArray p.1 p.2) (valueType >>= fun ty => refuse (ty = .array) .invalidArrayType >>=
        fun _ => elements ty >>= fun l => pure (ty, l)) := by
    refine Inverse.refused (P := fun _ => True) (codec_valueType.checked Prod.fst ?_ fun ty _ hty => ?_)
    · exact fun p hp => ⟨trivial, hp.2⟩
    · refine (show Inverse _ _ (elements ty >>= fun l => pure (ty, l)) from
        (codec_elements ty).last Prod.snd ?_ ?_).congr ?_ rfl
      · rintro ⟨_, l⟩ ⟨-, rfl⟩
        exact ⟨trivial, rfl⟩
      · exact fun l _ => ⟨⟨⟨trivial, hty⟩, rfl⟩, rfl⟩
      · rintro ⟨_, l⟩ ⟨-, rfl⟩
        rfl
  refine hpair.variant (fun p => GgufValue.array p.1 p.2) (fun _ => rfl) ?_ fun v => ?_
  · simp only [parseArray, bind_assoc, pure_bind]
  · cases v <;> simp [typeOf]

/-- A value is read back, given its type. -/
theorem inverse_value (ty : GgufValueType) :
    Inverse (fun v => True ∧ typeOf v = ty) putValue (parseValue ty) := by
  by_cases hty : ty = .array
  · rw [parseValue, if_pos hty, hty]
    exact inverse_array
  · rw [parseValue, if_neg hty]
    refine (inverse_plain ty).congr (fun v hv => ?_) rfl
    cases v with
    | array => exact absurd hv.2.symm hty
    | _ => rfl

/-- A value behind its type is read back. -/
theorem codec_typedValue : Codec putTyped typedValue :=
  codec_valueType.field typeOf (fun _ _ => trivial) fun ty _ => inverse_value ty

/-! ## The metadata

Entries are read in the order of the file, and no key may come twice. -/

/-- Entries with keys of their own, none of them blank or taken. -/
def NewEntries (metadata : BTreeMap String GgufValue) (entries : List (String × GgufValue)) : Prop :=
  (entries.map Prod.fst).Nodup ∧ ∀ e ∈ entries, e.1 ≠ "" ∧ e.1 ∉ metadata

/-- The metadata with further entries. -/
def insertEntries (metadata : BTreeMap String GgufValue) (entries : List (String × GgufValue)) :
    BTreeMap String GgufValue :=
  entries.foldl (fun m e => m.insert e.1 e.2) metadata

section Metadata

variable {metadata : BTreeMap String GgufValue} {entries : List (String × GgufValue)}

/-- The first of the new entries, and the others after it. -/
theorem newEntries_cons {e : String × GgufValue} : NewEntries metadata (e :: entries) ↔
    ¬ (e.1 = "" ∨ e.1 ∈ metadata) ∧ NewEntries (metadata.insert e.1 e.2) entries := by
  simp only [NewEntries, List.map_cons, List.nodup_cons, List.forall_mem_cons, not_or,
    Std.ExtTreeMap.mem_insert, Std.compare_eq_iff_eq]
  constructor
  · rintro ⟨⟨hne, hnodup⟩, he, hentries⟩
    refine ⟨he, hnodup, fun x hx => ⟨(hentries x hx).1, ?_, (hentries x hx).2⟩⟩
    exact fun h => hne (h ▸ List.mem_map_of_mem hx)
  · rintro ⟨he, hnodup, hentries⟩
    refine ⟨⟨fun h => ?_, hnodup⟩, he, fun x hx => ⟨(hentries x hx).1, (hentries x hx).2.2⟩⟩
    obtain ⟨x, hx, hkey⟩ := List.mem_map.1 h
    exact (hentries x hx).2.1 hkey.symm

/-- The entries are what is looked up. -/
theorem getElem?_insertEntries {k : String} {v : GgufValue} :
    ∀ {entries : List (String × GgufValue)} {metadata : BTreeMap String GgufValue},
    NewEntries metadata entries →
    ((insertEntries metadata entries)[k]? = some v ↔ (k, v) ∈ entries ∨ metadata[k]? = some v)
  | [], _, _ => by simp [insertEntries]
  | e :: entries, metadata, h => by
      obtain ⟨he, hentries⟩ := newEntries_cons.1 h
      rw [insertEntries, List.foldl_cons, ← insertEntries, getElem?_insertEntries hentries,
        List.mem_cons, Std.ExtTreeMap.getElem?_insert]
      by_cases hk : e.1 = k
      · subst hk
        have hother : (e.1, v) ∉ entries := fun hmem => (hentries.2 _ hmem).2
          (Std.ExtTreeMap.mem_insert_self)
        have hold : metadata[e.1]? = none := Std.ExtTreeMap.getElem?_eq_none (not_or.1 he).2
        rw [if_pos Std.ReflCmp.compare_self, hold]
        simp only [hother, false_or, or_false, Option.some.injEq, reduceCtorEq]
        exact ⟨fun h => by rw [← h], fun h => (Prod.mk.inj h).2.symm⟩
      · have hne : ¬ (k, v) = e := fun h => hk (h ▸ rfl)
        rw [if_neg (mt Std.compare_eq_iff_eq.1 hk), or_iff_right hne]

/-- **The metadata read** are the entries of a layout, by their keys. -/
theorem reads_parseMetadata : ∀ {n : ℕ} {metadata final : BTreeMap String GgufValue}
    {bs rest : Bytes}, Reads (parseMetadata n metadata) bs final rest ↔ ∃ entries,
      entries.length = n ∧ NewEntries metadata entries ∧ final = insertEntries metadata entries ∧
      ∃ b, Emits (entries.forM putEntry) b ∧ bs = b ++ rest
  | 0, metadata, final, bs, rest => by
      rw [parseMetadata, reads_pure]
      constructor
      · rintro ⟨rfl, rfl⟩
        exact ⟨[], rfl, ⟨List.nodup_nil, fun _ h => nomatch h⟩, rfl, [], emits_pure.2 rfl, rfl⟩
      · rintro ⟨entries, hlen, -, rfl, b, hb, rfl⟩
        obtain rfl := List.length_eq_zero_iff.1 hlen
        rw [emits_pure.1 hb]
        exact ⟨rfl, rfl⟩
  | n + 1, metadata, final, bs, rest => by
      simp only [parseMetadata, reads_bind, reads_refuse, codec_string.reads_iff,
        codec_typedValue.reads_iff, reads_parseMetadata, true_and]
      constructor
      · rintro ⟨key, _, ⟨b₁, h₁, rfl⟩, _, _, ⟨hkey, rfl⟩, value, _, ⟨b₂, h₂, rfl⟩, entries, rfl, hentries,
          rfl, b₃, h₃, rfl⟩
        refine ⟨(key, value) :: entries, rfl, newEntries_cons.2 ⟨hkey, hentries⟩, rfl,
          (b₁ ++ b₂) ++ b₃, emits_bind.2 ⟨b₁ ++ b₂, emits_bind.2 ⟨b₁, h₁, b₂, h₂, rfl⟩, b₃, h₃, rfl⟩,
          ?_⟩
        simp only [List.append_assoc]
      · rintro ⟨_ | ⟨⟨key, value⟩, entries⟩, hlen, hentries, rfl, b, hb, rfl⟩
        · exact nomatch hlen
        · obtain ⟨hkey, hentries⟩ := newEntries_cons.1 hentries
          obtain ⟨_, hentry, b₃, h₃, rfl⟩ := emits_bind.1 hb
          obtain ⟨b₁, h₁, b₂, h₂, rfl⟩ := emits_bind.1 hentry
          rw [List.append_assoc, List.append_assoc]
          exact ⟨key, _, ⟨b₁, h₁, rfl⟩, (), _, ⟨hkey, rfl⟩, value, _, ⟨b₂, h₂, rfl⟩, entries,
            Nat.succ.inj hlen, hentries, rfl, b₃, h₃, rfl⟩

end Metadata

/-! ## The tensors

Infos are read in the order of the file, and no name may come twice. -/

/-- One to four positive dimensions, and an offset at the alignment. -/
structure Shaped (alignment : UInt32) (info : GgufTensorInfo) : Prop where
  positive : ∀ d ∈ info.dimensions, d ≠ 0
  rank : ¬ (info.dimensions.length = 0 ∨ maxDims < info.dimensions.length)
  aligned : info.dataOffset.toNat % alignment.toNat = 0

/-- Tensors with names of their own, none of them blank or taken. -/
def NewTensors (alignment : UInt32) (names : List String) (infos : List GgufTensorInfo) : Prop :=
  (infos.map GgufTensorInfo.name).Nodup ∧
    ∀ t ∈ infos, (t.name ≠ "" ∧ t.name ∉ names) ∧ Shaped alignment t

/-- A dimension is read back. -/
theorem inverse_dimension : Inverse (fun d => d ≠ 0) (pushU64 (ε := GgufError)) dimension :=
  inverse_u64.lastChecked id (fun _ hd => ⟨⟨trivial, hd⟩, rfl⟩) fun _ _ hd => ⟨hd, rfl⟩

/-- The dimensions are read back. -/
theorem inverse_dimensions : Inverse (fun l : List UInt64 => (∀ d ∈ l, d ≠ 0) ∧
    ¬ (l.length = 0 ∨ maxDims < l.length)) putDimensions dimensions :=
  inverse_countChecked List.length (c := fun n => n = 0 ∨ maxDims < n)
    (inverse_getN inverse_dimension)

/-- A tensor info is read back behind its name. -/
theorem inverse_info (alignment : UInt32) (name : String) :
    Inverse (fun t => Shaped alignment t ∧ t.name = name) putInfo (tensorInfo alignment name) := by
  refine inverse_dimensions.field GgufTensorInfo.dimensions (fun t ht => ⟨ht.1.positive, ht.1.rank⟩)
    fun l hl => ?_
  refine inverse_u32.field GgufTensorInfo.ggmlType (fun _ _ => trivial) fun ty _ => ?_
  refine inverse_u64.lastChecked GgufTensorInfo.dataOffset ?_ fun offset _ hoffset =>
    ⟨⟨⟨⟨⟨hl.1, hl.2, not_not.1 hoffset⟩, rfl⟩, rfl⟩, rfl⟩, rfl⟩
  rintro ⟨_, _, _, _⟩ ⟨⟨⟨ht, rfl⟩, rfl⟩, rfl⟩
  exact ⟨⟨trivial, not_not.2 ht.aligned⟩, rfl⟩

section Tensors

variable {alignment : UInt32} {names : List String} {infos : List GgufTensorInfo}

/-- The first of the new infos, and the others after it. -/
theorem newTensors_cons {t : GgufTensorInfo} : NewTensors alignment names (t :: infos) ↔
    ¬ (t.name = "" ∨ t.name ∈ names) ∧ Shaped alignment t ∧
      NewTensors alignment (t.name :: names) infos := by
  rw [NewTensors, NewTensors, List.map_cons, List.nodup_cons, List.forall_mem_cons]
  simp only [not_or, List.mem_cons]
  constructor
  · rintro ⟨⟨hne, hnodup⟩, ⟨ht, hshaped⟩, hinfos⟩
    refine ⟨ht, hshaped, hnodup, fun x hx => ⟨⟨(hinfos x hx).1.1, ?_, (hinfos x hx).1.2⟩,
      (hinfos x hx).2⟩⟩
    exact fun h => hne (h ▸ List.mem_map_of_mem hx)
  · rintro ⟨ht, hshaped, hnodup, hinfos⟩
    refine ⟨⟨fun h => ?_, hnodup⟩, ⟨ht, hshaped⟩, fun x hx => ⟨⟨(hinfos x hx).1.1,
      (hinfos x hx).1.2.2⟩, (hinfos x hx).2⟩⟩
    obtain ⟨x, hx, hname⟩ := List.mem_map.1 h
    exact (hinfos x hx).1.2.1 hname

/-- **The tensors read** are those of a layout, in their order. -/
theorem reads_parseTensors : ∀ {n : ℕ} {names : List String} {infos : List GgufTensorInfo}
    {bs rest : Bytes}, Reads (parseTensors alignment n names) bs infos rest ↔
      infos.length = n ∧ NewTensors alignment names infos ∧
      ∃ b, Emits (infos.forM putTensor) b ∧ bs = b ++ rest
  | 0, names, infos, bs, rest => by
      rw [parseTensors, reads_pure]
      constructor
      · rintro ⟨rfl, rfl⟩
        exact ⟨rfl, ⟨List.nodup_nil, fun _ h => nomatch h⟩, [], emits_pure.2 rfl, rfl⟩
      · rintro ⟨hlen, -, b, hb, rfl⟩
        obtain rfl := List.length_eq_zero_iff.1 hlen
        rw [emits_pure.1 hb]
        exact ⟨rfl, rfl⟩
  | n + 1, names, infos, bs, rest => by
      simp only [parseTensors, reads_bind, reads_refuse, codec_string.reads_iff,
        (inverse_info alignment _).reads_iff, reads_parseTensors, reads_pure, true_and]
      constructor
      · rintro ⟨_, _, ⟨b₁, h₁, rfl⟩, _, _, ⟨hname, rfl⟩, info, _, ⟨⟨hshaped, rfl⟩, b₂, h₂, rfl⟩,
          infos, _, ⟨rfl, hinfos, b₃, h₃, rfl⟩, rfl, rfl⟩
        refine ⟨rfl, newTensors_cons.2 ⟨hname, hshaped, hinfos⟩, (b₁ ++ b₂) ++ b₃,
          emits_bind.2 ⟨b₁ ++ b₂, emits_bind.2 ⟨b₁, h₁, b₂, h₂, rfl⟩, b₃, h₃, rfl⟩, ?_⟩
        simp only [List.append_assoc]
      · rintro ⟨hlen, hinfos, b, hb, rfl⟩
        cases infos with
        | nil => exact nomatch hlen
        | cons info infos =>
          obtain ⟨hname, hshaped, hinfos⟩ := newTensors_cons.1 hinfos
          obtain ⟨_, hinfo, b₃, h₃, rfl⟩ := emits_bind.1 hb
          obtain ⟨b₁, h₁, b₂, h₂, rfl⟩ := emits_bind.1 hinfo
          rw [List.append_assoc, List.append_assoc]
          exact ⟨info.name, _, ⟨b₁, h₁, rfl⟩, (), _, ⟨hname, rfl⟩, info, _,
            ⟨⟨hshaped, rfl⟩, b₂, h₂, rfl⟩, infos, _, ⟨Nat.succ.inj hlen, hinfos, b₃, h₃, rfl⟩, rfl,
            rfl⟩

end Tensors

/-! ## The head

Counts, metadata and infos together. -/

/-- **A document**: its entries and tensors are within the limits, and its metadata give the
alignment. -/
structure Document (entries : List (String × GgufValue)) (alignment : UInt32)
    (tensors : List GgufTensorInfo) : Prop where
  keys : NewEntries ∅ entries
  aligned : alignmentOf (insertEntries ∅ entries) = .ok alignment
  names : NewTensors alignment [] tensors
  limits : ¬ (maxTensors < tensors.length ∨ maxMetadataEntries < entries.length)

/-- **The head read** is the layout of a document. -/
theorem reads_header {head : Head} {bs rest : Bytes} : Reads header bs head rest ↔ ∃ entries b,
    Document entries head.2.1 head.2.2 ∧ head.1 = insertEntries ∅ entries ∧
      Emits (putHeader entries head.2.2) b ∧ bs = b ++ rest := by
  obtain ⟨metadata, alignment, tensors⟩ := head
  simp only [header, reads_bind, reads_refuse, reads_lift, reads_pure, (inverse_take 4).reads_iff,
    inverse_u32.reads_iff, inverse_usize.reads_iff, reads_parseMetadata, reads_parseTensors,
    true_and, not_not, Prod.mk.injEq]
  constructor
  · rintro ⟨_, _, ⟨-, b₁, h₁, rfl⟩, _, _, ⟨rfl, rfl⟩, _, _, ⟨b₂, h₂, rfl⟩, _, _, ⟨rfl, rfl⟩,
      _, _, ⟨b₃, h₃, rfl⟩, _, _, ⟨b₄, h₄, rfl⟩, _, _, ⟨hlimits, rfl⟩, _, _,
      ⟨entries, rfl, hentries, rfl, b₅, h₅, rfl⟩, _, _, ⟨halignment, rfl⟩, _, _,
      ⟨rfl, htensors, b₆, h₆, rfl⟩, ⟨rfl, rfl, rfl⟩, rfl⟩
    refine ⟨entries, b₁ ++ (b₂ ++ (b₃ ++ (b₄ ++ (b₅ ++ b₆)))),
      ⟨hentries, halignment, htensors, hlimits⟩, rfl, ?_, by simp only [List.append_assoc]⟩
    exact emits_bind.2 ⟨b₁, h₁, _, emits_bind.2 ⟨b₂, h₂, _, emits_bind.2 ⟨b₃, h₃, _,
      emits_bind.2 ⟨b₄, h₄, _, emits_bind.2 ⟨b₅, h₅, b₆, h₆, rfl⟩, rfl⟩, rfl⟩, rfl⟩, rfl⟩
  · rintro ⟨entries, _, ⟨hentries, halignment, htensors, hlimits⟩, rfl, hb, rfl⟩
    simp only [putHeader, emits_bind] at hb
    obtain ⟨b₁, h₁, _, ⟨b₂, h₂, _, ⟨b₃, h₃, _, ⟨b₄, h₄, _, ⟨b₅, h₅, b₆, h₆, rfl⟩, rfl⟩, rfl⟩,
      rfl⟩, rfl⟩ := hb
    simp only [List.append_assoc]
    exact ⟨ggufMagic, _, ⟨rfl, b₁, h₁, rfl⟩, (), _, ⟨rfl, rfl⟩, ggufVersion, _, ⟨b₂, h₂, rfl⟩, (), _,
      ⟨rfl, rfl⟩, _, _, ⟨b₃, h₃, rfl⟩, _, _, ⟨b₄, h₄, rfl⟩, (), _, ⟨hlimits, rfl⟩, _, _,
      ⟨entries, rfl, hentries, rfl, b₅, h₅, rfl⟩, _, _, ⟨halignment, rfl⟩, _, _,
      ⟨rfl, htensors, b₆, h₆, rfl⟩, ⟨rfl, rfl, rfl⟩, rfl⟩

/-! ## Where the data starts

Behind the head, at the next multiple of the alignment. -/

/-- The mask of a power of two clears the digits below it. -/
theorem toNat_and_not {x a : UInt64} {k : ℕ} (ha : a.toNat = 2 ^ k) :
    (x &&& ~~~ (a - 1)).toNat = x.toNat / 2 ^ k * 2 ^ k := by
  have hk : 2 ^ k < 2 ^ 64 := ha ▸ a.toNat_lt
  have hpos : 0 < 2 ^ k := Nat.two_pow_pos k
  have hone : (a - 1).toNat = 2 ^ k - 1 := by
    rw [UInt64.toNat_sub_of_le _ _ (UInt64.le_iff_toNat_le.2 (by rw [ha]; exact hpos)), ha]
    rfl
  have hnot : (~~~ (a - 1)).toNat = 2 ^ 64 - (2 ^ k - 1 + 1) := by
    rw [UInt64.toNat_not, hone]
    simp only [UInt64.size]
    omega
  rw [UInt64.toNat_and, hnot]
  refine Nat.eq_of_testBit_eq fun i => ?_
  rw [Nat.testBit_and, Nat.testBit_two_pow_sub_succ (by omega), Nat.testBit_two_pow_sub_one,
    Nat.testBit_mul_two_pow, Nat.testBit_div_two_pow]
  by_cases hi : k ≤ i
  · have hx : x.toNat.testBit i = true → i < 64 := fun h => by
      by_contra hge
      have hlt : x.toNat < 2 ^ i := Nat.lt_of_lt_of_le x.toNat_lt
        (Nat.pow_le_pow_right (by decide) (Nat.not_lt.1 hge))
      exact Bool.false_ne_true ((Nat.testBit_lt_two_pow hlt).symm.trans h)
    cases hbit : x.toNat.testBit i with
    | false => simp [hi, hbit]
    | true => simp [hi, hbit, hx hbit, Nat.not_lt.2 hi]
  · simp [hi, Nat.not_le.1 hi]

/-- The alignment is the one stated, or the default. -/
theorem alignmentOf_eq_ok {metadata : BTreeMap String GgufValue} {alignment : UInt32} :
    alignmentOf metadata = .ok alignment ↔
      ((∃ v, metadata["general.alignment"]? = some v ∧ v.asU32 = some alignment) ∨
        (metadata["general.alignment"]? = none ∧ alignment = ggufDefaultAlignment)) ∧
      ∃ k, alignment.toNat = 2 ^ k := by
  have hpower : ¬ (alignment = 0 ∨ ¬ IsPowerOfTwo alignment.toNat) ↔
      ∃ k, alignment.toNat = 2 ^ k := by
    rw [not_or, not_not]
    constructor
    · rintro ⟨-, h⟩
      exact ⟨_, h⟩
    · rintro ⟨k, hk⟩
      refine ⟨fun h => ?_, ?_⟩
      · rw [h] at hk
        exact absurd hk.symm (Nat.two_pow_pos k).ne'
      · rw [IsPowerOfTwo, hk, Nat.log2_two_pow]
  have hchecked {a : UInt32} : (¬ (a = 0 ∨ ¬ IsPowerOfTwo a.toNat) ∧ a = alignment) ↔
      a = alignment ∧ ∃ k, alignment.toNat = 2 ^ k := by
    rw [and_comm]
    refine and_congr_right ?_
    rintro rfl
    exact hpower
  unfold alignmentOf
  cases metadata["general.alignment"]? with
  | none => simp only [bind_eq_ok, exists_unit, refuse_eq_ok, pure_eq_ok, hchecked]; simp [eq_comm]
  | some v =>
    simp only [bind_eq_ok, exists_unit, refuse_eq_ok, pure_eq_ok, okOr_eq_ok, hchecked]
    simp

/-- **Aligning up** gives the least multiple of the alignment that is large enough. -/
theorem alignUp_eq_ok {value alignment r : UInt64} {k : ℕ} (ha : alignment.toNat = 2 ^ k) :
    alignUp value alignment = .ok r ↔
      IsLeast {d | alignment.toNat ∣ d ∧ value.toNat ≤ d} r.toNat := by
  have hk : 2 ^ k < 2 ^ 64 := ha ▸ alignment.toNat_lt
  have hpos : 0 < 2 ^ k := Nat.two_pow_pos k
  have hzero : ¬ (alignment = 0 ∨ ¬ IsPowerOfTwo (2 ^ k)) := by
    rw [not_or, not_not, IsPowerOfTwo, Nat.log2_two_pow]
    refine ⟨fun h => ?_, rfl⟩
    rw [h] at ha
    exact absurd ha.symm hpos.ne'
  have hone : (alignment - 1).toNat = 2 ^ k - 1 := by
    rw [UInt64.toNat_sub_of_le _ _ (UInt64.le_iff_toNat_le.2 (by rw [ha]; exact hpos)), ha]
    rfl
  have hleast : IsLeast {d | 2 ^ k ∣ d ∧ value.toNat ≤ d}
      ((value.toNat + (2 ^ k - 1)) / 2 ^ k * 2 ^ k) := by
    refine ⟨⟨Nat.dvd_mul_left .., ?_⟩, ?_⟩
    · have h := Nat.lt_div_mul_add (a := value.toNat + (2 ^ k - 1)) hpos
      omega
    · rintro d ⟨⟨c, rfl⟩, hle⟩
      rw [Nat.mul_comm]
      refine Nat.mul_le_mul_left _ (Nat.lt_succ_iff.1 ?_)
      rw [Nat.div_lt_iff_lt_mul hpos, Nat.succ_mul, Nat.mul_comm]
      omega
  simp only [alignUp, bind_eq_ok, exists_unit, refuse_eq_ok, okOr_eq_ok, pure_eq_ok,
    checkedAdd64_eq_some, hone]
  rw [ha]
  constructor
  · rintro ⟨-, sum, hsum, rfl⟩
    rw [toNat_and_not ha, hsum]
    exact hleast
  · intro hr
    have hvalue := hr.unique hleast
    have hfits : value.toNat + (2 ^ k - 1) < 2 ^ 64 := by
      -- the machine words are a multiple of the alignment, so the next multiple is at most their number
      have hdvd : 2 ^ k ∣ 2 ^ 64 := Nat.pow_dvd_pow 2
        (Nat.lt_succ_iff.1 (Nat.lt_succ_of_lt ((Nat.pow_lt_pow_iff_right (by decide)).1 hk)))
      have hmul := Nat.lt_div_mul_add (a := value.toNat + (2 ^ k - 1)) hpos
      have hlt : (value.toNat + (2 ^ k - 1)) / 2 ^ k * 2 ^ k < 2 ^ 64 := hvalue ▸ r.toNat_lt
      obtain ⟨c, hc⟩ := hdvd
      rw [hc, Nat.mul_comm] at hlt
      have hquot := Nat.lt_of_mul_lt_mul_left hlt
      have hle : ((value.toNat + (2 ^ k - 1)) / 2 ^ k + 1) * 2 ^ k ≤ 2 ^ 64 := by
        rw [hc, Nat.mul_comm]
        exact Nat.mul_le_mul_left _ hquot
      rw [Nat.succ_mul] at hle
      omega
    refine ⟨hzero, value + (alignment - 1), ?_, ?_⟩
    · rw [UInt64.toNat_add, hone, Nat.mod_eq_of_lt hfits]
    · rw [← UInt64.toNat_inj, toNat_and_not ha, UInt64.toNat_add, hone, Nat.mod_eq_of_lt hfits, hvalue]

/-- The data of a tensor starts inside the file. -/
theorem checkStart_eq_ok {dataOffset fileLen : UInt64} {tensor : GgufTensorInfo} :
    checkStart dataOffset fileLen tensor = .ok () ↔
      dataOffset.toNat + tensor.dataOffset.toNat ≤ fileLen.toNat := by
  simp only [checkStart, bind_eq_ok, okOr_eq_ok, refuse_eq_ok, checkedAdd64_eq_some,
    UInt64.not_lt, UInt64.le_iff_toNat_le]
  constructor
  · rintro ⟨absolute, habsolute, hle⟩
    rwa [habsolute] at hle
  · intro hle
    have hlt : dataOffset.toNat + tensor.dataOffset.toNat < 2 ^ 64 :=
      Nat.lt_of_le_of_lt hle fileLen.toNat_lt
    refine ⟨dataOffset + tensor.dataOffset, ?_, ?_⟩
    · rw [UInt64.toNat_add, Nat.mod_eq_of_lt hlt]
    · rw [UInt64.toNat_add, Nat.mod_eq_of_lt hlt]
      exact hle

/-- **What the parser answers**, in terms of the document at the front of the file. -/
theorem parseGguf_eq_ok {bytes : Bytes} {model : GgufModel} : parseGguf bytes = .ok model ↔
    ∃ entries b rest, Document entries model.alignment model.tensors ∧
      model.metadata = insertEntries ∅ entries ∧ Emits (putHeader entries model.tensors) b ∧
      bytes = b ++ rest ∧ model.version = ggufVersion ∧
      IsLeast {d | model.alignment.toNat ∣ d ∧ b.length ≤ d} model.dataOffset.toNat ∧
      model.fileLen.toNat = bytes.length ∧ model.dataOffset ≤ model.fileLen ∧
      (∀ t ∈ model.tensors,
        model.dataOffset.toNat + t.dataOffset.toNat ≤ model.fileLen.toNat) ∧
      (∃ name, model.architecture = .ok name) ∧ ∃ tokenizer, model.tokenizer = .ok tokenizer := by
  have hhead {head : Head} {rest : Bytes} : header.run bytes = .ok (head, rest) ↔ _ := reads_header
  simp only [parseGguf, bind_eq_ok, exists_unit, refuse_eq_ok, forM_eq_ok, pure_eq_ok, Prod.exists,
    lenU64_eq_ok, hhead, checkStart_eq_ok, UInt64.not_lt]
  have hpower {entries : List (String × GgufValue)} {alignment : UInt32} {tensors : List GgufTensorInfo}
      (h : Document entries alignment tensors) : ∃ k, alignment.toUInt64.toNat = 2 ^ k := by
    rw [UInt32.toNat_toUInt64]
    exact (alignmentOf_eq_ok.1 h.aligned).2
  constructor
  · rintro ⟨metadata, alignment, tensors, rest, ⟨entries, b, hdocument, rfl, hb, rfl⟩, offset, hoffset,
      dataOffset, halign, fileLen, hfileLen, hle, htensors, name, hname, tokenizer, htokenizer, rfl⟩
    obtain ⟨k, hk⟩ := hpower hdocument
    rw [alignUp_eq_ok hk, UInt32.toNat_toUInt64, hoffset, List.length_append,
      Nat.add_sub_cancel] at halign
    exact ⟨entries, b, rest, hdocument, rfl, hb, rfl, rfl, halign, hfileLen, hle, htensors,
      ⟨name, hname⟩, tokenizer, htokenizer⟩
  · obtain ⟨version, alignment, metadata, tensors, dataOffset, fileLen⟩ := model
    rintro ⟨entries, b, rest, hdocument, rfl, hb, rfl, rfl, halign, hfileLen, hle, htensors,
      ⟨name, hname⟩, tokenizer, htokenizer⟩
    obtain ⟨k, hk⟩ := hpower hdocument
    have hlen : (UInt64.ofNat b.length).toNat = b.length := by
      refine UInt64.toNat_ofNat_of_lt' ?_
      have hlt := fileLen.toNat_lt
      rw [hfileLen, List.length_append] at hlt
      simp only [UInt64.size]
      omega
    refine ⟨_, alignment, tensors, rest, ⟨entries, b, hdocument, rfl, hb, rfl⟩,
      UInt64.ofNat b.length, ?_, dataOffset, ?_, fileLen, hfileLen, hle, htensors, name, hname,
      tokenizer, htokenizer, rfl⟩
    · rw [hlen, List.length_append, Nat.add_sub_cancel]
    · rw [alignUp_eq_ok hk, UInt32.toNat_toUInt64, hlen]
      exact halign

/-! ## Documents in their own words

The same without the parser: entries that fit their fields, an alignment, tensors in the file. -/

/-- A value that is not an array, within the parser's limits. -/
def FitsPlain : GgufValue → Prop
  | .string s => (utf8 s).length ≤ maxStringBytes
  | .array .. => False
  | _ => True

/-- A value within the parser's limits; an array's elements are of its type and no arrays. -/
def Fits : GgufValue → Prop
  | .array elementType values => elementType ≠ .array ∧ values.length ≤ maxArrayElements ∧
      ∀ v ∈ values, typeOf v = elementType ∧ FitsPlain v
  | v => FitsPlain v

theorem fits_string {s : String} : Fits (.string s) ↔ (utf8 s).length ≤ maxStringBytes := Iff.rfl

/-- **A well-formed document**: distinct keys and names, positive dimensions, aligned offsets,
everything within the limits. -/
structure WellFormed (entries : List (String × GgufValue)) (alignment : UInt32)
    (tensors : List GgufTensorInfo) : Prop where
  distinct : (entries.map Prod.fst).Nodup
  keyed : ∀ e ∈ entries, e.1 ≠ "" ∧ (utf8 e.1).length ≤ maxStringBytes ∧ Fits e.2
  chosen : (∃ v, ("general.alignment", v) ∈ entries ∧ v.asU32 = some alignment) ∨
    (∀ v, ("general.alignment", v) ∉ entries) ∧ alignment = ggufDefaultAlignment
  power : ∃ k, alignment.toNat = 2 ^ k
  named : (tensors.map GgufTensorInfo.name).Nodup
  shaped : ∀ t ∈ tensors, t.name ≠ "" ∧ (utf8 t.name).length ≤ maxStringBytes ∧
    1 ≤ t.dimensions.length ∧ t.dimensions.length ≤ maxDims ∧ (∀ d ∈ t.dimensions, d ≠ 0) ∧
    alignment.toNat ∣ t.dataOffset.toNat
  counts : tensors.length ≤ maxTensors ∧ entries.length ≤ maxMetadataEntries

/-- The model that a document stands for. -/
def documentModel (entries : List (String × GgufValue)) (alignment : UInt32)
    (tensors : List GgufTensorInfo) (dataOffset fileLen : UInt64) : GgufModel where
  version := ggufVersion
  alignment := alignment
  metadata := insertEntries ∅ entries
  tensors := tensors
  dataOffset := dataOffset
  fileLen := fileLen

section WellFormed

variable {entries : List (String × GgufValue)} {alignment : UInt32} {tensors : List GgufTensorInfo}

theorem getElem?_document {k : String} {v : GgufValue} (h : NewEntries ∅ entries) :
    (insertEntries ∅ entries)[k]? = some v ↔ (k, v) ∈ entries := by
  rw [getElem?_insertEntries h, Std.ExtTreeMap.getElem?_empty]
  simp

theorem WellFormed.document (h : WellFormed entries alignment tensors) :
    Document entries alignment tensors := by
  have hkeys : NewEntries ∅ entries :=
    ⟨h.distinct, fun e he => ⟨(h.keyed e he).1, Std.ExtTreeMap.not_mem_empty⟩⟩
  refine ⟨hkeys, alignmentOf_eq_ok.2 ⟨?_, h.power⟩, ⟨h.named, fun t ht => ?_⟩, ?_⟩
  · rcases h.chosen with ⟨v, hv, hword⟩ | ⟨hnone, hdefault⟩
    · exact .inl ⟨v, (getElem?_document hkeys).2 hv, hword⟩
    · refine .inr ⟨Option.eq_none_iff_forall_ne_some.2 fun v hv => ?_, hdefault⟩
      exact hnone v ((getElem?_document hkeys).1 hv)
  · obtain ⟨hname, -, hlow, hhigh, hpositive, haligned⟩ := h.shaped t ht
    exact ⟨⟨hname, List.not_mem_nil⟩, hpositive, by omega, Nat.eq_zero_of_dvd_of_lt
      ((Nat.dvd_mod_iff (dvd_refl _)).2 haligned) (Nat.mod_lt _ (by
        obtain ⟨k, hk⟩ := h.power
        exact hk ▸ Nat.two_pow_pos k))⟩
  · have hcounts := h.counts
    omega

/-- A number in eight bytes. -/
theorem writes_usize {n : ℕ} (h : n < 2 ^ 64) : Writes (pushUsize n : Encoder) 8 :=
  Writes.lift_bind (if_pos h) (Writes.le 8 _)

theorem writes_refused {c : Prop} [Decidable c] {e : GgufError} {x : Encoder} {n : ℕ} (hc : ¬ c)
    (h : Writes x n) : Writes (do refuse c e; x) n := by
  obtain ⟨b, hb, hlen⟩ := h
  exact ⟨b, emits_refuse_bind.2 ⟨hc, hb⟩, hlen⟩

/-- A text within the limit. -/
theorem writes_string {s : String} (h : (utf8 s).length ≤ maxStringBytes) :
    Writes (putString s) (8 + (utf8 s).length) :=
  writes_refused (Nat.not_lt.2 h)
    ((writes_usize (Nat.lt_of_le_of_lt h (by decide))).bind (Writes.raw _))

/-- A value within the limits, no array. -/
theorem writes_plain {v : GgufValue} (h : FitsPlain v) : ∃ n, Writes (putPlain v) n := by
  cases v with
  | string s => exact ⟨_, writes_string h⟩
  | array => exact h.elim
  | _ => exact ⟨_, Writes.le _ _⟩

/-- Encoders that write something for each element write something for the list. -/
theorem writes_forM {α : Type} (put : α → Encoder) (l : List α)
    (h : ∀ a ∈ l, ∃ n, Writes (put a) n) : ∃ n, Writes (l.forM put) n := by
  choose! width hwidth using h
  exact ⟨_, Writes.forM hwidth⟩

/-- A value within the limits. -/
theorem writes_value {v : GgufValue} (h : Fits v) : ∃ n, Writes (putValue v) n := by
  cases v with
  | array elementType values =>
    obtain ⟨hty, hlen, hvalues⟩ := h
    obtain ⟨n, hn⟩ := writes_forM (putElement elementType) values fun v hv => by
      obtain ⟨htv, hfits⟩ := hvalues v hv
      obtain ⟨n, hn⟩ := writes_plain hfits
      exact ⟨n, writes_refused (not_not.2 htv) hn⟩
    exact ⟨_, writes_refused hty ((Writes.le 4 _).bind (writes_refused (Nat.not_lt.2 hlen)
      ((writes_usize (Nat.lt_of_le_of_lt hlen (by decide))).bind hn)))⟩
  | string s => exact ⟨_, writes_string h⟩
  | _ => exact ⟨_, Writes.le _ _⟩

/-- A tensor info within the limits. -/
theorem writes_tensor {t : GgufTensorInfo} (hname : (utf8 t.name).length ≤ maxStringBytes)
    (hrank : t.dimensions.length ≤ maxDims) : ∃ n, Writes (putTensor t) n := by
  obtain ⟨n, hn⟩ := writes_forM pushU64 t.dimensions fun d _ => ⟨8, Writes.le 8 _⟩
  have hdims : Writes (putDimensions t.dimensions) (4 + n) :=
    Writes.lift_bind (lenU32_ofNat (Nat.lt_of_le_of_lt hrank (by decide))) ((Writes.le 4 _).bind hn)
  exact ⟨_, (writes_string hname).bind (hdims.bind ((Writes.le 4 _).bind (Writes.le 8 _)))⟩

/-- **Every well-formed document has a layout.** -/
theorem WellFormed.written (h : WellFormed entries alignment tensors) :
    ∃ b, written (putHeader entries tensors) = .ok b := by
  obtain ⟨n, hn⟩ := writes_forM putEntry entries fun e he => by
    obtain ⟨-, hlen, hfits⟩ := h.keyed e he
    obtain ⟨n, hn⟩ := writes_value hfits
    exact ⟨_, (writes_string hlen).bind ((Writes.le 4 _).bind hn)⟩
  obtain ⟨m, hm⟩ := writes_forM putTensor tensors fun t ht =>
    writes_tensor (h.shaped t ht).2.1 (h.shaped t ht).2.2.2.1
  have htensors : tensors.length < 2 ^ 64 := Nat.lt_of_le_of_lt h.counts.1 (by decide)
  have hentries : entries.length < 2 ^ 64 := Nat.lt_of_le_of_lt h.counts.2 (by decide)
  have hheader : Writes (putHeader entries tensors) (4 + (4 + (8 + (8 + (n + m))))) :=
    (Writes.raw ggufMagic).bind ((Writes.le 4 _).bind
      ((writes_usize htensors).bind ((writes_usize hentries).bind (hn.bind hm))))
  obtain ⟨b, hb, -⟩ := hheader
  exact ⟨b, written_eq_ok.2 hb⟩

end WellFormed

/-! ## The parser is exact

It accepts a file exactly if there is a document of which the file is the layout. -/

/-- **The parser is exact**: the padded layout of a well-formed document is read back as that
document, its data starting at the least multiple of the alignment behind the head; and a file that
is accepted begins with the layout of what was read, for some order of the entries. -/
theorem parseGguf_exact :
    (∀ entries alignment tensors, WellFormed entries alignment tensors →
      ∃ head, written (putHeader entries tensors) = .ok head ∧
        ∀ (pad data : Bytes) (dataOffset fileLen : UInt64),
          IsLeast {d | alignment.toNat ∣ d ∧ head.length ≤ d} dataOffset.toNat →
          (head ++ pad).length = dataOffset.toNat →
          (head ++ pad ++ data).length = fileLen.toNat →
          (∀ t ∈ tensors, t.dataOffset.toNat ≤ data.length) →
          let model := documentModel entries alignment tensors dataOffset fileLen
          (∃ name, model.architecture = .ok name) → (∃ t, model.tokenizer = .ok t) →
          parseGguf (head ++ pad ++ data) = .ok model ∧
            ∀ k v, model.metadata[k]? = some v ↔ (k, v) ∈ entries) ∧
    ∀ bytes model, parseGguf bytes = .ok model → ∃ entries head rest,
      (entries.map Prod.fst).Nodup ∧ (∀ k v, model.metadata[k]? = some v ↔ (k, v) ∈ entries) ∧
      model.version = ggufVersion ∧ written (putHeader entries model.tensors) = .ok head ∧
      bytes = head ++ rest ∧
      IsLeast {d | model.alignment.toNat ∣ d ∧ head.length ≤ d} model.dataOffset.toNat := by
  constructor
  · intro entries alignment tensors h
    obtain ⟨head, hhead⟩ := h.written
    refine ⟨head, hhead, ?_⟩
    intro pad data dataOffset fileLen hleast hstart hlen hdata model harch htok
    refine ⟨?_, fun k v => getElem?_document h.document.keys⟩
    rw [List.append_assoc]
    refine parseGguf_eq_ok.2 ⟨entries, head, pad ++ data, h.document, rfl, written_eq_ok.1 hhead,
      rfl, rfl, hleast, ?_, ?_, fun t ht => ?_, harch, htok⟩
    · rw [← List.append_assoc]
      exact hlen.symm
    · rw [UInt64.le_iff_toNat_le]
      change dataOffset.toNat ≤ fileLen.toNat
      rw [← hlen, ← hstart, @List.length_append _ _ data]
      exact Nat.le_add_right ..
    · change dataOffset.toNat + _ ≤ fileLen.toNat
      rw [← hlen, ← hstart, @List.length_append _ _ data]
      exact Nat.add_le_add_left (hdata t ht) _
  · intro bytes model h
    obtain ⟨entries, head, rest, hdocument, hmetadata, hhead, hbytes, hversion, hleast, -⟩ :=
      parseGguf_eq_ok.1 h
    refine ⟨entries, head, rest, hdocument.keys.1, fun k v => ?_, hversion,
      written_eq_ok.2 hhead, hbytes, hleast⟩
    rw [hmetadata]
    exact getElem?_document hdocument.keys

/-! ## A file

One tensor behind one entry. -/

/-- A vocabulary of one token, and one tensor of one element. -/
def sampleEntries : List (String × GgufValue) := [
  ("general.architecture", .string "llama"),
  ("tokenizer.ggml.model", .string "llama"),
  ("tokenizer.ggml.tokens", .array .string [.string "a"])]

def sampleTensors : List GgufTensorInfo := [{
  name := "output.weight"
  dimensions := [1]
  ggmlType := 0
  dataOffset := 0 }]

def sampleHead : Bytes := (written (putHeader sampleEntries sampleTensors)).toOption.getD []

def samplePad : Bytes := List.replicate ((32 - sampleHead.length % 32) % 32) 0

theorem wellFormed_sample : WellFormed sampleEntries 32 sampleTensors where
  distinct := by decide +kernel
  keyed := by
    rw [sampleEntries]
    simp only [List.forall_mem_cons, fits_string]
    refine ⟨⟨by decide +kernel, by decide +kernel, by decide +kernel⟩,
      ⟨by decide +kernel, by decide +kernel, by decide +kernel⟩,
      ⟨by decide +kernel, by decide +kernel, by decide, by decide +kernel, fun v hv => ?_⟩,
      fun _ h => nomatch h⟩
    obtain rfl := List.mem_singleton.1 hv
    refine ⟨rfl, ?_⟩
    have h : (utf8 "a").length ≤ maxStringBytes := by decide +kernel
    exact h
  chosen := by
    refine .inr ⟨fun v hv => ?_, rfl⟩
    have hkey : "general.alignment" ∈ sampleEntries.map Prod.fst := List.mem_map_of_mem hv
    exact absurd hkey (by decide +kernel)
  power := ⟨5, by decide +kernel⟩
  named := by decide +kernel
  shaped := by
    rw [sampleTensors]
    simp only [List.forall_mem_cons]
    exact ⟨⟨by decide +kernel, by decide +kernel, by decide, by decide +kernel,
      ⟨by decide, fun _ h => nomatch h⟩, dvd_zero _⟩, fun _ h => nomatch h⟩
  counts := by decide +kernel

theorem next_multiple (c : ℕ) (h : 213 ≤ (32 : UInt32).toNat * c) :
    224 ≤ (32 : UInt32).toNat * c := by
  have hword : (32 : UInt32).toNat = 32 := rfl
  rw [hword] at h ⊢
  omega

/-- The sample file is read back. -/
theorem parseGguf_sample :
    parseGguf (sampleHead ++ samplePad ++ [0, 0, 128, 63]) =
      .ok (documentModel sampleEntries 32 sampleTensors 224 228) := by
  obtain ⟨head, hhead, hparse⟩ := parseGguf_exact.1 _ _ _ wellFormed_sample
  have hsample : written (putHeader sampleEntries sampleTensors) = .ok sampleHead :=
    Guard.eq_ok_getD (by decide +kernel) _
  obtain rfl : sampleHead = head := Except.ok.inj (hsample.symm.trans hhead)
  have hlen : sampleHead.length = 213 := by decide +kernel
  have hstart : (sampleHead ++ samplePad).length = (224 : UInt64).toNat := by decide +kernel
  have hend : (sampleHead ++ samplePad ++ [0, 0, 128, 63]).length = (228 : UInt64).toNat := by
    decide +kernel
  have hleast : IsLeast {d | (32 : UInt32).toNat ∣ d ∧ sampleHead.length ≤ d}
      (224 : UInt64).toNat := by
    rw [hlen]
    refine ⟨⟨⟨7, by decide +kernel⟩, by decide +kernel⟩, ?_⟩
    rintro d ⟨⟨c, rfl⟩, hle⟩
    exact next_multiple c hle
  have harch : (documentModel sampleEntries 32 sampleTensors 224
      228).architecture.toOption.isSome := by
    decide +kernel
  have htok : (documentModel sampleEntries 32 sampleTensors 224
      228).tokenizer.toOption.isSome := by
    decide +kernel
  exact (hparse samplePad _ 224 228 hleast hstart hend (by decide +kernel)
    (exists_eq_ok harch) (exists_eq_ok htok)).1

end Gguf

end NTD97
