import Mathlib
import NTD97.Capsule
import NTD97.Lib.Flags

/-!
# Capsule/Canonical — which files are capsules

    write ──▸ header ▪ manifest ▪ index ▪ laid payloads        read ◂── the same, any gaps

`Sealed` says what a file is that the reader accepts.  The writer produces such files with zeros in
the gaps between the payloads, so what it writes is read back; an accepted file of the current
contract is what the writer writes exactly if its gaps are zero.
-/

namespace NTD97

open Guard Wire Layout

/-! ## The laws of header, manifest and index -/

namespace Capsule

theorem any_ne_zero_iff {b : Bytes} {n : ℕ} (hlen : b.length = n) :
    ¬ b.any (· ≠ 0) = true ↔ b = List.replicate n 0 := by
  rw [List.eq_replicate_iff, List.any_eq_true]
  simp [hlen]

theorem codec_header : Codec encodeHeader header := by
  refine (inverse_take 6).checked (fun _ => ncc97Magic) (fun _ _ => ⟨rfl, not_not.2 rfl⟩)
    fun _ _ hmagic => ?_
  refine inverse_u16.checked (fun _ => 112) (fun _ _ => ⟨trivial, not_not.2 rfl⟩)
    fun _ _ hlen => ?_
  refine inverse_u16.field (fun h : HeaderFields => h.contract.capsule.major) (fun _ _ => trivial)
    fun _ _ => ?_
  refine inverse_u16.field (fun h : HeaderFields => h.contract.capsule.minor) (fun _ _ => trivial)
    fun _ _ => ?_
  refine inverse_u16.field (fun h : HeaderFields => h.contract.ir.major) (fun _ _ => trivial)
    fun _ _ => ?_
  refine inverse_u16.field (fun h : HeaderFields => h.contract.ir.minor) (fun _ _ => trivial)
    fun _ _ => ?_
  refine inverse_u32.field (fun _ => 0) (fun _ _ => trivial) fun flags _ => ?_
  refine inverse_u64.field HeaderFields.manifestOffset (fun _ _ => trivial) fun _ _ => ?_
  refine inverse_u64.field HeaderFields.manifestLen (fun _ _ => trivial) fun _ _ => ?_
  refine inverse_u64.field HeaderFields.indexOffset (fun _ _ => trivial) fun _ _ => ?_
  refine inverse_u64.field HeaderFields.indexLen (fun _ _ => trivial) fun _ _ => ?_
  refine inverse_u64.field HeaderFields.payloadOffset (fun _ _ => trivial) fun _ _ => ?_
  refine inverse_u32.field HeaderFields.chunkCount (fun _ _ => trivial) fun _ _ => ?_
  refine inverse_u32.field (fun _ => 0) (fun _ _ => trivial) fun reserved _ => ?_
  refine (inverse_block 32).field HeaderFields.rootHash (fun _ _ => trivial) fun _ _ => ?_
  refine (inverse_take 12).lastChecked (fun _ => List.replicate 12 0) ?_ ?_
  · rintro ⟨⟩ ⟨⟨⟨⟨⟨⟨⟨⟨⟨⟨⟨⟨⟨⟨⟨-, -⟩, -⟩, rfl⟩, rfl⟩, rfl⟩, rfl⟩, rfl⟩, rfl⟩, rfl⟩, rfl⟩, rfl⟩, rfl⟩,
      rfl⟩, rfl⟩, rfl⟩
    exact ⟨⟨rfl, by decide⟩, rfl⟩
  · rintro tail hlen hzero
    obtain ⟨hflags, hreserved, htail⟩ := not_or.1 hzero |>.imp_right not_or.1
    refine ⟨?_, ((any_ne_zero_iff hlen).1 htail).symm⟩
    simp_all

theorem codec_capsuleKind : Codec (fun k => pushU8 (kindByte k)) capsuleKind := by
  refine inverse_coded fun n k => ⟨fun h => ?_, ?_⟩
  · unfold kindOf at h
    split at h <;> cases h <;> rfl
  · rintro rfl
    cases k <;> rfl

theorem codec_sectionKind : Codec (fun k => pushU16 (sectionCode k)) sectionKind := by
  refine inverse_u16.resolve sectionCode (fun k _ => ⟨trivial, ?_⟩) fun n k _ h => ⟨trivial, ?_⟩
  · cases k <;> rfl
  · unfold sectionOf at h
    split at h <;> cases h <;> rfl

theorem inverse_baseRoot {flags : UInt8} (hflags : flags &&& ~~~ manifestFlagHasBase = 0) :
    Inverse (fun o : Option Digest => baseFlag o = flags) (fun o => tell (baseBytes o).bytes)
      (baseRoot flags) := by
  refine (inverse_block 32).resolve baseBytes ?_ ?_
  · rintro o rfl
    refine ⟨trivial, ?_⟩
    cases o with
    | none => rfl
    | some root => exact if_pos (show manifestFlagHasBase &&& manifestFlagHasBase ≠ 0 by decide)
  · intro root o _ h
    unfold baseRootOf at h
    rcases Flags.uint8_eq_zero_or_one hflags with rfl | rfl
    · rw [if_neg (by decide)] at h
      split at h
      · exact nomatch h
      · next hzero =>
        obtain rfl := Except.ok.inj h
        obtain ⟨bytes, hlen⟩ := root
        obtain rfl := (any_ne_zero_iff hlen).1 hzero
        exact ⟨rfl, rfl⟩
    · rw [if_pos (by decide)] at h
      obtain rfl := Except.ok.inj h
      exact ⟨rfl, rfl⟩

theorem codec_manifest : Codec encodeManifest manifest := by
  refine codec_capsuleKind.field ManifestFields.kind (fun _ _ => trivial) fun _ _ => ?_
  refine inverse_u8.field (fun m : ManifestFields => baseFlag m.baseRoot) (fun _ _ => trivial)
    fun flags _ => ?_
  refine (inverse_take 6).checked (fun _ => List.replicate 6 0) (fun m h => ⟨rfl, ?_⟩)
    fun reserved hlen hzero => ?_
  · rw [← h.2, baseFlag]
    split <;> decide
  refine (inverse_block 16).field ManifestFields.capsuleId (fun _ _ => trivial) fun _ _ => ?_
  refine (inverse_baseRoot (not_not.1 (not_or.1 hzero).1)).last ManifestFields.baseRoot ?_ ?_
  · rintro ⟨⟩ ⟨⟨⟨⟨-, rfl⟩, hflags⟩, -⟩, rfl⟩
    exact ⟨hflags, rfl⟩
  · intro o hflags
    have hreserved := (any_ne_zero_iff hlen).1 (not_or.1 hzero).2
    exact ⟨⟨⟨⟨⟨trivial, rfl⟩, hflags⟩, hreserved.symm⟩, rfl⟩, rfl⟩

theorem codec_entry : Codec encodeEntry entry := by
  refine codec_sectionKind.field IndexEntry.kind (fun _ _ => trivial) fun _ _ => ?_
  refine inverse_u16.field IndexEntry.flags (fun _ _ => trivial) fun _ _ => ?_
  refine inverse_u32.checked (fun _ => 0) (fun _ _ => ⟨trivial, not_not.2 rfl⟩)
    fun _ _ hreserved => ?_
  refine inverse_u64.field IndexEntry.logicalLen (fun _ _ => trivial) fun _ _ => ?_
  refine inverse_u64.field IndexEntry.offset (fun _ _ => trivial) fun _ _ => ?_
  refine (inverse_block 32).last IndexEntry.hash ?_ ?_
  · rintro ⟨⟩ ⟨⟨⟨⟨⟨-, rfl⟩, rfl⟩, -⟩, rfl⟩, rfl⟩
    exact ⟨trivial, rfl⟩
  · intro _ _
    exact ⟨⟨⟨⟨⟨⟨trivial, rfl⟩, rfl⟩, (not_not.1 hreserved).symm⟩, rfl⟩, rfl⟩, rfl⟩

theorem length_header {fields : HeaderFields} {b : Bytes} (h : Emits (encodeHeader fields) b) :
    b.length = headerLen := by
  simp only [encodeHeader, pushU16, pushU32, pushU64, emits_bind, emits_tell, exists_eq_left,
    exists_eq_left'] at h
  rw [h]
  simp only [List.length_append, length_leBytes, fields.rootHash.length_eq, List.length_replicate]
  rfl

theorem length_manifest {fields : ManifestFields} {b : Bytes}
    (h : Emits (encodeManifest fields) b) : b.length = manifestLen := by
  simp only [encodeManifest, pushU8, emits_bind, emits_tell, exists_eq_left, exists_eq_left'] at h
  rw [h]
  simp only [List.length_append, length_leBytes, fields.capsuleId.length_eq,
    (baseBytes fields.baseRoot).length_eq, List.length_replicate]
  rfl

theorem length_entry {entry : IndexEntry} {b : Bytes} (h : Emits (encodeEntry entry) b) :
    b.length = indexEntryLen := by
  simp only [encodeEntry, pushU16, pushU32, pushU64, emits_bind, emits_tell, exists_eq_left,
    exists_eq_left'] at h
  rw [h]
  simp only [List.length_append, length_leBytes, entry.hash.length_eq]
  rfl

theorem length_index : ∀ {entries : List IndexEntry} {b : Bytes}, Emits (encodeIndex entries) b →
    b.length = entries.length * indexEntryLen
  | [], b, h => by
      rw [emits_pure.1 h]
      rfl
  | entry :: entries, b, h => by
      obtain ⟨b₁, h₁, b₂, h₂, rfl⟩ := emits_bind.1 h
      rw [List.length_append, length_entry h₁, length_index h₂, List.length_cons, Nat.add_mul]
      omega

/-! ## Offsets in 64 bits -/

theorem checkedUsize_eq_ok {n r : ℕ} : checkedUsize n = .ok r ↔ n < 2 ^ 64 ∧ n = r := by
  simp only [checkedUsize, bind_eq_ok, exists_unit, refuse_eq_ok, pure_eq_ok, not_le]

theorem checkedAlignUp_eq_ok {n r : ℕ} :
    checkedAlignUp n = .ok r ↔ n + 7 < 2 ^ 64 ∧ alignUp alignment n = r := by
  simp only [checkedAlignUp, bind_eq_ok, checkedUsize_eq_ok, pure_eq_ok]
  constructor
  · rintro ⟨_, ⟨h, -⟩, hr⟩
    exact ⟨h, hr⟩
  · rintro ⟨h, hr⟩
    exact ⟨_, ⟨h, rfl⟩, hr⟩

theorem checkedRange_eq_ok {total stop : ℕ} {offset len : UInt64} :
    checkedRange total offset len = .ok stop ↔
      (offset.toNat + len.toNat < 2 ^ 64 ∧ stop ≤ total) ∧ offset.toNat + len.toNat = stop := by
  simp only [checkedRange, bind_eq_ok, exists_unit, refuse_eq_ok, pure_eq_ok, checkedUsize_eq_ok,
    not_lt]
  constructor
  · rintro ⟨_, ⟨hlt, rfl⟩, hle, rfl⟩
    exact ⟨⟨hlt, hle⟩, rfl⟩
  · rintro ⟨⟨hlt, hle⟩, rfl⟩
    exact ⟨_, ⟨hlt, rfl⟩, hle, rfl⟩

/-- The length of what stands before the payloads. -/
def headLen (count : ℕ) : ℕ := indexOffset + count * indexEntryLen

theorem alignUp_headLen (count : ℕ) : alignUp alignment (headLen count) = headLen count := by
  refine alignUp_of_dvd (by decide) ⟨21 + count * 7, ?_⟩
  simp only [headLen, indexOffset, headerLen, manifestLen, indexEntryLen, alignment]
  omega

theorem payloadOffset_eq {count : ℕ} (h : count < 2 ^ 32) :
    payloadOffset count = .ok (count * indexEntryLen, headLen count) := by
  simp only [payloadOffset, bind_eq_ok, checkedUsize_eq_ok, checkedAlignUp_eq_ok, pure_eq_ok]
  have hlen : headLen count = 168 + count * 56 := rfl
  refine ⟨_, ⟨?_, rfl⟩, _, ⟨?_, rfl⟩, _, ⟨?_, alignUp_headLen count⟩, rfl⟩
  · simp only [indexEntryLen]
    omega
  · change headLen count < _
    omega
  · change headLen count + 7 < _
    omega

/-- A part of a file between two offsets. -/
theorem slice_append {a b c : Bytes} {start stop : ℕ} (hstart : a.length = start)
    (hstop : start + b.length = stop) : slice (a ++ (b ++ c)) start stop = b := by
  rw [slice, List.drop_left' hstart]
  exact List.take_left' (by omega)

/-- A part of a file that ends before the file does. -/
theorem exists_slice {bytes : Bytes} {start stop : ℕ} (hle : start ≤ stop)
    (hstop : stop ≤ bytes.length) : ∃ a c, bytes = a ++ (slice bytes start stop ++ c) ∧
      a.length = start ∧ (slice bytes start stop).length = stop - start := by
  refine ⟨bytes.take start, bytes.drop stop, ?_, ?_, ?_⟩
  · have hdrop : bytes.drop stop = (bytes.drop start).drop (stop - start) := by
      rw [List.drop_drop, Nat.add_sub_cancel' hle]
    rw [slice, hdrop, List.take_append_drop, List.take_append_drop]
  · exact List.length_take_of_le (by omega)
  · rw [slice, List.length_take, List.length_drop]
    omega

/-! ## The chunks and their index -/

/-- The payloads that stand in the file. -/
def payloads : List ChunkSpec → List Bytes
  | [] => []
  | ⟨_, .embedded bytes⟩ :: chunks => bytes :: payloads chunks
  | ⟨_, .external ..⟩ :: chunks => payloads chunks

/-- What the index says of chunks whose payloads are laid out behind `pos`. -/
def entriesAt : ℕ → List ChunkSpec → List IndexEntry
  | _, [] => []
  | pos, ⟨kind, .embedded bytes⟩ :: chunks =>
    { kind
      flags := 0
      logicalLen := UInt64.ofNat bytes.length
      offset := UInt64.ofNat (alignUp alignment pos)
      hash := sha256 bytes } :: entriesAt (alignUp alignment pos + bytes.length) chunks
  | pos, ⟨kind, .external logicalLen hash⟩ :: chunks =>
    { kind, flags := chunkFlagExternal, logicalLen, offset := 0, hash } :: entriesAt pos chunks

theorem length_entriesAt : ∀ (pos : ℕ) (chunks : List ChunkSpec),
    (entriesAt pos chunks).length = chunks.length
  | _, [] => rfl
  | _, ⟨_, .embedded _⟩ :: chunks => congrArg (· + 1) (length_entriesAt _ chunks)
  | pos, ⟨_, .external ..⟩ :: chunks => congrArg (· + 1) (length_entriesAt pos chunks)

/-- Every payload ends where the offset of another one fits 64 bits. -/
def Fit (pos : ℕ) (chunks : List ChunkSpec) : Prop :=
  ∀ e ∈ ends alignment pos (payloads chunks), e + 7 < 2 ^ 64

/-- How a reader sees a chunk. -/
def view : ChunkSpec → ChunkView
  | ⟨kind, .embedded bytes⟩ =>
    ⟨kind, UInt64.ofNat bytes.length, sha256 bytes, .embedded bytes⟩
  | ⟨kind, .external logicalLen hash⟩ => ⟨kind, logicalLen, hash, .external⟩

/-- Which kinds of capsules can hold the chunks. -/
def Holds (kind : CapsuleKind) (chunks : List ChunkSpec) : Prop :=
  ¬ (kind = .full ∧ chunks.any fun chunk => CapsuleBuilder.isExternal chunk.source)

theorem holds_nil (kind : CapsuleKind) : Holds kind [] := fun h => Bool.false_ne_true h.2

theorem holds_embedded {kind : CapsuleKind} {section' : SectionKind} {bytes : Bytes}
    {chunks : List ChunkSpec} :
    Holds kind (⟨section', .embedded bytes⟩ :: chunks) ↔ Holds kind chunks := by
  simp [Holds, CapsuleBuilder.isExternal]

theorem holds_external {kind : CapsuleKind} {section' : SectionKind} {len : UInt64} {hash : Digest}
    {chunks : List ChunkSpec} :
    Holds kind (⟨section', .external len hash⟩ :: chunks) ↔ kind ≠ .full ∧ Holds kind chunks := by
  simp only [Holds, List.any_cons, CapsuleBuilder.isExternal, Bool.true_or, and_true]
  exact ⟨fun h => ⟨h, fun h' => h h'.1⟩, fun h => h.1⟩

theorem toNat_eq_iff {v : UInt64} {n : ℕ} (h : n < 2 ^ 64) : v.toNat = n ↔ v = UInt64.ofNat n := by
  constructor
  · rintro rfl
    exact (UInt64.ofNat_toNat).symm
  · rintro rfl
    exact UInt64.toNat_ofNat_of_lt' h

theorem le_alignment (pos : ℕ) : pos ≤ alignUp alignment pos := le_alignUp (by decide) pos

theorem alignUp_lt {e : ℕ} (h : e + 7 < 2 ^ 64) : alignUp alignment e < 2 ^ 64 := by
  have hdiv := Nat.div_mul_le_self (e + (alignment - 1)) alignment
  have hseven : alignment - 1 = 7 := rfl
  rw [alignUp]
  omega

/-- **The writer's loop**: it succeeds if the offsets fit, and computes index and length. -/
theorem layOut_eq_ok : ∀ {chunks : List ChunkSpec} {pos : ℕ} {r : List IndexEntry × ℕ},
    alignUp alignment pos < 2 ^ 64 →
    (CapsuleBuilder.layOut (alignUp alignment pos) pos chunks = .ok r ↔ Fit pos chunks ∧
      (entriesAt pos chunks, extent alignment pos (payloads chunks)) = r)
  | [], pos, r, _ => by
      simp [CapsuleBuilder.layOut, Fit, payloads, ends, extent, entriesAt, pure_eq_ok]
  | ⟨kind, .external len hash⟩ :: chunks, pos, r, hpos => by
      simp only [CapsuleBuilder.layOut, bind_eq_ok, pure_eq_ok, layOut_eq_ok hpos]
      constructor
      · rintro ⟨_, ⟨hfit, rfl⟩, rfl⟩
        exact ⟨hfit, rfl⟩
      · rintro ⟨hfit, rfl⟩
        exact ⟨_, ⟨hfit, rfl⟩, rfl⟩
  | ⟨kind, .embedded bytes⟩ :: chunks, pos, r, hpos => by
      have hmax : max pos (alignUp alignment pos + bytes.length) =
          alignUp alignment pos + bytes.length := by
        have hle := le_alignment pos
        omega
      simp only [CapsuleBuilder.layOut, bind_eq_ok, pure_eq_ok, lenU64_eq_ok, checkedUsize_eq_ok,
        checkedAlignUp_eq_ok, Fit, payloads, ends, List.forall_mem_cons, extent, entriesAt]
      constructor
      · rintro ⟨len, hlen, offset, hoffset, stop, ⟨_, rfl⟩, next, ⟨hfit, rfl⟩, rest, hrest, rfl⟩
        rw [hmax, layOut_eq_ok (alignUp_lt hfit)] at hrest
        obtain ⟨hfits, rfl⟩ := hrest
        rw [toNat_eq_iff (by omega)] at hlen hoffset
        subst hlen
        subst hoffset
        exact ⟨⟨hfit, hfits⟩, rfl⟩
      · rintro ⟨⟨hfit, hfits⟩, rfl⟩
        have hlen : bytes.length < 2 ^ 64 := by omega
        refine ⟨_, UInt64.toNat_ofNat_of_lt' hlen, _, UInt64.toNat_ofNat_of_lt' hpos, _,
          ⟨by omega, rfl⟩, _, ⟨hfit, rfl⟩, (entriesAt _ chunks, extent _ _ (payloads chunks)), ?_,
          rfl⟩
        rw [hmax]
        exact (layOut_eq_ok (alignUp_lt hfit)).2 ⟨hfits, rfl⟩

/-- The file holds the payloads behind `pos`, and an entry for every chunk. -/
structure Read (bytes : Bytes) (kind : CapsuleKind) (pos : ℕ) (entries : List IndexEntry)
    (r : List ChunkView × ℕ) (chunks : List ChunkSpec) (body rest : Bytes) : Prop where
  bytes_eq : bytes.drop pos = body ++ rest
  laid : Laid alignment pos (payloads chunks) body
  holds : Holds kind chunks
  fit : Fit pos chunks
  entries_eq : entries = entriesAt pos chunks
  result : r = (chunks.map view, extent alignment pos (payloads chunks))

theorem readChunks_external {bytes : Bytes} {kind : CapsuleKind} {offset fileLen : ℕ}
    {entry : IndexEntry} {entries : List IndexEntry} {r : List ChunkView × ℕ}
    (hflags : entry.flags = chunkFlagExternal) :
    CapsuleView.readChunks bytes kind offset fileLen (entry :: entries) = .ok r ↔
      entry.offset = 0 ∧ kind ≠ .full ∧ ∃ r',
        CapsuleView.readChunks bytes kind offset fileLen entries = .ok r' ∧
        (⟨entry.kind, entry.logicalLen, entry.hash, .external⟩ :: r'.1, r'.2) = r := by
  have hknown : ¬ chunkFlagExternal &&& ~~~ chunkFlagExternal ≠ 0 := by decide
  have hexternal : chunkFlagExternal &&& chunkFlagExternal ≠ 0 := by decide
  simp only [CapsuleView.readChunks, hflags, bind_eq_ok, exists_unit, refuse_eq_ok, if_pos hexternal,
    pure_eq_ok, hknown, not_false_eq_true, true_and, ne_eq, not_not]

theorem readChunks_embedded {bytes : Bytes} {kind : CapsuleKind} {offset fileLen : ℕ}
    {entry : IndexEntry} {entries : List IndexEntry} {r : List ChunkView × ℕ}
    (hflags : entry.flags = 0) :
    CapsuleView.readChunks bytes kind offset fileLen (entry :: entries) = .ok r ↔
      ∃ stop payload, entry.offset.toNat = offset ∧ offset + entry.logicalLen.toNat = stop ∧
        stop ≤ bytes.length ∧ stop + 7 < 2 ^ 64 ∧ slice bytes offset stop = payload ∧
        sha256 payload = entry.hash ∧ ∃ r',
          CapsuleView.readChunks bytes kind (alignUp alignment stop) stop entries = .ok r' ∧
          (⟨entry.kind, entry.logicalLen, entry.hash, .embedded payload⟩ :: r'.1, r'.2) = r := by
  have hknown : ¬ (0 : UInt16) &&& ~~~ chunkFlagExternal ≠ 0 := by decide
  have hembedded : ¬ (0 : UInt16) &&& chunkFlagExternal ≠ 0 := by decide
  simp only [CapsuleView.readChunks, hflags, bind_eq_ok, exists_unit, refuse_eq_ok,
    if_neg hembedded, pure_eq_ok, hknown, not_false_eq_true, true_and, ne_eq, not_not,
    checkedRange_eq_ok, checkedAlignUp_eq_ok]
  constructor
  · rintro ⟨rfl, stop, ⟨⟨_, hle⟩, hstop⟩, next, ⟨hfit, rfl⟩, hhash, r', hr', hr⟩
    exact ⟨stop, _, rfl, hstop, hle, hfit, rfl, hhash, r', hr', hr⟩
  · rintro ⟨stop, _, rfl, hstop, hle, hfit, rfl, hhash, r', hr', hr⟩
    exact ⟨rfl, stop, ⟨⟨by omega, hle⟩, hstop⟩, _, ⟨hfit, rfl⟩, hhash, r', hr', hr⟩

theorem Read.nil {bytes : Bytes} {kind : CapsuleKind} {pos : ℕ} :
    Read bytes kind pos [] ([], pos) [] [] (bytes.drop pos) where
  bytes_eq := rfl
  laid := rfl
  holds := holds_nil kind
  fit _ h := nomatch h
  entries_eq := rfl
  result := rfl

section Loop

variable {bytes : Bytes} {kind : CapsuleKind} {pos : ℕ} {entry : IndexEntry}
  {entries : List IndexEntry} {r : List ChunkView × ℕ} {chunks : List ChunkSpec}
  {body rest payload : Bytes}

/-- One external chunk more. -/
theorem Read.external (h : Read bytes kind pos entries r chunks body rest) (hkind : kind ≠ .full)
    (hflags : entry.flags = chunkFlagExternal) (hoffset : entry.offset = 0) :
    Read bytes kind pos (entry :: entries)
      (⟨entry.kind, entry.logicalLen, entry.hash, .external⟩ :: r.1, r.2)
      (⟨entry.kind, .external entry.logicalLen entry.hash⟩ :: chunks) body rest where
  bytes_eq := h.bytes_eq
  laid := h.laid
  holds := holds_external.2 ⟨hkind, h.holds⟩
  fit := h.fit
  entries_eq := by
    obtain ⟨⟩ := entry
    cases hflags
    cases hoffset
    rw [h.entries_eq]
    rfl
  result := by
    rw [h.result]
    rfl

/-- One embedded chunk more, behind its gap. -/
theorem Read.embedded {g : Bytes}
    (h : Read bytes kind (alignUp alignment pos + payload.length) entries r chunks body rest)
    (hbytes : bytes.drop pos = g ++ (payload ++ (body ++ rest)))
    (hgap : g.length = alignUp alignment pos - pos) (hflags : entry.flags = 0)
    (hoffset : entry.offset.toNat = alignUp alignment pos)
    (hlen : entry.logicalLen.toNat = payload.length) (hhash : sha256 payload = entry.hash)
    (hfit : alignUp alignment pos + payload.length + 7 < 2 ^ 64) :
    Read bytes kind pos (entry :: entries)
      (⟨entry.kind, entry.logicalLen, entry.hash, .embedded payload⟩ :: r.1, r.2)
      (⟨entry.kind, .embedded payload⟩ :: chunks) (g ++ (payload ++ body)) rest where
  bytes_eq := by simp only [hbytes, List.append_assoc]
  laid := ⟨g, body, rfl, hgap, h.laid⟩
  holds := holds_embedded.2 h.holds
  fit := List.forall_mem_cons.2 ⟨hfit, h.fit⟩
  entries_eq := by
    obtain ⟨_, _, logicalLen, offset, _⟩ := entry
    obtain rfl := (toNat_eq_iff (by omega)).1 hlen
    obtain rfl := (toNat_eq_iff (by omega)).1 hoffset
    cases hflags
    cases hhash
    rw [h.entries_eq]
    rfl
  result := by
    obtain ⟨_, _, logicalLen, _, _⟩ := entry
    obtain rfl := (toNat_eq_iff (by omega)).1 hlen
    cases hhash
    rw [h.result]
    rfl

theorem flags_of_readChunks {offset fileLen : ℕ}
    (h : CapsuleView.readChunks bytes kind offset fileLen (entry :: entries) = .ok r) :
    entry.flags = 0 ∨ entry.flags = chunkFlagExternal := by
  simp only [CapsuleView.readChunks, bind_eq_ok, exists_unit, refuse_eq_ok] at h
  exact Flags.uint16_eq_zero_or_one (not_not.1 h.1)

/-- What the loop accepts is a layout. -/
theorem exists_read : ∀ {entries : List IndexEntry} {pos : ℕ} {r : List ChunkView × ℕ},
    CapsuleView.readChunks bytes kind (alignUp alignment pos) pos entries = .ok r →
    ∃ chunks body rest, Read bytes kind pos entries r chunks body rest
  | [], pos, r, h => by
      obtain rfl := pure_eq_ok.1 h
      exact ⟨[], [], bytes.drop pos, .nil⟩
  | entry :: entries, pos, r, h => by
      rcases flags_of_readChunks h with hflags | hflags
      · obtain ⟨stop, payload, hoffset, hstop, hle, hfit, hslice, hhash, r', hr', rfl⟩ :=
          (readChunks_embedded hflags).1 h
        obtain ⟨chunks, body, rest, hread⟩ := exists_read hr'
        obtain ⟨front, tail, hbytes, hfront, hlen⟩ :=
          exists_slice (show alignUp alignment pos ≤ stop by omega) hle
        rw [hslice] at hbytes hlen
        obtain rfl : stop = alignUp alignment pos + payload.length := by omega
        have htail : tail = body ++ rest := by
          rw [← hread.bytes_eq, hbytes, ← List.append_assoc]
          exact (List.drop_left' (by rw [List.length_append, hfront])).symm
        have hpos := le_alignment pos
        refine ⟨_, _, rest, hread.embedded (g := front.drop pos) ?_ ?_ hflags hoffset (by omega)
          hhash hfit⟩
        · conv_lhs => rw [hbytes]
          rw [List.drop_append_of_le_length (by omega), htail]
        · rw [List.length_drop, hfront]
      · obtain ⟨hoffset, hkind, r', hr', rfl⟩ := (readChunks_external hflags).1 h
        obtain ⟨chunks, body, rest, hread⟩ := exists_read hr'
        exact ⟨_, body, rest, hread.external hkind hflags hoffset⟩

/-- A layout is accepted by the loop. -/
theorem Read.readChunks : ∀ {chunks : List ChunkSpec} {entries : List IndexEntry} {pos : ℕ}
    {r : List ChunkView × ℕ} {body rest : Bytes},
    alignUp alignment pos < 2 ^ 64 → pos ≤ bytes.length →
    Read bytes kind pos entries r chunks body rest →
    CapsuleView.readChunks bytes kind (alignUp alignment pos) pos entries = .ok r
  | [], entries, pos, r, body, rest, _, _, h => by
      rw [h.entries_eq, h.result]
      rfl
  | ⟨kind', .external len hash⟩ :: chunks, entries, pos, r, body, rest, hoff, hpos, h => by
      obtain ⟨hbytes, hlaid, hholds, hfit, hentries, rfl⟩ := h
      obtain ⟨hkind, hholds⟩ := holds_external.1 hholds
      rw [hentries, entriesAt]
      refine (readChunks_external rfl).2
        ⟨rfl, hkind, (chunks.map view, extent alignment pos (payloads chunks)), ?_, rfl⟩
      have hread : Read bytes kind pos (entriesAt pos chunks)
          (chunks.map view, extent alignment pos (payloads chunks)) chunks body rest :=
        ⟨hbytes, hlaid, hholds, hfit, rfl, rfl⟩
      exact hread.readChunks hoff hpos
  | ⟨kind', .embedded payload⟩ :: chunks, entries, pos, r, body, rest, hoff, hpos, h => by
      obtain ⟨hbytes, hlaid, hholds, hfit, hentries, rfl⟩ := h
      obtain ⟨gap, tail, rfl, hgap, hlaid⟩ := hlaid
      obtain ⟨hend, hfit⟩ := List.forall_mem_cons.1 hfit
      have hle := le_alignment pos
      have hwhole : bytes = (bytes.take pos ++ gap) ++ (payload ++ (tail ++ rest)) := by
        conv_lhs => rw [← List.take_append_drop pos bytes, hbytes]
        simp only [List.append_assoc]
      have hfront : (bytes.take pos ++ gap).length = alignUp alignment pos := by
        rw [List.length_append, List.length_take_of_le hpos, hgap]
        omega
      have htail : bytes.drop (alignUp alignment pos + payload.length) = tail ++ rest := by
        conv_lhs => rw [hwhole, ← List.append_assoc]
        exact List.drop_left' (by rw [List.length_append, hfront])
      have hstop : alignUp alignment pos + payload.length ≤ bytes.length := by
        rw [hwhole, List.length_append, hfront, List.length_append]
        omega
      have hlen : payload.length < 2 ^ 64 := by omega
      rw [hentries, entriesAt]
      refine (readChunks_embedded rfl).2 ⟨alignUp alignment pos + payload.length, payload,
        UInt64.toNat_ofNat_of_lt' hoff, ?_, hstop, hend, ?_, rfl,
        (chunks.map view, extent alignment _ (payloads chunks)), ?_, rfl⟩
      · rw [UInt64.toNat_ofNat_of_lt' hlen]
      · conv_lhs => rw [hwhole]
        exact slice_append hfront rfl
      · exact Read.readChunks (alignUp_lt hend) hstop
          ⟨htail, hlaid, holds_embedded.1 hholds, hfit, rfl, rfl⟩

end Loop

/-! ## The whole file -/

def headerFields (contract : NativeIntelligenceContract) (count : ℕ) (rootHash : Digest) :
    HeaderFields where
  contract := contract
  manifestOffset := UInt64.ofNat headerLen
  manifestLen := UInt64.ofNat manifestLen
  indexOffset := UInt64.ofNat indexOffset
  indexLen := UInt64.ofNat (count * indexEntryLen)
  payloadOffset := UInt64.ofNat (headLen count)
  chunkCount := UInt32.ofNat count
  rootHash := rootHash

def manifestFields (builder : CapsuleBuilder) : ManifestFields where
  kind := builder.kind
  capsuleId := builder.capsuleId
  baseRoot := builder.baseRoot

/-- How a reader sees the capsule. -/
def viewOf (builder : CapsuleBuilder) (contract : NativeIntelligenceContract) (rootHash : Digest) :
    CapsuleView where
  contract := contract
  kind := builder.kind
  capsuleId := builder.capsuleId
  baseRoot := builder.baseRoot
  rootHash := rootHash
  chunks := builder.chunks.map view

/-- The three parts before the payloads. -/
structure Head (contract : NativeIntelligenceContract) (builder : CapsuleBuilder)
    (header manifest index : Bytes) : Prop where
  emits_manifest : Emits (encodeManifest (manifestFields builder)) manifest
  emits_index : Emits (encodeIndex (entriesAt (headLen builder.chunks.length) builder.chunks)) index
  emits_header : Emits (encodeHeader (headerFields contract builder.chunks.length
    (metadataRoot manifest index))) header

/-- A capsule that can be written. -/
structure Writable (builder : CapsuleBuilder) : Prop where
  holds : Holds builder.kind builder.chunks
  count : builder.chunks.length < 2 ^ 32
  fit : Fit (headLen builder.chunks.length) builder.chunks

section File

variable {builder : CapsuleBuilder} {contract : NativeIntelligenceContract}
  {header manifest index body b : Bytes}

theorem Head.length_index (h : Head contract builder header manifest index) :
    index.length = builder.chunks.length * indexEntryLen := by
  rw [Capsule.length_index h.emits_index, length_entriesAt]

theorem headLen_lt {count : ℕ} (h : count < 2 ^ 32) : headLen count + 7 < 2 ^ 64 := by
  have hlen : headLen count = 168 + count * 56 := rfl
  omega

/-- The copies of the writer put every payload in its place. -/
theorem foldlM_copyChunk : ∀ {chunks : List ChunkSpec} {pos : ℕ} {out : Bytes},
    alignUp alignment pos < 2 ^ 64 → Fit pos chunks →
    (chunks.zip (entriesAt pos chunks)).foldlM CapsuleBuilder.copyChunk out =
      .ok (copyBlocks alignment pos (payloads chunks) out)
  | [], _, _, _, _ => rfl
  | ⟨_, .external ..⟩ :: chunks, pos, out, hpos, hfit => by
      have ih : (chunks.zip (entriesAt pos chunks)).foldlM CapsuleBuilder.copyChunk out = _ :=
        foldlM_copyChunk hpos hfit
      exact ih
  | ⟨kind, .embedded payload⟩ :: chunks, pos, out, hpos, hfit => by
      obtain ⟨hend, hfit⟩ := List.forall_mem_cons.1 hfit
      have hoffset : (UInt64.ofNat (alignUp alignment pos)).toNat = alignUp alignment pos :=
        UInt64.toNat_ofNat_of_lt' hpos
      have hcopy : CapsuleBuilder.copyChunk out (⟨kind, .embedded payload⟩, {
          kind
          flags := 0
          logicalLen := UInt64.ofNat payload.length
          offset := UInt64.ofNat (alignUp alignment pos)
          hash := sha256 payload }) =
          .ok (copyFromSlice out (alignUp alignment pos) payload) := by
        simp only [CapsuleBuilder.copyChunk, bind_eq_ok, checkedUsize_eq_ok, pure_eq_ok, hoffset]
        exact ⟨_, ⟨by omega, rfl⟩, trivial⟩
      rw [entriesAt, List.zip_cons_cons, List.foldlM_cons, hcopy]
      exact foldlM_copyChunk (alignUp_lt hend) hfit

/-- The buffer of the writer, when header, manifest and index are in place. -/
theorem copy_head {n : ℕ} (hheader : header.length = headerLen)
    (hmanifest : manifest.length = manifestLen) (hindex : indexOffset + index.length ≤ n) :
    copyFromSlice (copyFromSlice (copyFromSlice (List.replicate n (0 : UInt8)) 0 header) headerLen
      manifest) indexOffset index =
    header ++ (manifest ++ (index ++ List.replicate (n - (indexOffset + index.length)) 0)) := by
  have hn : n = headerLen + (manifestLen + (index.length + (n - (indexOffset + index.length)))) := by
    have hoffset : indexOffset = headerLen + manifestLen := rfl
    omega
  have hzeros : ∀ k, (List.replicate k (0 : UInt8)).length = k := fun k => List.length_replicate
  have h₀ : ∀ tail : Bytes, copyFromSlice (List.replicate headerLen 0 ++ tail) 0 header =
      header ++ tail := fun tail =>
    copyFromSlice_append ((hzeros _).trans hheader.symm) (rfl : ([] : Bytes).length = 0)
  have h₁ : ∀ tail : Bytes, copyFromSlice (header ++ (List.replicate manifestLen 0 ++ tail))
      headerLen manifest = header ++ (manifest ++ tail) := fun tail =>
    copyFromSlice_append ((hzeros _).trans hmanifest.symm) hheader
  have h₂ : ∀ tail : Bytes, copyFromSlice (header ++ (manifest ++
      (List.replicate index.length 0 ++ tail))) indexOffset index =
      header ++ (manifest ++ (index ++ tail)) := by
    intro tail
    rw [← List.append_assoc, ← List.append_assoc header, copyFromSlice_append (hzeros _)]
    rw [List.length_append, hheader, hmanifest]
    rfl
  conv_lhs => rw [hn, List.replicate_add, List.replicate_add, List.replicate_add, h₀, h₁, h₂]

theorem layOut_headLen_eq_ok {n : ℕ} (hn : n < 2 ^ 32) {chunks : List ChunkSpec}
    {r : List IndexEntry × ℕ} : CapsuleBuilder.layOut (headLen n) (headLen n) chunks = .ok r ↔
      Fit (headLen n) chunks ∧
        (entriesAt (headLen n) chunks, extent alignment (headLen n) (payloads chunks)) = r := by
  have halign := alignUp_headLen n
  have hlt := headLen_lt hn
  have h : CapsuleBuilder.layOut (alignUp alignment (headLen n)) (headLen n) chunks = .ok r ↔ _ :=
    layOut_eq_ok (by omega)
  rwa [halign] at h

/-- The writer's copies, as a whole. -/
theorem foldlM_copy_eq_ok (hwritable : Writable builder) (hheader : header.length = headerLen)
    (hmanifest : manifest.length = manifestLen)
    (hindex : index.length = builder.chunks.length * indexEntryLen) :
    (builder.chunks.zip (entriesAt (headLen builder.chunks.length) builder.chunks)).foldlM
      CapsuleBuilder.copyChunk (copyFromSlice (copyFromSlice (copyFromSlice
        (List.replicate (extent alignment (headLen builder.chunks.length)
          (payloads builder.chunks)) 0) 0 header) headerLen manifest) indexOffset index) =
      .ok (header ++ (manifest ++ (index ++
        laid alignment 0 (headLen builder.chunks.length) (payloads builder.chunks)))) := by
  have hhead : indexOffset + index.length = headLen builder.chunks.length := by
    rw [hindex]
    rfl
  have hpre : (header ++ (manifest ++ index)).length = headLen builder.chunks.length := by
    rw [List.length_append, List.length_append, hheader, hmanifest, ← hhead, ← Nat.add_assoc]
    rfl
  have hlt := headLen_lt hwritable.count
  have halign := alignUp_headLen builder.chunks.length
  have hextent := le_extent (a := alignment) (by decide) (payloads builder.chunks)
    (headLen builder.chunks.length)
  rw [copy_head hheader hmanifest (by omega), hhead,
    foldlM_copyChunk (by omega) hwritable.fit, ← List.append_assoc manifest, ← List.append_assoc,
    copyBlocks_replicate (by decide) hpre]
  simp only [List.append_assoc]

/-- **The writer**: what it writes, and when. -/
theorem write_eq_ok : builder.write = .ok b ↔ Writable builder ∧ ∃ header manifest index,
    Head .current builder header manifest index ∧ b = header ++ (manifest ++ (index ++
      laid alignment 0 (headLen builder.chunks.length) (payloads builder.chunks))) := by
  simp only [CapsuleBuilder.write, bind_eq_ok, exists_unit, refuse_eq_ok, lenU32_eq_ok,
    written_eq_ok]
  constructor
  · rintro ⟨hholds, count, hcount, offsets, hoffsets, manifest, hmanifest, layout, hlayout, index,
      hindex, header, hheader, hcopy⟩
    have hlt : builder.chunks.length < 2 ^ 32 := hcount ▸ count.toNat_lt
    obtain rfl := Except.ok.inj ((payloadOffset_eq hlt).symm.trans hoffsets)
    obtain ⟨hfit, rfl⟩ := (layOut_headLen_eq_ok hlt).1 hlayout
    have hwritable : Writable builder := ⟨hholds, hlt, hfit⟩
    have hcount' : count = UInt32.ofNat builder.chunks.length := by
      rw [← hcount, UInt32.ofNat_toNat]
    subst hcount'
    have hlen := (length_index hindex).trans (by rw [length_entriesAt])
    rw [foldlM_copy_eq_ok hwritable (length_header hheader) (length_manifest hmanifest) hlen] at hcopy
    exact ⟨hwritable, header, manifest, index, ⟨hmanifest, hindex, hheader⟩,
      (Except.ok.inj hcopy).symm⟩
  · rintro ⟨hwritable, header, manifest, index, hhead, rfl⟩
    refine ⟨hwritable.holds, UInt32.ofNat builder.chunks.length,
      UInt32.toNat_ofNat_of_lt' hwritable.count, _, payloadOffset_eq hwritable.count, manifest,
      hhead.emits_manifest, _, (layOut_headLen_eq_ok hwritable.count).2 ⟨hwritable.fit, rfl⟩, index,
      hhead.emits_index, header, hhead.emits_header, ?_⟩
    exact foldlM_copy_eq_ok hwritable (length_header hhead.emits_header)
      (length_manifest hhead.emits_manifest) hhead.length_index

/-- **What the reader accepts**: the parts of a file and what it sees in them. -/
structure Sealed (b : Bytes) (v : CapsuleView) (builder : CapsuleBuilder)
    (header manifest index body : Bytes) : Prop where
  readable : NativeIntelligenceContract.current.canRead v.contract
  writable : Writable builder
  head : Head v.contract builder header manifest index
  laid : Laid alignment (headLen builder.chunks.length) (payloads builder.chunks) body
  bytes_eq : b = header ++ (manifest ++ (index ++ body))
  view_eq : v = viewOf builder v.contract (metadataRoot manifest index)

theorem decodeHeader_eq_ok {bytes : Bytes} {fields : HeaderFields} :
    decodeHeader bytes = .ok fields ↔
      ∃ hb tail, Emits (encodeHeader fields) hb ∧ bytes = hb ++ tail := by
  simp only [decodeHeader, bind_eq_ok, exists_unit, refuse_eq_ok, pure_eq_ok, not_lt]
  constructor
  · rintro ⟨-, ⟨fields, tail⟩, hrun, rfl⟩
    obtain ⟨-, hb, hheader, rfl⟩ := codec_header.put_get hrun
    exact ⟨hb, tail, hheader, rfl⟩
  · rintro ⟨hb, tail, hheader, rfl⟩
    refine ⟨?_, (fields, tail), codec_header.get_put trivial hheader tail, rfl⟩
    rw [List.length_append, length_header hheader]
    exact Nat.le_add_right ..

theorem decodeManifest_eq_ok {bytes : Bytes} {fields : ManifestFields} :
    decodeManifest bytes = .ok fields ↔ Emits (encodeManifest fields) bytes := by
  simp only [decodeManifest, bind_eq_ok, exists_unit, refuse_eq_ok, codec_manifest.readAll_eq_ok,
    written_eq_ok, true_and, not_not]
  exact ⟨fun h => h.2, fun h => ⟨length_manifest h, h⟩⟩

theorem decodeIndex_eq_ok {bytes : Bytes} {count : UInt32} {entries : List IndexEntry} :
    decodeIndex bytes count = .ok entries ↔
      entries.length = count.toNat ∧ Emits (encodeIndex entries) bytes := by
  simp only [decodeIndex, bind_eq_ok, exists_unit, refuse_eq_ok, not_not,
    (inverse_getN codec_entry count.toNat).readAll_eq_ok, written_eq_ok]
  constructor
  · rintro ⟨-, ⟨-, hcount⟩, hindex⟩
    exact ⟨hcount, hindex⟩
  · rintro ⟨hcount, hindex⟩
    exact ⟨by rw [length_index hindex, hcount], ⟨fun _ _ => trivial, hcount⟩, hindex⟩

/-- The parts of a file that is long enough for its header, manifest and index. -/
theorem exists_parts {header tail : Bytes} {n : ℕ} (hheader : header.length = headerLen)
    (hle : headLen n ≤ (header ++ tail).length) :
    ∃ manifest index body, tail = manifest ++ (index ++ body) ∧ manifest.length = manifestLen ∧
      index.length = n * indexEntryLen := by
  have hhead : headLen n = headerLen + manifestLen + n * indexEntryLen := rfl
  rw [List.length_append] at hle
  refine ⟨tail.take manifestLen, (tail.drop manifestLen).take (n * indexEntryLen),
    (tail.drop manifestLen).drop (n * indexEntryLen), ?_, ?_, ?_⟩
  · rw [List.take_append_drop, List.take_append_drop]
  · exact List.length_take_of_le (by omega)
  · refine List.length_take_of_le ?_
    rw [List.length_drop]
    omega

/-- The slices the reader takes of these parts. -/
theorem slices_eq {n : ℕ} (hheader : header.length = headerLen)
    (hmanifest : manifest.length = manifestLen) (hindex : index.length = n * indexEntryLen) :
    slice (header ++ (manifest ++ (index ++ body))) headerLen (headerLen + manifestLen) = manifest ∧
      slice (header ++ (manifest ++ (index ++ body))) indexOffset (headLen n) = index := by
  refine ⟨slice_append hheader (by rw [hmanifest]), ?_⟩
  rw [← List.append_assoc header]
  refine slice_append ?_ (by rw [hindex]; rfl)
  rw [List.length_append, hheader, hmanifest]
  rfl

theorem toNat_indexLen {n : ℕ} (hn : n < 2 ^ 32) :
    (UInt64.ofNat (n * indexEntryLen)).toNat = n * indexEntryLen := by
  have hlt : n * indexEntryLen < 2 ^ 64 := by
    simp only [indexEntryLen]
    omega
  exact UInt64.toNat_ofNat_of_lt' hlt

theorem exists_sealed {v : CapsuleView} (h : CapsuleView.read b = .ok v) :
    ∃ builder header manifest index body, Sealed b v builder header manifest index body := by
  simp only [CapsuleView.read, bind_eq_ok, exists_unit, refuse_eq_ok, pure_eq_ok, not_not, not_or,
    decodeHeader_eq_ok, decodeManifest_eq_ok, decodeIndex_eq_ok, ne_eq] at h
  obtain ⟨⟨contract, _, _, _, _, _, count, root⟩, ⟨header, tail, hheader, rfl⟩, hreadable, offsets,
    hoffsets, ⟨rfl, rfl, rfl, hindexLen, hpayload⟩, manifestEnd, hmanifestEnd, indexEnd, hindexEnd,
    hroot, mf, hmanifest, entries, ⟨hentries, hindex⟩, ⟨views, len⟩, hchunks, hlen, rfl⟩ := h
  have hcount : count.toNat < 2 ^ 32 := count.toNat_lt
  obtain rfl := Except.ok.inj ((payloadOffset_eq hcount).symm.trans hoffsets)
  subst hindexLen
  subst hpayload
  obtain ⟨-, rfl⟩ := checkedRange_eq_ok.1 hmanifestEnd
  obtain ⟨⟨-, hle⟩, rfl⟩ := checkedRange_eq_ok.1 hindexEnd
  simp only [toNat_indexLen hcount] at hle hroot hindex
  change headLen count.toNat ≤ _ at hle
  obtain ⟨manifest, index, body, rfl, hmanifestLen, hindexLen⟩ :=
    exists_parts (length_header hheader) hle
  have hslices : slice (header ++ (manifest ++ (index ++ body))) _ _ = _ ∧ _ :=
    slices_eq (length_header hheader) hmanifestLen hindexLen
  change Emits _ (slice _ headerLen (headerLen + manifestLen)) at hmanifest
  change Emits _ (slice _ indexOffset (headLen count.toNat)) at hindex
  change metadataRoot (slice _ headerLen (headerLen + manifestLen))
    (slice _ indexOffset (headLen count.toNat)) = root at hroot
  rw [hslices.1] at hmanifest hroot
  rw [hslices.2] at hindex hroot
  subst hroot
  -- the loop has read the whole rest of the file
  have halign := alignUp_headLen count.toNat
  have hloop : CapsuleView.readChunks (header ++ (manifest ++ (index ++ body))) mf.kind
      (alignUp alignment (headLen count.toNat)) (headLen count.toNat) entries = .ok (views, len) := by
    rw [halign]
    exact hchunks
  obtain ⟨chunks, body', rest, hread⟩ := exists_read hloop
  have hdrop : (header ++ (manifest ++ (index ++ body))).drop (headLen count.toNat) = body := by
    rw [← List.append_assoc manifest, ← List.append_assoc]
    refine List.drop_left' ?_
    rw [List.length_append, List.length_append, length_header hheader, hmanifestLen, hindexLen,
      ← Nat.add_assoc]
    rfl
  have hbody : body = body' ++ rest := by rw [← hread.bytes_eq, hdrop]
  have hrest : rest = [] := by
    have hextent := hread.laid.length_eq (by decide)
    have hlen' : len = extent alignment (headLen count.toNat) (payloads chunks) :=
      (Prod.mk.inj hread.result).2
    have htotal := congrArg List.length hdrop
    rw [List.length_drop, hlen, hbody, List.length_append] at htotal
    exact List.length_eq_zero_iff.1 (by omega)
  subst hrest
  rw [List.append_nil] at hbody
  subst hbody
  have hn : chunks.length = count.toNat := by
    rw [← length_entriesAt (headLen count.toNat) chunks, ← hread.entries_eq, hentries]
  have hviews : views = chunks.map view := (Prod.mk.inj hread.result).1
  refine ⟨⟨mf.kind, mf.capsuleId, mf.baseRoot, chunks⟩, header, manifest, index, body, hreadable,
    ⟨hread.holds, ?_, ?_⟩, ⟨hmanifest, ?_, ?_⟩, ?_, rfl, ?_⟩
  · rw [hn]
    exact hcount
  · rw [hn]
    exact hread.fit
  · rw [hn, ← hread.entries_eq]
    exact hindex
  · rw [hn, headerFields, UInt32.ofNat_toNat]
    exact hheader
  · rw [hn]
    exact hread.laid
  · rw [hviews]
    rfl

/-- A sealed file is accepted. -/
theorem Sealed.read {v : CapsuleView} (h : Sealed b v builder header manifest index body) :
    CapsuleView.read b = .ok v := by
  obtain ⟨hreadable, hwritable, hhead, hlaid, rfl, hview⟩ := h
  have hheader := length_header hhead.emits_header
  have hmanifest := length_manifest hhead.emits_manifest
  have hindex := hhead.length_index
  have hslices : slice (header ++ (manifest ++ (index ++ body))) _ _ = _ ∧ _ :=
    slices_eq hheader hmanifest hindex
  have hcount : (UInt32.ofNat builder.chunks.length).toNat = builder.chunks.length :=
    UInt32.toNat_ofNat_of_lt' hwritable.count
  have hpre : (header ++ (manifest ++ index)).length = headLen builder.chunks.length := by
    rw [List.length_append, List.length_append, hheader, hmanifest, hindex, ← Nat.add_assoc]
    rfl
  have hwhole : header ++ (manifest ++ (index ++ body)) = header ++ (manifest ++ index) ++ body := by
    simp only [List.append_assoc]
  have hlen : (header ++ (manifest ++ (index ++ body))).length =
      extent alignment (headLen builder.chunks.length) (payloads builder.chunks) := by
    rw [hwhole, List.length_append, hpre]
    exact hlaid.length_eq (by decide)
  have hle : headLen builder.chunks.length ≤ (header ++ (manifest ++ (index ++ body))).length := by
    rw [hwhole, List.length_append, hpre]
    exact Nat.le_add_right ..
  have hlt := headLen_lt hwritable.count
  have halign := alignUp_headLen builder.chunks.length
  have hloop : CapsuleView.readChunks (header ++ (manifest ++ (index ++ body))) builder.kind
      (headLen builder.chunks.length) (headLen builder.chunks.length)
      (entriesAt (headLen builder.chunks.length) builder.chunks) = .ok (builder.chunks.map view,
        extent alignment (headLen builder.chunks.length) (payloads builder.chunks)) := by
    have hread : Read (header ++ (manifest ++ (index ++ body))) builder.kind
        (headLen builder.chunks.length) (entriesAt (headLen builder.chunks.length) builder.chunks)
        (builder.chunks.map view, extent alignment (headLen builder.chunks.length)
          (payloads builder.chunks)) builder.chunks body [] := by
      refine ⟨?_, hlaid, hwritable.holds, hwritable.fit, rfl, rfl⟩
      rw [hwhole, List.drop_left' hpre, List.append_nil]
    have h := hread.readChunks (by omega) hle
    rwa [halign] at h
  simp only [CapsuleView.read, bind_eq_ok, exists_unit, refuse_eq_ok, pure_eq_ok, not_not, not_or,
    decodeHeader_eq_ok, decodeManifest_eq_ok, decodeIndex_eq_ok, ne_eq]
  refine ⟨headerFields v.contract builder.chunks.length (metadataRoot manifest index),
    ⟨header, _, hhead.emits_header, rfl⟩, hreadable,
    (builder.chunks.length * indexEntryLen, headLen builder.chunks.length), ?_,
    ⟨rfl, rfl, rfl, rfl, rfl⟩, headerLen + manifestLen, checkedRange_eq_ok.2 ⟨⟨?_, ?_⟩, rfl⟩,
    headLen builder.chunks.length, checkedRange_eq_ok.2 ⟨⟨?_, hle⟩, ?_⟩, ?_,
    manifestFields builder, ?_, entriesAt (headLen builder.chunks.length) builder.chunks, ⟨?_, ?_⟩,
    (builder.chunks.map view, _), hloop, hlen, hview.symm⟩
  · rw [headerFields, hcount]
    exact payloadOffset_eq hwritable.count
  · change (UInt64.ofNat headerLen).toNat + (UInt64.ofNat manifestLen).toNat < 2 ^ 64
    decide
  · have hmanifestEnd : headerLen + manifestLen ≤ headLen builder.chunks.length :=
      Nat.le_add_right ..
    exact hmanifestEnd.trans hle
  · simp only [headerFields, toNat_indexLen hwritable.count]
    change headLen builder.chunks.length < _
    omega
  · simp only [headerFields, toNat_indexLen hwritable.count]
    rfl
  · exact congrArg₂ metadataRoot hslices.1 hslices.2
  · exact hslices.1.symm ▸ hhead.emits_manifest
  · rw [length_entriesAt]
    exact hcount.symm
  · exact hslices.2.symm ▸ hhead.emits_index

end File

/-- Payloads whose ends fit have lengths that do. -/
theorem length_lt_of_fit : ∀ {chunks : List ChunkSpec} {pos : ℕ}, Fit pos chunks →
    ∀ x ∈ payloads chunks, x.length < 2 ^ 64
  | [], _, _, _, hx => nomatch hx
  | ⟨_, .external ..⟩ :: chunks, _, hfit, x, hx =>
      have ih : ∀ x ∈ payloads chunks, x.length < 2 ^ 64 := length_lt_of_fit hfit
      ih x hx
  | ⟨_, .embedded _⟩ :: chunks, _, hfit, x, hx => by
      obtain ⟨hend, hfit⟩ := List.forall_mem_cons.1 hfit
      rcases List.mem_cons.1 hx with rfl | hx
      · omega
      · exact length_lt_of_fit hfit x hx

theorem mem_payloads {kind : SectionKind} {bytes : Bytes} : ∀ {chunks : List ChunkSpec},
    ⟨kind, .embedded bytes⟩ ∈ chunks → bytes ∈ payloads chunks
  | ⟨_, .external ..⟩ :: chunks, h => by
      rcases List.mem_cons.1 h with h | h
      · exact nomatch h
      · have ih : bytes ∈ payloads chunks := mem_payloads h
        exact ih
  | ⟨_, .embedded _⟩ :: chunks, h => by
      rcases List.mem_cons.1 h with h | h
      · obtain ⟨-, hsource⟩ := ChunkSpec.mk.inj h
        obtain rfl := ChunkSource.embedded.inj hsource
        exact .head _
      · exact .tail _ (mem_payloads h)

/-- What an accepted file says of an embedded payload is true of it. -/
theorem embedded_of_read {b : Bytes} {v : CapsuleView} (h : CapsuleView.read b = .ok v)
    {c : ChunkView} (hc : c ∈ v.chunks) {bytes : Bytes} (hstorage : c.storage = .embedded bytes) :
    c.hash = sha256 bytes ∧ c.logicalLen.toNat = bytes.length := by
  obtain ⟨builder, header, manifest, index, body, hsealed⟩ := exists_sealed h
  rw [hsealed.view_eq] at hc
  obtain ⟨⟨kind, source⟩, hspec, rfl⟩ := List.mem_map.1 hc
  cases source with
  | external => exact nomatch hstorage
  | embedded payload =>
    obtain rfl := ChunkStorageView.embedded.inj hstorage
    have hlen := length_lt_of_fit hsealed.writable.fit payload (mem_payloads hspec)
    exact ⟨rfl, UInt64.toNat_ofNat_of_lt' hlen⟩

/-- What is written is a sealed file with zeros in its gaps. -/
theorem exists_sealed_of_write {builder : CapsuleBuilder} {b : Bytes}
    (h : builder.write = .ok b) : ∃ header manifest index body,
      Sealed b (viewOf builder .current (metadataRoot manifest index)) builder header manifest index
        body := by
  obtain ⟨hwritable, header, manifest, index, hhead, rfl⟩ := write_eq_ok.1 h
  have hreadable : NativeIntelligenceContract.current.canRead .current := by decide
  exact ⟨header, manifest, index, _, hreadable, hwritable, hhead, laid_laid .., rfl, rfl⟩

end Capsule

open Capsule

/-! ## What is written is read back -/

/-- **NCC97 round trip.**  What a builder writes is read as its kind, its id, its base and one chunk
for each of its own, in their order. -/
theorem ncc97_readBack (builder : CapsuleBuilder) (b : Bytes) (h : builder.write = .ok b) :
    ∃ v, CapsuleView.read b = .ok v ∧ v.contract = .current ∧ v.kind = builder.kind ∧
      v.capsuleId = builder.capsuleId ∧ v.baseRoot = builder.baseRoot ∧
      v.chunks = builder.chunks.map view := by
  obtain ⟨header, manifest, index, body, hsealed⟩ := exists_sealed_of_write h
  exact ⟨_, hsealed.read, rfl, rfl, rfl, rfl, rfl⟩

namespace CapsuleSample

/-- A capsule with two payloads of one byte around an external chunk. -/
def builder : CapsuleBuilder where
  kind := .thin
  capsuleId := ⟨List.replicate 16 7, rfl⟩
  baseRoot := none
  chunks := [
    ⟨.graph, .embedded [1]⟩, ⟨.tensors, .external 5 ⟨List.replicate 32 9, rfl⟩⟩,
    ⟨.tensors, .embedded [2]⟩]

def file : Bytes := builder.write.toOption.getD []

theorem write_builder : builder.write = .ok file :=
  Guard.eq_ok_getD (by decide +kernel) []

end CapsuleSample

open CapsuleSample in
theorem ncc97_readBack_builder : ∃ v, CapsuleView.read file = .ok v ∧
    v.chunks = builder.chunks.map view := by
  obtain ⟨v, hread, -, -, -, -, hchunks⟩ := ncc97_readBack builder file write_builder
  exact ⟨v, hread, hchunks⟩

/-! ## Which accepted files are written -/

def ChunkView.spec (self : ChunkView) : ChunkSpec :=
  match self.storage with
  | .embedded bytes => ⟨self.kind, .embedded bytes⟩
  | .external => ⟨self.kind, .external self.logicalLen self.hash⟩

/-- The builder with the contents of the view. -/
def CapsuleView.builder (self : CapsuleView) : CapsuleBuilder where
  kind := self.kind
  capsuleId := self.capsuleId
  baseRoot := self.baseRoot
  chunks := self.chunks.map ChunkView.spec

/-- The entries of the index of a file, as its header and index say. -/
def indexEntries (b : Bytes) : List IndexEntry :=
  match decodeHeader b with
  | .error _ => []
  | .ok fields =>
    (decodeIndex (slice b indexOffset (headLen fields.chunkCount.toNat))
      fields.chunkCount).toOption.getD []

/-- Behind every embedded payload of the index, the bytes up to the next multiple of 8 are zero as
far as the file reaches. -/
def GapsZero (b : Bytes) : Prop :=
  ∀ entry ∈ indexEntries b, entry.flags = 0 →
    Filled alignment 0 b (entry.offset.toNat + entry.logicalLen.toNat)

namespace Capsule

theorem spec_view : ∀ chunk : ChunkSpec, (view chunk).spec = chunk
  | ⟨_, .embedded _⟩ => rfl
  | ⟨_, .external ..⟩ => rfl

theorem builder_viewOf (builder : CapsuleBuilder) (contract : NativeIntelligenceContract)
    (rootHash : Digest) : (viewOf builder contract rootHash).builder = builder := by
  simp only [CapsuleView.builder, viewOf, List.map_map, Function.comp_def, spec_view, List.map_id']

/-- The payloads end where the index says. -/
theorem exists_entry_iff_mem_ends : ∀ {chunks : List ChunkSpec} {pos e : ℕ},
    alignUp alignment pos < 2 ^ 64 → Fit pos chunks →
    ((∃ entry ∈ entriesAt pos chunks, entry.flags = 0 ∧
      entry.offset.toNat + entry.logicalLen.toNat = e) ↔ e ∈ ends alignment pos (payloads chunks))
  | [], _, _, _, _ => by simp [entriesAt, payloads, ends]
  | ⟨kind, .external len hash⟩ :: chunks, pos, e, hpos, hfit => by
      have hflag : ¬ chunkFlagExternal = 0 := by decide
      have ih : (∃ entry ∈ entriesAt pos chunks, _) ↔ e ∈ ends alignment pos (payloads chunks) :=
        exists_entry_iff_mem_ends hpos hfit
      rw [payloads, ← ih]
      simp only [entriesAt, List.mem_cons, exists_eq_or_imp, hflag, false_and, false_or]
  | ⟨kind, .embedded payload⟩ :: chunks, pos, e, hpos, hfit => by
      obtain ⟨hend, hfit⟩ := List.forall_mem_cons.1 hfit
      have hlen : payload.length < 2 ^ 64 := by omega
      have ih := exists_entry_iff_mem_ends (e := e) (alignUp_lt hend) hfit
      rw [payloads, ends, List.mem_cons, ← ih]
      simp only [entriesAt, List.mem_cons, exists_eq_or_imp, true_and,
        UInt64.toNat_ofNat_of_lt' hpos, UInt64.toNat_ofNat_of_lt' hlen, eq_comm]

section Gaps

variable {b header manifest index body : Bytes} {v : CapsuleView} {builder : CapsuleBuilder}

theorem Sealed.length_head (h : Sealed b v builder header manifest index body) :
    (header ++ (manifest ++ index)).length = headLen builder.chunks.length := by
  rw [List.length_append, List.length_append, length_header h.head.emits_header,
    length_manifest h.head.emits_manifest, h.head.length_index, ← Nat.add_assoc]
  rfl

/-- The index of a sealed file lists its chunks. -/
theorem Sealed.indexEntries_eq (h : Sealed b v builder header manifest index body) :
    indexEntries b = entriesAt (headLen builder.chunks.length) builder.chunks := by
  obtain ⟨-, hwritable, hhead, -, rfl, -⟩ := h
  have hcount : (UInt32.ofNat builder.chunks.length).toNat = builder.chunks.length :=
    UInt32.toNat_ofNat_of_lt' hwritable.count
  have hheader := decodeHeader_eq_ok.2 ⟨header, manifest ++ (index ++ body), hhead.emits_header, rfl⟩
  have hslices : slice (header ++ (manifest ++ (index ++ body))) _ _ = _ ∧ _ :=
    slices_eq (length_header hhead.emits_header) (length_manifest hhead.emits_manifest)
      hhead.length_index
  have hindex : decodeIndex index (UInt32.ofNat builder.chunks.length) = .ok _ :=
    decodeIndex_eq_ok.2 ⟨by rw [length_entriesAt, hcount], hhead.emits_index⟩
  simp only [indexEntries, hheader, headerFields, hcount, hslices.2, hindex]
  rfl

/-- The gaps of a sealed file are zero exactly if its payloads are laid out as the writer does. -/
theorem Sealed.gapsZero_iff (h : Sealed b v builder header manifest index body) :
    GapsZero b ↔
      body = Layout.laid alignment 0 (headLen builder.chunks.length) (payloads builder.chunks) := by
  have hpos : alignUp alignment (headLen builder.chunks.length) < 2 ^ 64 :=
    alignUp_lt (headLen_lt h.writable.count)
  have hbytes : b = header ++ (manifest ++ index) ++ body := by
    rw [h.bytes_eq]
    simp only [List.append_assoc]
  -- the payloads start at a multiple of 8, so there is no gap in front of the first one
  have hfirst : Filled alignment 0 b (headLen builder.chunks.length) := by
    intro i hle hlt
    rw [alignUp_headLen] at hlt
    omega
  rw [h.laid.eq_laid_iff (by decide) h.length_head, ← hbytes, List.forall_mem_cons, GapsZero,
    h.indexEntries_eq]
  constructor
  · intro hgaps
    refine ⟨hfirst, fun e he => ?_⟩
    obtain ⟨entry, hentry, hflags, rfl⟩ := (exists_entry_iff_mem_ends hpos h.writable.fit).2 he
    exact hgaps entry hentry hflags
  · rintro ⟨-, hends⟩ entry hentry hflags
    exact hends _ ((exists_entry_iff_mem_ends hpos h.writable.fit).1 ⟨entry, hentry, hflags, rfl⟩)

theorem Head.unique {contract : NativeIntelligenceContract} {header' manifest' index' : Bytes}
    (h : Head contract builder header manifest index)
    (h' : Head contract builder header' manifest' index') :
    header = header' ∧ manifest = manifest' ∧ index = index' := by
  obtain rfl := h.emits_manifest.unique h'.emits_manifest
  obtain rfl := h.emits_index.unique h'.emits_index
  exact ⟨h.emits_header.unique h'.emits_header, rfl, rfl⟩

end Gaps

end Capsule

/-- **Canonicity of NCC97.**  An accepted file of the current contract is what its contents are
written as exactly if the gaps behind its payloads are zero. -/
theorem ncc97_rewritten_iff (b : Bytes) (v : CapsuleView) (hread : CapsuleView.read b = .ok v)
    (hcontract : v.contract = .current) : v.builder.write = .ok b ↔ GapsZero b := by
  obtain ⟨builder, header, manifest, index, body, hsealed⟩ := exists_sealed hread
  have hhead := hsealed.head
  rw [hcontract] at hhead
  rw [hsealed.gapsZero_iff, hsealed.view_eq, builder_viewOf, write_eq_ok, hsealed.bytes_eq]
  constructor
  · rintro ⟨-, header', manifest', index', hhead', heq⟩
    obtain ⟨rfl, rfl, rfl⟩ := hhead.unique hhead'
    exact List.append_cancel_left (List.append_cancel_left (List.append_cancel_left heq))
  · rintro rfl
    exact ⟨hsealed.writable, header, manifest, index, hhead, rfl⟩

namespace CapsuleSample

/-- The file with another byte in the gap behind the first payload. -/
def tampered : Bytes := file.set (headLen 3 + 1) 255

/-- The reader sees the same in both files. -/
theorem read_file_tampered : ∃ rootHash,
    CapsuleView.read file = .ok (viewOf builder .current rootHash) ∧
    CapsuleView.read tampered = .ok (viewOf builder .current rootHash) ∧ file ≠ tampered := by
  obtain ⟨hwritable, header, manifest, index, hparts, hfile⟩ := write_eq_ok.1 write_builder
  have hreadable : NativeIntelligenceContract.current.canRead .current := by decide
  have hsealed : ∀ body, Laid alignment (headLen 3) [[1], [2]] body → Sealed
      (header ++ (manifest ++ (index ++ body))) (viewOf builder .current (metadataRoot manifest index))
      builder header manifest index body :=
    fun body hlaid => ⟨hreadable, hwritable, hparts, hlaid, rfl, rfl⟩
  have hbody : laid alignment (0 : UInt8) (headLen 3) [[1], [2]] = [1, 0, 0, 0, 0, 0, 0, 0, 2] := by
    decide
  have hfile' : file = header ++ (manifest ++ (index ++ [1, 0, 0, 0, 0, 0, 0, 0, 2])) :=
    hbody ▸ hfile
  have hlaid : Laid alignment (headLen 3) [[1], [2]] [1, 255, 0, 0, 0, 0, 0, 0, (2 : UInt8)] :=
    ⟨[], [255, 0, 0, 0, 0, 0, 0, 2], rfl, rfl, [255, 0, 0, 0, 0, 0, 0], [], rfl, rfl, rfl⟩
  have htampered : tampered = header ++ (manifest ++ (index ++ [1, 255, 0, 0, 0, 0, 0, 0, 2])) := by
    have hlen := (hsealed _ hlaid).length_head
    change _ = headLen 3 at hlen
    rw [tampered, hfile', ← hlen, ← List.append_assoc manifest, ← List.append_assoc,
      List.set_append_right _ _ (Nat.le_add_right ..), Nat.add_sub_cancel_left]
    simp only [List.append_assoc, List.set]
  have hread := (hsealed (laid alignment 0 (headLen 3) [[1], [2]]) (laid_laid ..)).read
  rw [hbody, ← hfile'] at hread
  refine ⟨metadataRoot manifest index, hread, htampered ▸ (hsealed _ hlaid).read, ?_⟩
  rw [hfile', htampered]
  simp

end CapsuleSample

open CapsuleSample in
theorem ncc97_rewritten_iff_builder : GapsZero file := by
  obtain ⟨header, manifest, index, body, hsealed⟩ := exists_sealed_of_write write_builder
  refine (ncc97_rewritten_iff file _ hsealed.read rfl).1 ?_
  rw [builder_viewOf]
  exact write_builder

open CapsuleSample in
theorem not_rewritten_tampered : ¬ ∀ b v, CapsuleView.read b = .ok v → v.contract = .current →
    v.builder.write = .ok b := by
  intro h
  obtain ⟨rootHash, -, hread, hne⟩ := read_file_tampered
  have hwrite := h tampered _ hread rfl
  rw [builder_viewOf, write_builder] at hwrite
  exact hne (Except.ok.inj hwrite)

/-! ## What the root hash commits to -/

def ChunkView.payload? (self : ChunkView) : Option Bytes :=
  match self.storage with
  | .embedded bytes => some bytes
  | .external => none

/-- What is hashed in a file: manifest and index together, and every payload. -/
def preimages (b : Bytes) (v : CapsuleView) : List Bytes :=
  slice b headerLen (headLen v.chunks.length) :: v.chunks.filterMap ChunkView.payload?

namespace Capsule

theorem filterMap_payload : ∀ chunks : List ChunkSpec,
    (chunks.map view).filterMap ChunkView.payload? = payloads chunks
  | [] => rfl
  | ⟨_, .embedded bytes⟩ :: chunks => congrArg (bytes :: ·) (filterMap_payload chunks)
  | ⟨_, .external ..⟩ :: chunks => filterMap_payload chunks

/-- One index has one list of chunks, or two payloads collide. -/
theorem eq_or_collides_of_entriesAt : ∀ {chunks₁ chunks₂ : List ChunkSpec} {pos : ℕ},
    entriesAt pos chunks₁ = entriesAt pos chunks₂ → chunks₁ = chunks₂ ∨
      ∃ x ∈ payloads chunks₁, ∃ y ∈ payloads chunks₂, Collides x y
  | [], [], _, _ => .inl rfl
  | [], ⟨_, .embedded _⟩ :: _, _, h => nomatch h
  | [], ⟨_, .external ..⟩ :: _, _, h => nomatch h
  | ⟨_, .embedded _⟩ :: _, [], _, h => nomatch h
  | ⟨_, .external ..⟩ :: _, [], _, h => nomatch h
  | ⟨_, .embedded _⟩ :: _, ⟨_, .external ..⟩ :: _, _, h => by
      have hflags : 0 = chunkFlagExternal := congrArg IndexEntry.flags (List.cons.inj h).1
      exact absurd hflags (by decide)
  | ⟨_, .external ..⟩ :: _, ⟨_, .embedded _⟩ :: _, _, h => by
      have hflags : chunkFlagExternal = 0 := congrArg IndexEntry.flags (List.cons.inj h).1
      exact absurd hflags (by decide)
  | ⟨_, .external ..⟩ :: chunks₁, ⟨_, .external ..⟩ :: chunks₂, pos, h => by
      obtain ⟨hentry, hrest⟩ := List.cons.inj h
      obtain ⟨rfl, -, rfl, -, rfl⟩ := IndexEntry.mk.inj hentry
      refine (eq_or_collides_of_entriesAt hrest).imp_left ?_
      rintro rfl
      rfl
  | ⟨_, .embedded x⟩ :: chunks₁, ⟨_, .embedded y⟩ :: chunks₂, pos, h => by
      obtain ⟨hentry, hrest⟩ := List.cons.inj h
      obtain ⟨rfl, -, -, -, hhash⟩ := IndexEntry.mk.inj hentry
      rcases eq_or_collides hhash with rfl | hcollides
      · rcases eq_or_collides_of_entriesAt hrest with rfl | ⟨x', hx, y', hy, hcollides⟩
        · exact .inl rfl
        · exact .inr ⟨x', .tail _ hx, y', .tail _ hy, hcollides⟩
      · exact .inr ⟨x, .head _, y, .head _, hcollides⟩

section Root

variable {b b₁ b₂ header header₁ header₂ manifest manifest₁ manifest₂ index index₁ index₂ body body₁
  body₂ : Bytes} {v v₁ v₂ : CapsuleView} {builder builder₁ builder₂ : CapsuleBuilder}

theorem Sealed.preimages_eq (h : Sealed b v builder header manifest index body) :
    preimages b v = (manifest ++ index) :: payloads builder.chunks := by
  have hlength : v.chunks.length = builder.chunks.length := by
    rw [h.view_eq, viewOf, List.length_map]
  have hstop : headerLen + (manifest ++ index).length = headLen builder.chunks.length := by
    rw [← h.length_head]
    simp only [List.length_append, length_header h.head.emits_header]
  have hmetadata : slice (header ++ ((manifest ++ index) ++ body)) headerLen
      (headLen builder.chunks.length) = manifest ++ index :=
    slice_append (length_header h.head.emits_header) hstop
  have hbytes : b = header ++ ((manifest ++ index) ++ body) := by
    rw [h.bytes_eq, List.append_assoc]
  have hpayloads : v.chunks.filterMap ChunkView.payload? = payloads builder.chunks := by
    rw [h.view_eq]
    exact filterMap_payload builder.chunks
  rw [preimages, hlength, hpayloads, hbytes, hmetadata]

/-- Equal manifests and indices say the same of the capsule and its chunks. -/
theorem Sealed.fields_eq (h₁ : Sealed b₁ v₁ builder₁ header₁ manifest₁ index₁ body₁)
    (h₂ : Sealed b₂ v₂ builder₂ header₂ manifest₂ index₂ body₂)
    (heq : manifest₁ ++ index₁ = manifest₂ ++ index₂) :
    manifestFields builder₁ = manifestFields builder₂ ∧
      entriesAt (headLen builder₁.chunks.length) builder₁.chunks =
        entriesAt (headLen builder₁.chunks.length) builder₂.chunks := by
  have hlength : manifest₁.length = manifest₂.length :=
    (length_manifest h₁.head.emits_manifest).trans (length_manifest h₂.head.emits_manifest).symm
  obtain ⟨rfl, rfl⟩ := List.append_inj heq hlength
  have hcount : builder₁.chunks.length = builder₂.chunks.length := by
    have hlen := h₁.head.length_index.symm.trans h₂.head.length_index
    exact Nat.eq_of_mul_eq_mul_right (by decide) hlen
  refine ⟨?_, ?_⟩
  · have h := (decodeManifest_eq_ok.2 h₁.head.emits_manifest).symm.trans
      (decodeManifest_eq_ok.2 h₂.head.emits_manifest)
    exact Except.ok.inj h
  · have hindex : ∀ {builder : CapsuleBuilder}, builder.chunks.length = builder₁.chunks.length →
        Emits (encodeIndex (entriesAt (headLen builder.chunks.length) builder.chunks)) index₁ →
        decodeIndex index₁ (UInt32.ofNat builder₁.chunks.length) =
          .ok (entriesAt (headLen builder₁.chunks.length) builder.chunks) := by
      intro builder hn hemits
      rw [hn] at hemits
      refine decodeIndex_eq_ok.2 ⟨?_, hemits⟩
      rw [length_entriesAt, hn, UInt32.toNat_ofNat_of_lt' h₁.writable.count]
    exact Except.ok.inj ((hindex rfl h₁.head.emits_index).symm.trans
      (hindex hcount.symm h₂.head.emits_index))

end Root

end Capsule

/-- **The root hash commits to the content.**  Two accepted files with the same root hash have the
same contents, or two of the byte strings hashed in them collide. -/
theorem ncc97_root_commits (b₁ b₂ : Bytes) (v₁ v₂ : CapsuleView)
    (h₁ : CapsuleView.read b₁ = .ok v₁) (h₂ : CapsuleView.read b₂ = .ok v₂)
    (hroot : v₁.rootHash = v₂.rootHash) :
    (v₁.kind = v₂.kind ∧ v₁.capsuleId = v₂.capsuleId ∧ v₁.baseRoot = v₂.baseRoot ∧
      v₁.chunks = v₂.chunks) ∨
    ∃ x ∈ preimages b₁ v₁, ∃ y ∈ preimages b₂ v₂, Collides x y := by
  obtain ⟨builder₁, header₁, manifest₁, index₁, body₁, hsealed₁⟩ := exists_sealed h₁
  obtain ⟨builder₂, header₂, manifest₂, index₂, body₂, hsealed₂⟩ := exists_sealed h₂
  rw [hsealed₁.preimages_eq, hsealed₂.preimages_eq]
  have hmetadata : sha256 (manifest₁ ++ index₁) = sha256 (manifest₂ ++ index₂) := by
    rw [hsealed₁.view_eq, hsealed₂.view_eq] at hroot
    exact hroot
  rcases eq_or_collides hmetadata with heq | hcollides
  · obtain ⟨hfields, hentries⟩ := hsealed₁.fields_eq hsealed₂ heq
    obtain ⟨hkind, hid, hbase⟩ := ManifestFields.mk.inj hfields
    rcases eq_or_collides_of_entriesAt hentries with hchunks | ⟨x, hx, y, hy, hcollides⟩
    · refine .inl ?_
      rw [hsealed₁.view_eq, hsealed₂.view_eq]
      exact ⟨hkind, hid, hbase, congrArg (List.map view) hchunks⟩
    · exact .inr ⟨x, .tail _ hx, y, .tail _ hy, hcollides⟩
  · exact .inr ⟨_, .head _, _, .head _, hcollides⟩

open CapsuleSample in
theorem ncc97_root_commits_tampered : ∃ v₁ v₂, CapsuleView.read file = .ok v₁ ∧
    CapsuleView.read tampered = .ok v₂ ∧ (v₁.chunks = v₂.chunks ∨
      ∃ x ∈ preimages file v₁, ∃ y ∈ preimages tampered v₂, Collides x y) := by
  obtain ⟨rootHash, h₁, h₂, -⟩ := read_file_tampered
  refine ⟨_, _, h₁, h₂, ?_⟩
  exact (ncc97_root_commits file tampered _ _ h₁ h₂ rfl).imp_left fun h => h.2.2.2

end NTD97
