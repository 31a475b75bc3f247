import Mathlib
import NTD97.Graph
import NTD97.Capsule.Hash
import NTD97.Lib.Layout

/-!
# Capsule — the NCC97 container

    header 112 ▪ manifest 56 ▪ index 56 per chunk ▪ payloads, each at a multiple of 8

A capsule lists its chunks in an index: a chunk is embedded, and then its payload stands in the file,
or external, and then only its length and hash do.  The root hash in the header is that of manifest
and index; the index holds the hash of every payload.
-/

namespace NTD97

open Guard Wire Layout

/-- The letters `NCC97` and a zero byte. -/
def ncc97Magic : Bytes := [78, 67, 67, 57, 55, 0]

/-- The version of the container format. -/
structure CapsuleVersion where
  major : UInt16
  minor : UInt16
  deriving DecidableEq

/-- The version `0.2`. -/
def CapsuleVersion.current : CapsuleVersion where
  major := 0
  minor := 2

/-- A reader takes older minor versions of its own major version. -/
def CapsuleVersion.canRead (self other : CapsuleVersion) : Prop :=
  self.major = other.major ∧ other.minor ≤ self.minor

instance (self other : CapsuleVersion) : Decidable (self.canRead other) :=
  inferInstanceAs (Decidable (_ ∧ _))

/-- What a capsule asks of its reader: a container version and a graph version. -/
structure NativeIntelligenceContract where
  capsule : CapsuleVersion
  ir : IrVersion
  deriving DecidableEq

/-- The contract that a builder writes. -/
def NativeIntelligenceContract.current : NativeIntelligenceContract where
  capsule := .current
  ir := .current

/-- Both versions can be read. -/
def NativeIntelligenceContract.canRead (self other : NativeIntelligenceContract) : Prop :=
  self.capsule.canRead other.capsule ∧ self.ir.canRead other.ir

instance (self other : NativeIntelligenceContract) : Decidable (self.canRead other) :=
  inferInstanceAs (Decidable (_ ∧ _))

/-- What a chunk holds. -/
inductive SectionKind where
  | graph
  | tensors
  | tokenizer
  | codecs
  | router
  | adapters
  | capabilities
  | memorySchema
  | memoryState
  | deviceProfiles
  | provenance
  | signatures
  | assimilationLog
  | worldStateSchema
  | continuityState
  | embodimentProfile
  | generativeManifest
  deriving DecidableEq

/-- Whether all chunks are in the file, some may be elsewhere, or only a state is kept. -/
inductive CapsuleKind where
  | full
  | thin
  | state
  deriving DecidableEq

/-- Why a capsule is not written or not read. -/
inductive CapsuleError where
  | truncated
  | invalidMagic
  | invalidHeader
  | invalidManifest
  | invalidIndex
  | invalidCapsuleKind (raw : UInt8)
  | invalidSectionKind (raw : UInt16)
  | invalidChunkFlags (raw : UInt16)
  | unsupportedContract (contract : NativeIntelligenceContract)
  | metadataIntegrityMismatch
  | chunkIntegrityMismatch (kind : SectionKind)
  | externalChunkInFullCapsule
  | nonCanonicalLayout
  | overflow
  deriving DecidableEq

/-- Capsules hold no texts, so no text can be invalid. -/
instance : WireError CapsuleError where
  truncated := .truncated
  overflow := .overflow
  invalidUtf8 := .invalidHeader

/-- A chunk to be written: its bytes, or the length and hash of bytes kept elsewhere. -/
inductive ChunkSource where
  | embedded (bytes : Bytes)
  | external (logicalLen : UInt64) (hash : Digest)
  deriving DecidableEq

/-- A chunk of a builder. -/
structure ChunkSpec where
  kind : SectionKind
  source : ChunkSource
  deriving DecidableEq

/-- What a capsule is written from. -/
structure CapsuleBuilder where
  kind : CapsuleKind
  capsuleId : Block 16
  baseRoot : Option Digest
  chunks : List ChunkSpec
  deriving DecidableEq

/-- Where the bytes of a chunk that was read are. -/
inductive ChunkStorageView where
  | embedded (bytes : Bytes)
  | external
  deriving DecidableEq

/-- A chunk as the reader hands it out, with the length and hash of the index. -/
structure ChunkView where
  kind : SectionKind
  logicalLen : UInt64
  hash : Digest
  storage : ChunkStorageView
  deriving DecidableEq

/-- A capsule that was read: every hash in it has been checked. -/
structure CapsuleView where
  contract : NativeIntelligenceContract
  kind : CapsuleKind
  capsuleId : Block 16
  baseRoot : Option Digest
  rootHash : Digest
  chunks : List ChunkView
  deriving DecidableEq

/-- The fields of the header that are not constant. -/
structure HeaderFields where
  contract : NativeIntelligenceContract
  manifestOffset : UInt64
  manifestLen : UInt64
  indexOffset : UInt64
  indexLen : UInt64
  payloadOffset : UInt64
  chunkCount : UInt32
  rootHash : Digest

/-- The fields of the manifest. -/
structure ManifestFields where
  kind : CapsuleKind
  capsuleId : Block 16
  baseRoot : Option Digest

/-- What the index says of one chunk; an external chunk has offset `0`. -/
structure IndexEntry where
  kind : SectionKind
  flags : UInt16
  logicalLen : UInt64
  offset : UInt64
  hash : Digest

namespace Capsule

/-- The lengths of the fixed parts and the alignment of the payloads. -/
def headerLen : ℕ := 112
def manifestLen : ℕ := 56
def indexEntryLen : ℕ := 56
def alignment : ℕ := 8
def chunkFlagExternal : UInt16 := 0x0001
def manifestFlagHasBase : UInt8 := 0x01

/-- Writing a fixed part of the container. -/
abbrev Encoder := Put CapsuleError Unit

/-- Reading a fixed part off the front of the bytes. -/
abbrev Decoder := Get CapsuleError

/-! ## Header, manifest and index

The fixed parts, each with an encoder and a decoder that refuses a byte without a meaning unless it
is zero. -/

/-- The byte of a capsule kind in the manifest. -/
def kindByte : CapsuleKind → UInt8
  | .full => 1
  | .thin => 2
  | .state => 3

/-- The capsule kind of a byte. -/
def kindOf : UInt8 → Except CapsuleError CapsuleKind
  | 1 => .ok .full
  | 2 => .ok .thin
  | 3 => .ok .state
  | other => .error (.invalidCapsuleKind other)

/-- The code of a section kind in the index, from `1` on. -/
def sectionCode : SectionKind → UInt16
  | .graph => 1
  | .tensors => 2
  | .tokenizer => 3
  | .codecs => 4
  | .router => 5
  | .adapters => 6
  | .capabilities => 7
  | .memorySchema => 8
  | .memoryState => 9
  | .deviceProfiles => 10
  | .provenance => 11
  | .signatures => 12
  | .assimilationLog => 13
  | .worldStateSchema => 14
  | .continuityState => 15
  | .embodimentProfile => 16
  | .generativeManifest => 17

/-- The section kind of a code. -/
def sectionOf : UInt16 → Except CapsuleError SectionKind
  | 1 => .ok .graph
  | 2 => .ok .tensors
  | 3 => .ok .tokenizer
  | 4 => .ok .codecs
  | 5 => .ok .router
  | 6 => .ok .adapters
  | 7 => .ok .capabilities
  | 8 => .ok .memorySchema
  | 9 => .ok .memoryState
  | 10 => .ok .deviceProfiles
  | 11 => .ok .provenance
  | 12 => .ok .signatures
  | 13 => .ok .assimilationLog
  | 14 => .ok .worldStateSchema
  | 15 => .ok .continuityState
  | 16 => .ok .embodimentProfile
  | 17 => .ok .generativeManifest
  | other => .error (.invalidSectionKind other)

/-- The header's fields in the order of the file, with three reserved runs of zeros. -/
def encodeHeader (fields : HeaderFields) : Encoder := do
  tell ncc97Magic
  pushU16 112
  pushU16 fields.contract.capsule.major
  pushU16 fields.contract.capsule.minor
  pushU16 fields.contract.ir.major
  pushU16 fields.contract.ir.minor
  pushU32 0
  pushU64 fields.manifestOffset
  pushU64 fields.manifestLen
  pushU64 fields.indexOffset
  pushU64 fields.indexLen
  pushU64 fields.payloadOffset
  pushU32 fields.chunkCount
  pushU32 0
  tell fields.rootHash.bytes
  tell (List.replicate 12 0)

/-- The reserved bytes are looked at when all fields have been read. -/
def header : Decoder HeaderFields := do
  let magic ← take 6
  refuse (magic ≠ ncc97Magic) .invalidMagic
  let len ← u16
  refuse (len ≠ 112) .invalidHeader
  let capsuleMajor ← u16
  let capsuleMinor ← u16
  let irMajor ← u16
  let irMinor ← u16
  let flags ← u32
  let manifestOffset ← u64
  let manifestLen ← u64
  let indexOffset ← u64
  let indexLen ← u64
  let payloadOffset ← u64
  let chunkCount ← u32
  let reserved ← u32
  let rootHash ← block 32
  let tail ← take 12
  refuse (flags ≠ 0 ∨ reserved ≠ 0 ∨ tail.any (· ≠ 0)) .invalidHeader
  return {
    contract := ⟨⟨capsuleMajor, capsuleMinor⟩, ⟨irMajor, irMinor⟩⟩
    manifestOffset, manifestLen, indexOffset, indexLen, payloadOffset, chunkCount, rootHash }

/-- Only the first 112 bytes count; the rest of the file is the caller's. -/
def decodeHeader (bytes : Bytes) : Except CapsuleError HeaderFields := do
  refuse (bytes.length < headerLen) .truncated
  let (fields, _) ← header.run bytes
  return fields

/-- The flag that says that a base root is given. -/
def baseFlag (baseRoot : Option Digest) : UInt8 := if baseRoot.isSome then manifestFlagHasBase else 0

/-- A capsule without a base writes 32 zeros for it. -/
def baseBytes (baseRoot : Option Digest) : Digest :=
  baseRoot.getD ⟨List.replicate 32 0, List.length_replicate⟩

/-- The manifest: kind, flags, six zeros, capsule id and base root. -/
def encodeManifest (fields : ManifestFields) : Encoder := do
  pushU8 (kindByte fields.kind)
  pushU8 (baseFlag fields.baseRoot)
  tell (List.replicate 6 0)
  tell fields.capsuleId.bytes
  tell (baseBytes fields.baseRoot).bytes

/-- Without the flag the root must be 32 zeros. -/
def baseRootOf (flags : UInt8) (root : Digest) : Except CapsuleError (Option Digest) :=
  if flags &&& manifestFlagHasBase ≠ 0 then .ok (some root)
  else if root.bytes.any (· ≠ 0) then .error .invalidManifest
  else .ok none

/-- A byte that names a capsule kind. -/
def capsuleKind : Decoder CapsuleKind := do
  let raw ← u8
  kindOf raw

/-- A base root under the flags read before it. -/
def baseRoot (flags : UInt8) : Decoder (Option Digest) := do
  let root ← block 32
  baseRootOf flags root

/-- No flag but that of the base is known. -/
def manifest : Decoder ManifestFields := do
  let kind ← capsuleKind
  let flags ← u8
  let reserved ← take 6
  refuse (flags &&& ~~~ manifestFlagHasBase ≠ 0 ∨ reserved.any (· ≠ 0)) .invalidManifest
  let capsuleId ← block 16
  let baseRoot ← baseRoot flags
  return { kind, capsuleId, baseRoot }

/-- A manifest is 56 bytes, all of them used. -/
def decodeManifest (bytes : Bytes) : Except CapsuleError ManifestFields := do
  refuse (bytes.length ≠ manifestLen) .invalidManifest
  readAll manifest .invalidManifest bytes

/-- An entry of the index: section, flags, four zeros, length, offset and hash. -/
def encodeEntry (entry : IndexEntry) : Encoder := do
  pushU16 (sectionCode entry.kind)
  pushU16 entry.flags
  pushU32 0
  pushU64 entry.logicalLen
  pushU64 entry.offset
  tell entry.hash.bytes

/-- Two bytes that name a section kind. -/
def sectionKind : Decoder SectionKind := do
  let raw ← u16
  sectionOf raw

/-- An entry of the index; the flags are judged by the caller, which knows the kind of the capsule.
-/
def entry : Decoder IndexEntry := do
  let kind ← sectionKind
  let flags ← u16
  let reserved ← u32
  refuse (reserved ≠ 0) .invalidIndex
  let logicalLen ← u64
  let offset ← u64
  let hash ← block 32
  return { kind, flags, logicalLen, offset, hash }

/-- The entries one after the other, without a count: the header has it. -/
def encodeIndex (entries : List IndexEntry) : Encoder := entries.forM encodeEntry

/-- As many entries as the header counts, and nothing behind them. -/
def decodeIndex (bytes : Bytes) (count : UInt32) : Except CapsuleError (List IndexEntry) := do
  refuse (bytes.length ≠ count.toNat * indexEntryLen) .invalidIndex
  readAll (getN entry count.toNat) .invalidIndex bytes

/-- The root hash is over manifest and index together. -/
def metadataRoot (manifest index : Bytes) : Digest := sha256 (manifest ++ index)

/-! ## Offsets in 64 bits

Offsets are `usize`: each sum is checked where the source checks it. -/

/-- A sum that fits in 64 bits. -/
def checkedUsize (n : ℕ) : Except CapsuleError ℕ := do
  refuse (2 ^ 64 ≤ n) .overflow
  return n

/-- The next multiple of 8, where the sum that rounds up fits. -/
def checkedAlignUp (n : ℕ) : Except CapsuleError ℕ := do
  let _ ← checkedUsize (n + (alignment - 1))
  return alignUp alignment n

/-- The end of the part of a file that starts at `offset`. -/
def checkedRange (totalLen : ℕ) (offset len : UInt64) : Except CapsuleError ℕ := do
  let stop ← checkedUsize (offset.toNat + len.toNat)
  refuse (totalLen < stop) .truncated
  return stop

/-- The bytes from `start` up to `stop`. -/
def slice (bytes : Bytes) (start stop : ℕ) : Bytes := (bytes.drop start).take (stop - start)

/-- The index stands behind header and manifest. -/
def indexOffset : ℕ := headerLen + manifestLen

/-- The offsets of the payloads follow those of the index. -/
def payloadOffset (count : ℕ) : Except CapsuleError (ℕ × ℕ) := do
  let indexLen ← checkedUsize (count * indexEntryLen)
  let indexEnd ← checkedUsize (indexOffset + indexLen)
  let payloadOffset ← checkedAlignUp indexEnd
  return (indexLen, payloadOffset)

end Capsule

open Capsule

/-! ## Writing

A builder lays the payloads out first and knows the length of the file then; header, manifest and
index are copied to the front of it. -/

namespace CapsuleBuilder

/-- Whether a chunk's bytes are elsewhere. -/
def isExternal : ChunkSource → Bool
  | .embedded _ => false
  | .external .. => true

/-- The index entries, and the length of the file. -/
def layOut : ℕ → ℕ → List ChunkSpec → Except CapsuleError (List IndexEntry × ℕ)
  | _, fileLen, [] => return ([], fileLen)
  | cursor, fileLen, ⟨kind, .embedded bytes⟩ :: chunks => do
    let logicalLen ← lenU64 bytes.length
    let offset ← lenU64 cursor
    let stop ← checkedUsize (cursor + bytes.length)
    let next ← checkedAlignUp stop
    let (entries, fileLen) ← layOut next (max fileLen stop) chunks
    return ({ kind, flags := 0, logicalLen, offset, hash := sha256 bytes } :: entries, fileLen)
  | cursor, fileLen, ⟨kind, .external logicalLen hash⟩ :: chunks => do
    let (entries, fileLen) ← layOut cursor fileLen chunks
    return ({ kind, flags := chunkFlagExternal, logicalLen, offset := 0, hash } :: entries, fileLen)

/-- Copy an embedded payload to its place. -/
def copyChunk (out : Bytes) (chunk : ChunkSpec × IndexEntry) : Except CapsuleError Bytes :=
  match chunk.1.source with
  | .external .. => return out
  | .embedded bytes => do
    let _ ← checkedUsize (chunk.2.offset.toNat + bytes.length)
    return copyFromSlice out chunk.2.offset.toNat bytes

/-- `CapsuleBuilder::write`: the file is zeros until each part has been copied in. -/
def write (self : CapsuleBuilder) : Except CapsuleError Bytes := do
  refuse (self.kind = .full ∧ self.chunks.any fun chunk => isExternal chunk.source)
    .externalChunkInFullCapsule
  let chunkCount ← lenU32 self.chunks.length
  let (indexLen, payloadOffset) ← payloadOffset self.chunks.length
  let manifest ← written (encodeManifest {
    kind := self.kind, capsuleId := self.capsuleId, baseRoot := self.baseRoot })
  let (entries, fileLen) ← layOut payloadOffset payloadOffset self.chunks
  let index ← written (encodeIndex entries)
  let header ← written (encodeHeader {
    contract := .current
    manifestOffset := UInt64.ofNat headerLen
    manifestLen := UInt64.ofNat manifestLen
    indexOffset := UInt64.ofNat indexOffset
    indexLen := UInt64.ofNat indexLen
    payloadOffset := UInt64.ofNat payloadOffset
    chunkCount
    rootHash := metadataRoot manifest index })
  let out := List.replicate fileLen 0
  let out := copyFromSlice out 0 header
  let out := copyFromSlice out headerLen manifest
  let out := copyFromSlice out indexOffset index
  (self.chunks.zip entries).foldlM copyChunk out

end CapsuleBuilder

/-! ## Reading

Offsets in the header and the index must be those of the writer's own layout; payloads are checked
against their hashes one by one. -/

namespace CapsuleView

/-- The chunks of the index, and the length of the file. -/
def readChunks (bytes : Bytes) (kind : CapsuleKind) :
    ℕ → ℕ → List IndexEntry → Except CapsuleError (List ChunkView × ℕ)
  | _, fileLen, [] => return ([], fileLen)
  | expectedOffset, fileLen, entry :: entries => do
    refuse (entry.flags &&& ~~~ chunkFlagExternal ≠ 0) (.invalidChunkFlags entry.flags)
    if entry.flags &&& chunkFlagExternal ≠ 0 then
      refuse (entry.offset ≠ 0) .invalidIndex
      refuse (kind = .full) .externalChunkInFullCapsule
      let (chunks, fileLen) ← readChunks bytes kind expectedOffset fileLen entries
      return (⟨entry.kind, entry.logicalLen, entry.hash, .external⟩ :: chunks, fileLen)
    else
      refuse (entry.offset.toNat ≠ expectedOffset) .nonCanonicalLayout
      let stop ← checkedRange bytes.length entry.offset entry.logicalLen
      let next ← checkedAlignUp stop
      let payload := slice bytes entry.offset.toNat stop
      refuse (sha256 payload ≠ entry.hash) (.chunkIntegrityMismatch entry.kind)
      let (chunks, fileLen) ← readChunks bytes kind next stop entries
      return (⟨entry.kind, entry.logicalLen, entry.hash, .embedded payload⟩ :: chunks, fileLen)

/-- `CapsuleView::read`: metadata first, and no entry is looked at before the root hash holds. -/
def read (bytes : Bytes) : Except CapsuleError CapsuleView := do
  let header ← decodeHeader bytes
  refuse (¬ NativeIntelligenceContract.current.canRead header.contract)
    (.unsupportedContract header.contract)
  let (indexLen, payloadOffset) ← payloadOffset header.chunkCount.toNat
  refuse (header.manifestOffset ≠ UInt64.ofNat headerLen ∨
    header.manifestLen ≠ UInt64.ofNat manifestLen ∨
    header.indexOffset ≠ UInt64.ofNat indexOffset ∨ header.indexLen ≠ UInt64.ofNat indexLen ∨
    header.payloadOffset ≠ UInt64.ofNat payloadOffset) .nonCanonicalLayout
  let manifestEnd ← checkedRange bytes.length header.manifestOffset header.manifestLen
  let indexEnd ← checkedRange bytes.length header.indexOffset header.indexLen
  let manifestBytes := slice bytes header.manifestOffset.toNat manifestEnd
  let indexBytes := slice bytes header.indexOffset.toNat indexEnd
  refuse (metadataRoot manifestBytes indexBytes ≠ header.rootHash) .metadataIntegrityMismatch
  let manifest ← decodeManifest manifestBytes
  let entries ← decodeIndex indexBytes header.chunkCount
  let (chunks, fileLen) ← readChunks bytes manifest.kind payloadOffset payloadOffset entries
  refuse (bytes.length ≠ fileLen) .nonCanonicalLayout
  return {
    contract := header.contract
    kind := manifest.kind
    capsuleId := manifest.capsuleId
    baseRoot := manifest.baseRoot
    rootHash := header.rootHash
    chunks }

end CapsuleView

end NTD97
