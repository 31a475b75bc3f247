import Mathlib
import NTD97.NativeProgram
import NTD97.Tokenizer

/-!
# Generative — the NGM97 manifest, and programs that generate text

    magic ▪ 26 ▪ version ▪ token input ▪ distribution output ▪ vocabulary size ▪ 0

A generative program is a native program with a tokenizer; the manifest, which a capsule may lack,
says which input takes the tokens and which output is the distribution.
-/

namespace NTD97

open Guard Wire

/-- Which values of the graph the program reads and writes. -/
structure NativeGenerativeManifest where
  tokenInput : ValueId
  distributionOutput : UInt32
  vocabularySize : UInt32
  deriving DecidableEq

/-- Why a manifest is not written or not read. -/
inductive NativeGenerativeManifestError where
  | truncated
  | invalidMagic
  | invalidHeader
  | unsupportedVersion (major minor : UInt16)
  | invalidVocabulary
  | nonCanonicalEncoding
  deriving DecidableEq

/-- A manifest holds no texts and no lengths. -/
instance : WireError NativeGenerativeManifestError where
  truncated := .truncated
  overflow := .invalidHeader
  invalidUtf8 := .invalidHeader

namespace Generative

/-- Writing a manifest. -/
abbrev Encoder := Put NativeGenerativeManifestError Unit

/-- Reading a manifest. -/
abbrev Decoder := Get NativeGenerativeManifestError

/-- The letters `NGM97` and a zero byte. -/
def nativeGenerativeManifestMagic : Bytes := [78, 71, 77, 57, 55, 0]

/-- The version `0.1`. -/
def nativeGenerativeManifestMajor : UInt16 := 0

def nativeGenerativeManifestMinor : UInt16 := 1

/-- A manifest and the minor version it is written under. -/
def encodeManifest (m : UInt16 × NativeGenerativeManifest) : Encoder := do
  tell nativeGenerativeManifestMagic
  pushU16 26
  pushU16 nativeGenerativeManifestMajor
  pushU16 m.1
  pushU32 m.2.tokenInput.val
  pushU32 m.2.distributionOutput
  pushU32 m.2.vocabularySize
  pushU16 0

/-- A manifest with the minor version it states. -/
def manifest : Decoder (UInt16 × NativeGenerativeManifest) := do
  let magic ← take 6
  refuse (magic ≠ nativeGenerativeManifestMagic) .invalidMagic
  let len ← u16
  refuse (len ≠ 26) .invalidHeader
  let major ← u16
  let minor ← u16
  refuse (major ≠ nativeGenerativeManifestMajor ∨ nativeGenerativeManifestMinor < minor)
    (.unsupportedVersion major minor)
  let tokenInput ← u32
  let distributionOutput ← u32
  let vocabularySize ← u32
  refuse (vocabularySize = 0) .invalidVocabulary
  let reserved ← u16
  refuse (reserved ≠ 0) .nonCanonicalEncoding
  return (minor, { tokenInput := ⟨tokenInput⟩, distributionOutput, vocabularySize })

/-- **A manifest is read back** for every minor version that the build knows. -/
theorem inverse_manifest :
    Inverse (fun m : UInt16 × NativeGenerativeManifest =>
      m.1 ≤ nativeGenerativeManifestMinor ∧ m.2.vocabularySize ≠ 0) encodeManifest manifest := by
  refine (inverse_take 6).checked (fun _ => nativeGenerativeManifestMagic)
    (fun _ _ => ⟨rfl, not_not.2 rfl⟩) fun _ _ hmagic => ?_
  refine inverse_u16.checked (fun _ => 26) (fun _ _ => ⟨trivial, not_not.2 rfl⟩)
    fun _ _ hlen => ?_
  refine inverse_u16.field (fun _ => nativeGenerativeManifestMajor) (fun _ _ => trivial)
    fun _ _ => ?_
  refine inverse_u16.checked (fun m : UInt16 × NativeGenerativeManifest => m.1) ?_
    fun _ _ hversion => ?_
  · rintro m ⟨⟨⟨⟨hminor, -⟩, -⟩, -⟩, rfl⟩
    exact ⟨trivial, not_or.2 ⟨not_not.2 rfl, UInt16.not_lt.2 hminor⟩⟩
  refine inverse_u32.field (fun m : UInt16 × NativeGenerativeManifest => m.2.tokenInput.val)
    (fun _ _ => trivial) fun _ _ => ?_
  refine inverse_u32.field (fun m : UInt16 × NativeGenerativeManifest => m.2.distributionOutput)
    (fun _ _ => trivial) fun _ _ => ?_
  refine inverse_u32.checked (fun m : UInt16 × NativeGenerativeManifest => m.2.vocabularySize) ?_
    fun _ _ hvocabulary => ?_
  · rintro m ⟨⟨⟨⟨⟨⟨⟨-, hvocabulary⟩, -⟩, -⟩, -⟩, -⟩, -⟩, -⟩
    exact ⟨trivial, hvocabulary⟩
  refine inverse_u16.lastChecked (fun _ => 0) ?_ fun reserved _ hreserved =>
    ⟨⟨⟨⟨⟨⟨⟨⟨⟨?_, hvocabulary⟩, (not_not.1 hmagic).symm⟩, (not_not.1 hlen).symm⟩, ?_⟩, rfl⟩, rfl⟩,
      rfl⟩, rfl⟩, (not_not.1 hreserved).symm⟩
  · rintro ⟨_, ⟨_⟩, _, _⟩ ⟨⟨⟨⟨-, rfl⟩, rfl⟩, rfl⟩, rfl⟩
    exact ⟨⟨trivial, not_not.2 rfl⟩, rfl⟩
  · exact UInt16.not_lt.1 (not_or.1 hversion).2
  · exact (not_not.1 (not_or.1 hversion).1).symm

end Generative

open Generative

/-- `encode_native_generative_manifest` writes the current version. -/
def encodeNativeGenerativeManifest (manifest : NativeGenerativeManifest) :
    Except NativeGenerativeManifestError Bytes := do
  refuse (manifest.vocabularySize = 0) .invalidVocabulary
  written (encodeManifest (nativeGenerativeManifestMinor, manifest))

/-- `decode_native_generative_manifest`: all bytes are used up. -/
def decodeNativeGenerativeManifest (bytes : Bytes) :
    Except NativeGenerativeManifestError NativeGenerativeManifest := do
  let (_, manifest) ← readAll manifest .nonCanonicalEncoding bytes
  return manifest

/-- A written manifest is read back. -/
theorem decodeNativeGenerativeManifest_of_encode {m : NativeGenerativeManifest} {b : Bytes}
    (h : encodeNativeGenerativeManifest m = .ok b) : decodeNativeGenerativeManifest b = .ok m := by
  obtain ⟨⟨⟩, hvocabulary, hb⟩ := bind_eq_ok.1 h
  have hread : readAll manifest .nonCanonicalEncoding b =
      .ok (nativeGenerativeManifestMinor, m) :=
    inverse_manifest.readAll_eq_ok.2 ⟨⟨UInt16.le_refl _, refuse_eq_ok.1 hvocabulary⟩, hb⟩
  rw [decodeNativeGenerativeManifest, hread]
  rfl

/-! ## Programs

A native program, its tokenizer and, if there is one, its manifest, each from the chunks of a
capsule. -/

/-- What is loaded of a capsule. -/
structure NativeGenerativeProgram where
  program : NativeProgram
  tokenizer : NativeTokenizerDescriptor
  manifest : Option NativeGenerativeManifest
  deriving DecidableEq

/-- Why a capsule holds no program. -/
inductive NativeGenerativeError where
  | program (e : NativeTensorError)
  | tokenizer (e : NativeTokenizerError)
  | missingTokenizer
  | multipleTokenizers
  | manifest (e : NativeGenerativeManifestError)
  | multipleGenerativeManifests
  | missingExternalContent (hash : Digest)
  | externalLengthMismatch (expected actual : UInt64)
  | externalIntegrityMismatch (hash : Digest)
  | overflow
  deriving DecidableEq

instance : WireError NativeGenerativeError where
  truncated := .overflow
  overflow := .overflow
  invalidUtf8 := .overflow

namespace NativeGenerativeProgram

/-- The bytes of a chunk; those kept elsewhere are checked by length and hash. -/
def resolveChunk (store : ContentStore) (chunk : ChunkView) : Except NativeGenerativeError Bytes :=
  match chunk.storage with
  | .embedded bytes => return bytes
  | .external => do
    let bytes ← okOr (store chunk.hash) (.missingExternalContent chunk.hash)
    let actual ← lenU64 bytes.length
    refuse (actual ≠ chunk.logicalLen) (.externalLengthMismatch chunk.logicalLen actual)
    refuse (sha256 bytes ≠ chunk.hash) (.externalIntegrityMismatch chunk.hash)
    return bytes

/-- The only tokenizer chunk. -/
def tokenizerChunk : List ChunkView → Except NativeGenerativeError ChunkView
  | [] => throw .missingTokenizer
  | [chunk] => return chunk
  | _ :: _ :: _ => throw .multipleTokenizers

/-- The manifest, if there is a chunk for it. -/
def loadManifest (store : ContentStore) :
    List ChunkView → Except NativeGenerativeError (Option NativeGenerativeManifest)
  | [] => return none
  | [chunk] => do
    let bytes ← resolveChunk store chunk
    let manifest ← (decodeNativeGenerativeManifest bytes).mapError .manifest
    return some manifest
  | _ :: _ :: _ => throw .multipleGenerativeManifests

end NativeGenerativeProgram

open NativeGenerativeProgram

/-- `load_native_generative_program`: a program may do without a manifest. -/
def loadNativeGenerativeProgram (capsule : CapsuleView) (store : ContentStore) :
    Except NativeGenerativeError NativeGenerativeProgram := do
  let program ← (loadNativeProgram capsule store).mapError .program
  let chunk ← tokenizerChunk (capsule.chunks.filter (·.kind = .tokenizer))
  let bytes ← resolveChunk store chunk
  let tokenizer ← (decodeNativeTokenizer bytes).mapError .tokenizer
  let manifest ← loadManifest store (capsule.chunks.filter (·.kind = .generativeManifest))
  return { program, tokenizer, manifest }

/-- **A full program loads when its native program does**, for chunks that embed a tokenizer and a
manifest. -/
theorem loadNativeGenerativeProgram_eq_ok {capsule : CapsuleView} {store : ContentStore}
    {program : NativeGenerativeProgram} {chunk chunk' : ChunkView} {b b' : Bytes}
    {tokenizer : NativeTokenizerDescriptor} {manifest : NativeGenerativeManifest}
    (hchunk : capsule.chunks.filter (·.kind = .tokenizer) = [chunk])
    (hstorage : chunk.storage = .embedded b) (htokenizer : decodeNativeTokenizer b = .ok tokenizer)
    (hchunk' : capsule.chunks.filter (·.kind = .generativeManifest) = [chunk'])
    (hstorage' : chunk'.storage = .embedded b')
    (hmanifest : decodeNativeGenerativeManifest b' = .ok manifest) :
    loadNativeGenerativeProgram capsule store = .ok program ↔
      loadNativeProgram capsule store = .ok program.program ∧ program.tokenizer = tokenizer ∧
        program.manifest = some manifest := by
  have hresolve {c : ChunkView} {bytes : Bytes} (h : c.storage = .embedded bytes) :
      resolveChunk store c = .ok bytes := by
    rw [resolveChunk, h]
    rfl
  have hbytes := hresolve hstorage
  have hload : loadManifest store [chunk'] = .ok (some manifest) :=
    bind_eq_ok.2 ⟨b', hresolve hstorage', bind_eq_ok.2 ⟨manifest, mapError_eq_ok.2 hmanifest, rfl⟩⟩
  have htokenizerChunk : tokenizerChunk [chunk] = .ok chunk := rfl
  simp only [loadNativeGenerativeProgram, hchunk, hchunk', hload, hbytes, htokenizerChunk,
    htokenizer, bind_eq_ok, mapError_eq_ok, Except.ok.injEq, exists_eq_left', pure_eq_ok]
  constructor
  · rintro ⟨p, hp, rfl⟩
    exact ⟨hp, rfl, rfl⟩
  · rintro ⟨hp, rfl, hm⟩
    exact ⟨_, hp, by rw [← hm]⟩

end NTD97
