import Mathlib
import NTD97.Activation
import NTD97.Capability

/-!
# Package — signed native assets

    candidate ──sections──▸ payload ──sign──▸ capsule ──verify──▸ package
      full:  v1 ▪ count ▪ (kind, length, hash) …
      thin:  v2 ▪ count ▪ (kind, embedded or external, length, hash) …

A package is a capsule that ends in a signature over the list of its other chunks.  Its identity
stands in the assimilation log, one of those chunks; verification reads everything it trusts back
from the capsule.
-/

namespace NTD97

open Guard Wire Text

/-- The signature library underneath. -/
structure Ed25519 where
  /-- The key of a signing seed. -/
  verifyingKey : Block 32 → Block 32
  sign : Block 32 → Bytes → Block 64
  /-- Whether a block is a key. -/
  isKey : Block 32 → Bool
  verify : Block 32 → Bytes → Block 64 → Bool

/-- What a package is. -/
inductive AssetKind where
  | capability
  | intelligence
  deriving DecidableEq

/-- What is wrong with a candidate; an error stands for its debug text. -/
inductive CandidateFault where
  | text (text : String)
  | capability (e : CapabilityError)
  | graph (e : ValidationError)
  deriving DecidableEq

/-- Why a chunk is not read as a graph. -/
inductive GraphSectionError where
  | wrongSection (kind : SectionKind)
  | externalGraph
  | codec (e : IrCodecError)
  deriving DecidableEq

/-- What the sandbox rejected a candidate for; an error stands for its debug text. -/
inductive SandboxFault where
  | text (text : String)
  | graph (e : IrCodecError)
  deriving DecidableEq

/-- What a capsule was refused for; an error stands for its debug text. -/
inductive PackageFault where
  | capsule (e : CapsuleError)
  | graph (e : IrCodecError)
  | graphSection (e : GraphSectionError)
  | descriptors (e : DescriptorError)
  | tokenizer (e : NativeTokenizerError)
  | generativeManifest (e : NativeGenerativeManifestError)
  | program (e : NativeGenerativeError)
  | activation (e : ThinActivationError)
  deriving DecidableEq

/-- Why a package is not built or not accepted. -/
inductive AssimilationError where
  | invalidProvenance
  | invalidCandidate (fault : CandidateFault)
  | sandboxNotIsolated
  | sandboxRejected (fault : SandboxFault)
  | regressionMissing (name : String)
  | capsule (fault : PackageFault)
  | invalidSignature
  | untrustedSigner
  | invalidPackage
  | versionConflict
  | missingAsset (assetId : String)
  | missingVersion (assetId : String) (version : UInt32)
  | overflow
  deriving DecidableEq

instance : WireError AssimilationError where
  truncated := .invalidPackage
  overflow := .overflow
  invalidUtf8 := .invalidPackage

/-- A signer; the key follows from the seed. -/
structure AssimilationIdentity where
  signingSeed : Block 32
  verifyKey : Block 32
  deriving DecidableEq

namespace AssimilationIdentity

/-- The signer of a seed. -/
def fromSeed (ed : Ed25519) (signingSeed : Block 32) : AssimilationIdentity where
  signingSeed := signingSeed
  verifyKey := ed.verifyingKey signingSeed

/-- A signature of this signer. -/
def sign (ed : Ed25519) (self : AssimilationIdentity) (bytes : Bytes) : Block 64 :=
  ed.sign self.signingSeed bytes

end AssimilationIdentity

/-- A package with what its capsule was said to hold. -/
structure NativePackage where
  assetId : String
  version : UInt32
  kind : AssetKind
  nativeCapsule : Bytes
  capsuleHash : Digest
  capability : Option CapabilityDescriptor
  deriving DecidableEq

/-! ## Candidates

What is assimilated is checked on its own before a byte of it is written. -/

/-- The license of an asset. -/
structure LicenseRecord where
  spdxId : String
  notice : String
  deriving DecidableEq

/-- Where an asset comes from. -/
structure ProvenanceRecord where
  sourceUri : String
  sourceDigest : Digest
  license : LicenseRecord
  attribution : String
  deriving DecidableEq

/-- The source and the license are named. -/
def ProvenanceRecord.validate (self : ProvenanceRecord) : Except AssimilationError Unit :=
  refuse (isBlank self.sourceUri ∨ isBlank self.license.spdxId) .invalidProvenance

/-- The code of a capability, in some format. -/
structure NativeAdapter where
  format : String
  bytes : Bytes
  deriving DecidableEq

/-- It has a format and bytes. -/
def NativeAdapter.validate (self : NativeAdapter) : Except AssimilationError Unit :=
  refuse (isBlank self.format ∨ self.bytes = []) (.invalidCandidate (.text "empty native adapter"))

/-- A section of an intelligence next to its graph. -/
structure NativeSection where
  kind : SectionKind
  bytes : Bytes
  deriving DecidableEq

/-- What a regression looks at. -/
inductive RegressionProbe where
  | graphRoundTrip
  | adapterDigest (expected : Digest)
  deriving DecidableEq

/-- A regression by its name. -/
structure RegressionCase where
  name : String
  probe : RegressionProbe
  deriving DecidableEq

/-- It has a name. -/
def RegressionCase.validate (self : RegressionCase) : Except AssimilationError Unit :=
  refuse (isBlank self.name) (.invalidCandidate (.text "empty regression name"))

/-- A capability or an intelligence. -/
inductive CandidateBody where
  | capability (descriptor : CapabilityDescriptor) (adapter : NativeAdapter)
  | intelligence (graph : Graph) (sections : List NativeSection)
  deriving DecidableEq

/-- A candidate: what both of its kinds have, and what each has of its own. -/
structure NativeCandidate where
  assetId : String
  version : UInt32
  regressions : List RegressionCase
  body : CandidateBody
  deriving DecidableEq

namespace NativeCandidate

/-- What the candidate becomes. -/
def kind (self : NativeCandidate) : AssetKind :=
  match self.body with
  | .capability .. => .capability
  | .intelligence .. => .intelligence

/-- The names of regressions, after those of `names`. -/
def validateRegressions : List String → List RegressionCase →
    Except AssimilationError (List String)
  | names, [] => return names
  | names, regression :: regressions => do
    regression.validate
    refuse (trim regression.name ∈ names) (.invalidCandidate (.text "duplicate regression"))
    validateRegressions (trim regression.name :: names) regressions

/-- The sections after those of the kinds `kinds`. -/
def validateSections : List SectionKind → List NativeSection → Except AssimilationError Unit
  | _, [] => return ()
  | kinds, native :: sections => do
    refuse (native.bytes = [] ∨
      native.kind ∈ [SectionKind.graph, .provenance, .signatures, .assimilationLog])
      (.invalidCandidate (.text "invalid native section set"))
    if native.kind ≠ .tensors then do
      refuse (native.kind ∈ kinds)
        (.invalidCandidate (.text "duplicate singleton native section"))
      validateSections (native.kind :: kinds) sections
    else validateSections kinds sections

/-- `validate` of a candidate: identity, regressions, body. -/
def validate (self : NativeCandidate) : Except AssimilationError Unit := do
  refuse (isBlank self.assetId ∨ self.version = 0)
    (.invalidCandidate (.text "invalid asset identity"))
  let names ← validateRegressions [] self.regressions
  refuse (names = []) (.invalidCandidate (.text "at least one regression is required"))
  match self.body with
  | .capability descriptor adapter => do
    let _ ← descriptor.normalize.mapError fun e => .invalidCandidate (.capability e)
    adapter.validate
  | .intelligence graph sections => do
    graph.validate.mapError fun e => .invalidCandidate (.graph e)
    validateSections [] sections

end NativeCandidate

/-- What the sandbox says of a run. -/
structure SandboxReport where
  isolated : Bool
  networkUsed : Bool
  externalWriteUsed : Bool
  passedRegressions : List String
  deriving DecidableEq

namespace Package

/-- Writing a section. -/
abbrev Encoder := Put AssimilationError Unit

/-- Reading a section. -/
abbrev Decoder := Get AssimilationError

/-- The sandbox was isolated and every regression passed. -/
def validateReport (candidate : NativeCandidate) (report : SandboxReport) :
    Except AssimilationError Unit := do
  refuse (¬ report.isolated ∨ report.networkUsed ∨ report.externalWriteUsed) .sandboxNotIsolated
  candidate.regressions.forM fun regression =>
    refuse (trim regression.name ∉ report.passedRegressions) (.regressionMissing regression.name)

/-- A streamed package has no candidate; one regression is asked for by name. -/
def validateStreamedReport (report : SandboxReport) : Except AssimilationError Unit := do
  refuse (¬ report.isolated ∨ report.networkUsed ∨ report.externalWriteUsed) .sandboxNotIsolated
  let unique := report.passedRegressions.map trim
  refuse (¬ unique.Nodup) .invalidPackage
  refuse ("nir97-roundtrip" ∉ unique) (.regressionMissing "nir97-roundtrip")

/-! ## Sections

The records of a package: provenance, log, adapter, descriptor and signature. -/

/-- A record's magic and its version `0.1`. -/
def putMagic (magic : Bytes) : Encoder := do
  tell magic
  pushU16 0
  pushU16 1

/-- A record's magic and a version that can be read. -/
def magic (expected : Bytes) : Decoder Unit := do
  let found ← take 6
  refuse (found ≠ expected) .invalidPackage
  let major ← u16
  refuse (major ≠ 0) .invalidPackage
  let minor ← u16
  refuse (1 < minor) .invalidPackage

/-- The magics of the five records. -/
def provenanceMagic : Bytes := [78, 80, 82, 57, 55, 0]
def logMagic : Bytes := [78, 65, 76, 57, 55, 0]
def adapterMagic : Bytes := [78, 65, 68, 57, 55, 0]
def capabilityMagic : Bytes := [78, 67, 80, 57, 55, 0]
def signatureMagic : Bytes := [78, 65, 83, 57, 55, 0]
def signatureLen : ℕ := 106

/-- The provenance; it is never read back. -/
def encodeProvenance (provenance : ProvenanceRecord) : Except AssimilationError Bytes := written do
  putMagic provenanceMagic
  pushString provenance.sourceUri
  tell provenance.sourceDigest.bytes
  pushString provenance.license.spdxId
  pushString provenance.license.notice
  pushString provenance.attribution

/-- The byte of a kind. -/
def assetKindByte : AssetKind → UInt8
  | .capability => 1
  | .intelligence => 2

/-- The kind of a byte. -/
def assetKindOf : UInt8 → Except AssimilationError AssetKind
  | 1 => .ok .capability
  | 2 => .ok .intelligence
  | _ => .error .invalidPackage

/-- The log, which states the identity of the asset. -/
def encodeAssimilationLog (assetId : String) (version : UInt32) (kind : AssetKind)
    (importerId : String) (regressions : List String) : Except AssimilationError Bytes := written do
  putMagic logMagic
  pushU8 (assetKindByte kind)
  pushString assetId
  pushU32 version
  pushString importerId
  pushList pushString regressions

/-- What an assimilation log says of its asset. -/
abbrev LogEntry := String × UInt32 × AssetKind

/-- The importer and the regressions of a log are read and dropped. -/
def assimilationLog : Decoder LogEntry := do
  magic logMagic
  let kind ← assetKindOf (← u8)
  let assetId ← string
  let version ← u32
  let _ ← string
  let _ ← getList string
  return (assetId, version, kind)

/-- All bytes are used up. -/
def decodeAssimilationLog (bytes : Bytes) : Except AssimilationError LogEntry :=
  readAll assimilationLog .invalidPackage bytes

/-- An adapter behind its format. -/
def encodeAdapter (format : String) (bytes : Bytes) : Except AssimilationError Bytes := written do
  refuse (isBlank format ∨ bytes = []) .invalidPackage
  putMagic adapterMagic
  pushString format
  pushBytes bytes

/-- The byte of a domain. -/
def domainByte : CapabilityDomain → UInt8
  | .web => 1
  | .browser => 2
  | .file => 3
  | .device => 4
  | .app => 5
  | .custom => 6
  | .pc => 7

/-- The domain of a byte. -/
def domainOf : UInt8 → Except AssimilationError CapabilityDomain
  | 1 => .ok .web
  | 2 => .ok .browser
  | 3 => .ok .file
  | 4 => .ok .device
  | 5 => .ok .app
  | 6 => .ok .custom
  | 7 => .ok .pc
  | other => .error (.invalidCandidate (.capability (.invalidDomain other)))

/-- The byte of a side effect class. -/
def sideEffectByte : SideEffectClass → UInt8
  | .readOnly => 1
  | .reversible => 2
  | .externalWrite => 3
  | .irreversible => 4

/-- The side effect class of a byte. -/
def sideEffectOf : UInt8 → Except AssimilationError SideEffectClass
  | 1 => .ok .readOnly
  | 2 => .ok .reversible
  | 3 => .ok .externalWrite
  | 4 => .ok .irreversible
  | _ => .error .invalidPackage

/-- The fields of a descriptor in normal form. -/
def putCapability (descriptor : CapabilityDescriptor) : Encoder := do
  putMagic capabilityMagic
  pushString descriptor.id.val
  pushU32 descriptor.version
  pushU8 (domainByte descriptor.domain)
  pushU8 (sideEffectByte descriptor.sideEffect)
  pushBool descriptor.verificationRequired
  pushBool descriptor.rollbackSupported
  pushBool descriptor.resumable
  pushList (fun scope => pushString scope.value) descriptor.requiredScopes

/-- The fields of a descriptor. -/
def encodeCapabilityDescriptor (descriptor : CapabilityDescriptor) :
    Except AssimilationError Bytes := do
  let descriptor ← descriptor.normalize.mapError fun e => .invalidCandidate (.capability e)
  written (putCapability descriptor)

/-- A scope, which is trimmed and must not be blank. -/
def scopeOf (value : String) : Except AssimilationError AuthorityScope :=
  (AuthorityScope.new value).mapError fun e => .invalidCandidate (.capability e)

/-- A scope off the front of the bytes. -/
def scope : Decoder AuthorityScope := do
  let value ← string
  scopeOf value

/-- A byte that is `0` or `1`. -/
def flag : Decoder Bool := boolean fun _ => AssimilationError.invalidPackage

/-- A descriptor as it is written, before it is checked. -/
def capabilityFields : Decoder CapabilityDescriptor := do
  magic capabilityMagic
  let id ← string
  let version ← u32
  let domain ← domainOf (← u8)
  let sideEffect ← sideEffectOf (← u8)
  let verificationRequired ← flag
  let rollbackSupported ← flag
  let resumable ← flag
  let requiredScopes ← getList scope
  return {
    id := ⟨id⟩
    version, domain, sideEffect, verificationRequired, rollbackSupported, resumable, requiredScopes }

/-- A descriptor in normal form. -/
def decodeCapabilityDescriptor (bytes : Bytes) : Except AssimilationError CapabilityDescriptor := do
  let fields ← readAll capabilityFields .invalidPackage bytes
  let descriptor ← (CapabilityDescriptor.new fields.id fields.version fields.domain
    fields.sideEffect).mapError fun e => AssimilationError.invalidCandidate (.capability e)
  let descriptor := { descriptor with
    verificationRequired := fields.verificationRequired
    rollbackSupported := fields.rollbackSupported
    resumable := fields.resumable
    requiredScopes := fields.requiredScopes }
  descriptor.normalize.mapError fun e => .invalidCandidate (.capability e)

/-! ## Signatures

What is signed is the list of the other chunks, each with its kind, length and hash. -/

/-- The signature chunk: magic, version, key and signature. -/
def encodeSignature (verifyKey : Block 32) (signature : Block 64) : Bytes :=
  signatureMagic ++ leBytes 2 0 ++ leBytes 2 1 ++ verifyKey.bytes ++ signature.bytes

/-- The key and the signature of a chunk of 106 bytes. -/
def decodeSignature (bytes : Bytes) : Except AssimilationError (Block 32 × Block 64) := do
  refuse (bytes.length ≠ signatureLen ∨ bytes.take 6 ≠ signatureMagic ∨ u16At bytes 6 ≠ 0 ∨
    1 < u16At bytes 8) .invalidSignature
  let (key, rest) ← (block 32 : Decoder (Block 32)).run (bytes.drop 10)
  let (signature, _) ← (block 64 : Decoder (Block 64)).run rest
  return (key, signature)

/-- A section of a full package, as it is signed. -/
def signedSection (signed : SectionKind × Bytes) : Encoder := do
  pushU16 (Capsule.sectionCode signed.1)
  pushUsize signed.2.length
  tell (sha256 signed.2).bytes

/-- What is signed of a full package. -/
def sectionSigningPayload (sections : List (SectionKind × Bytes)) : Except AssimilationError Bytes :=
  written do
    tell (utf8 "NTD97-NATIVE-ASSET-SIGN-v1")
    pushList signedSection sections

/-- A chunk of a thin package: a kind, and its contents or where to find them. -/
abbrev ThinPackageChunk := ChunkSpec

namespace ThinPackageChunk

/-- The length of a chunk's contents, wherever they are. -/
def logicalLen (self : ThinPackageChunk) : Except AssimilationError UInt64 :=
  match self.source with
  | .embedded bytes => lenU64 bytes.length
  | .external logicalLen _ => return logicalLen

/-- The hash of a chunk's contents. -/
def hash (self : ThinPackageChunk) : Digest :=
  match self.source with
  | .embedded bytes => sha256 bytes
  | .external _ hash => hash

/-- Whether a chunk's contents are in the file. -/
def storageTag (self : ThinPackageChunk) : UInt8 :=
  match self.source with
  | .embedded _ => 0
  | .external .. => 1

end ThinPackageChunk

/-- A chunk of a thin package, as it is signed. -/
def signedChunk (chunk : ThinPackageChunk) : Encoder := do
  pushU16 (Capsule.sectionCode chunk.kind)
  pushU8 (ThinPackageChunk.storageTag chunk)
  pushU8 0
  let len ← ThinPackageChunk.logicalLen chunk
  pushU64 len
  tell (ThinPackageChunk.hash chunk).bytes

/-- What is signed of a thin package. -/
def thinSectionSigningPayload (chunks : List ThinPackageChunk) : Except AssimilationError Bytes :=
  written do
    tell (utf8 "NTD97-NATIVE-ASSET-SIGN-v2")
    pushList signedChunk chunks

/-! ## Verifying

One walk over the chunks gathers them by kind; everything the package states is compared with what
they hold. -/

/-- What a walk over the chunks has gathered. -/
structure Gathered (α : Type) where
  signable : List α
  signature : Option (Block 32 × Block 64)
  log : Option LogEntry

/-- Nothing gathered yet. -/
def Gathered.empty {α : Type} : Gathered α where
  signable := []
  signature := none
  log := none

/-- The signature of a chunk, which must be the first. -/
def Gathered.sign {α : Type} (self : Gathered α) (bytes : Bytes) :
    Except AssimilationError (Gathered α) := do
  let signature ← decodeSignature bytes
  refuse self.signature.isSome .invalidPackage
  return { self with signature := some signature }

/-- One chunk of a full capsule; of several logs the last one counts. -/
def gather (self : Gathered (SectionKind × Bytes)) (chunk : ChunkView) :
    Except AssimilationError (Gathered (SectionKind × Bytes)) :=
  match chunk.storage with
  | .external => throw .invalidPackage
  | .embedded bytes =>
    if chunk.kind = .signatures then self.sign bytes
    else do
      let signable := self.signable ++ [(chunk.kind, bytes)]
      if chunk.kind = .assimilationLog then do
        let log ← decodeAssimilationLog bytes
        return { self with signable, log := some log }
      else return { self with signable }

/-- One chunk of a thin capsule; a second log is refused. -/
def gatherThin (self : Gathered ThinPackageChunk) (chunk : ChunkView) :
    Except AssimilationError (Gathered ThinPackageChunk) :=
  match chunk.storage with
  | .external => do
    refuse (chunk.kind ≠ .tensors) .invalidPackage
    return { self with
      signable := self.signable ++ [⟨chunk.kind, .external chunk.logicalLen chunk.hash⟩] }
  | .embedded bytes =>
    if chunk.kind = .signatures then self.sign bytes
    else do
      let signable := self.signable ++ [⟨chunk.kind, .embedded bytes⟩]
      if chunk.kind = .assimilationLog then do
        let log ← decodeAssimilationLog bytes
        refuse self.log.isSome .invalidPackage
        return { self with signable, log := some log }
      else return { self with signable }

/-- The signature under the trusted key holds for the message. -/
def checkSignature (ed : Ed25519) (signature : Option (Block 32 × Block 64))
    (trustedVerifyKey : Block 32) (payload : Except AssimilationError Bytes) :
    Except AssimilationError Unit := do
  let (verifyKey, signature) ← okOr signature .invalidSignature
  refuse (verifyKey ≠ trustedVerifyKey) .untrustedSigner
  let message ← payload
  refuse (¬ ed.isKey verifyKey) .invalidSignature
  refuse (¬ ed.verify verifyKey message signature) .invalidSignature

end Package

open Package

/-- `load_native_capability`: the descriptor of a capsule. -/
def loadNativeCapability (nativeCapsule : Bytes) : Except AssimilationError CapabilityDescriptor := do
  let view ← (CapsuleView.read nativeCapsule).mapError fun e =>
    AssimilationError.capsule (.capsule e)
  match view.chunks.filter (·.kind = .capabilities) with
  | [chunk] =>
    match chunk.storage with
    | .embedded bytes => decodeCapabilityDescriptor bytes
    | .external => throw .invalidPackage
  | _ => throw .invalidPackage

/-- The graph of an embedded chunk. -/
def decodeGraphSection (chunk : ChunkView) : Except GraphSectionError Graph := do
  refuse (chunk.kind ≠ .graph) (.wrongSection chunk.kind)
  match chunk.storage with
  | .embedded bytes => (decodeGraph bytes).mapError .codec
  | .external => throw .externalGraph

namespace Package

/-- The only graph chunk is a graph. -/
def checkGraph (chunks : List ChunkView) : Except AssimilationError Unit :=
  match chunks.filter (·.kind = .graph) with
  | [chunk] => do
    let _ ← (decodeGraphSection chunk).mapError fun e => AssimilationError.capsule (.graphSection e)
  | _ => throw .invalidPackage

/-- What the kind of a package asks of its capsule. -/
def checkKind (package : NativePackage) (view : CapsuleView) : Except AssimilationError Unit :=
  match package.kind with
  | .capability => do
    let descriptor ← loadNativeCapability package.nativeCapsule
    refuse (package.capability ≠ some descriptor) .invalidPackage
  | .intelligence => do
    refuse package.capability.isSome .invalidPackage
    checkGraph view.chunks
    let hasTensors := view.chunks.any (·.kind = .tensors)
    let hasTokenizer := view.chunks.any (·.kind = .tokenizer)
    if hasTensors ∨ hasTokenizer then do
      refuse (¬ hasTensors ∨ ¬ hasTokenizer) .invalidPackage
      -- nothing is stored outside a full capsule
      let _ ← (loadNativeGenerativeProgram view fun _ => none).mapError fun e =>
        AssimilationError.capsule (.program e)

end Package

/-- `verify_native_package`: a full package. -/
def verifyNativePackage (ed : Ed25519) (package : NativePackage) (trustedVerifyKey : Block 32) :
    Except AssimilationError Unit := do
  refuse (isBlank package.assetId ∨ package.version = 0 ∨
    sha256 package.nativeCapsule ≠ package.capsuleHash) .invalidPackage
  let view ← (CapsuleView.read package.nativeCapsule).mapError fun e =>
    AssimilationError.capsule (.capsule e)
  refuse (view.kind ≠ .full) .invalidPackage
  let gathered ← view.chunks.foldlM gather .empty
  checkSignature ed gathered.signature trustedVerifyKey (sectionSigningPayload gathered.signable)
  let (assetId, version, kind) ← okOr gathered.log .invalidPackage
  refuse (assetId ≠ package.assetId ∨ version ≠ package.version ∨ kind ≠ package.kind)
    .invalidPackage
  checkKind package view

/-- `verify_native_package_with_shards`: a thin package, its external chunks from a store. -/
def verifyNativePackageWithShards (ed : Ed25519) (package : NativePackage)
    (trustedVerifyKey : Block 32) (shardStore : FileTensorShardStore) :
    Except AssimilationError Unit := do
  refuse (isBlank package.assetId ∨ package.version = 0 ∨
    sha256 package.nativeCapsule ≠ package.capsuleHash ∨ package.kind ≠ .intelligence ∨
    package.capability.isSome) .invalidPackage
  let view ← (CapsuleView.read package.nativeCapsule).mapError fun e =>
    AssimilationError.capsule (.capsule e)
  if view.kind = .full then verifyNativePackage ed package trustedVerifyKey
  else do
    refuse (view.kind ≠ .thin) .invalidPackage
    let gathered ← view.chunks.foldlM gatherThin .empty
    checkSignature ed gathered.signature trustedVerifyKey
      (thinSectionSigningPayload gathered.signable)
    let (assetId, version, kind) ← okOr gathered.log .invalidPackage
    refuse (assetId ≠ package.assetId ∨ version ≠ package.version ∨ kind ≠ .intelligence)
      .invalidPackage
    let _ ← (activateThinGenerativeCapsule package.nativeCapsule shardStore).mapError fun e =>
      AssimilationError.capsule (.activation e)

namespace Package

/-- A package that verification accepted under a key, with the shards of some store or without. -/
def Verified (ed : Ed25519) (key : Block 32) (package : NativePackage) : Prop :=
  verifyNativePackage ed package key = .ok () ∨
    ∃ shardStore, verifyNativePackageWithShards ed package key shardStore = .ok ()

/-! ## Building

The chunks but the signature, the signature over them, and the capsule. -/

/-- The id of a capsule follows from the asset and its source. -/
def nativeCapsuleId (assetId : String) (version : UInt32) (sourceDigest : Digest) :
    Except AssimilationError (Block 16) := do
  let material ← written do
    pushString (ε := AssimilationError) assetId
    pushU32 version
    tell sourceDigest.bytes
  return ⟨(sha256 material).bytes.take 16, by rw [List.length_take, (sha256 material).length_eq]; rfl⟩

/-- The sections of a candidate's own, and its descriptor. -/
def candidateSections (candidate : NativeCandidate) :
    Except AssimilationError (List (SectionKind × Bytes) × Option CapabilityDescriptor) :=
  match candidate.body with
  | .capability descriptor adapter => do
    let capability ← encodeCapabilityDescriptor descriptor
    let adapter ← encodeAdapter adapter.format adapter.bytes
    return ([(.capabilities, capability), (.adapters, adapter)], some descriptor)
  | .intelligence graph extra => do
    let bytes ← (encodeGraph graph).mapError fun e => AssimilationError.capsule (.graph e)
    return ((.graph, bytes) :: extra.map fun native => (native.kind, native.bytes), none)

end Package

/-- `build_native_package`: a full package of a validated candidate. -/
def buildNativePackage (ed : Ed25519) (candidate : NativeCandidate) (provenance : ProvenanceRecord)
    (importerId : String) (report : SandboxReport) (identity : AssimilationIdentity) :
    Except AssimilationError NativePackage := do
  candidate.validate
  provenance.validate
  validateReport candidate report
  refuse (isBlank importerId) .invalidPackage
  let provenanceBytes ← encodeProvenance provenance
  let logBytes ← encodeAssimilationLog candidate.assetId candidate.version candidate.kind importerId
    report.passedRegressions
  let (own, capability) ← candidateSections candidate
  let sections := own ++ [(.provenance, provenanceBytes), (.assimilationLog, logBytes)]
  let signable ← sectionSigningPayload sections
  let signature := encodeSignature identity.verifyKey (identity.sign ed signable)
  let capsuleId ← nativeCapsuleId candidate.assetId candidate.version provenance.sourceDigest
  let builder : CapsuleBuilder := {
    kind := .full
    capsuleId
    baseRoot := none
    chunks := (sections ++ [(SectionKind.signatures, signature)]).map fun native =>
      ⟨native.1, .embedded native.2⟩ }
  let nativeCapsule ← builder.write.mapError fun e => AssimilationError.capsule (.capsule e)
  let package : NativePackage := {
    assetId := trim candidate.assetId
    version := candidate.version
    kind := candidate.kind
    capsuleHash := sha256 nativeCapsule
    nativeCapsule, capability }
  verifyNativePackage ed package identity.verifyKey
  return package

/-- A package whose tensors are kept elsewhere. -/
structure StreamedPackageSpec where
  assetId : String
  version : UInt32
  importerId : String
  deriving DecidableEq

/-- What a streamed lowering leaves for its package. -/
structure StreamedLoweredLlamaModel where
  graph : Graph
  tensorShards : List TensorShardRef
  tokenizer : NativeTokenizerDescriptor
  tokenInput : ValueId
  distributionOutput : ℕ
  vocabularySize : ℕ
  deriving DecidableEq

/-- `build_streamed_native_package`: a thin package. -/
def buildStreamedNativePackage (ed : Ed25519) (spec : StreamedPackageSpec)
    (model : StreamedLoweredLlamaModel) (provenance : ProvenanceRecord) (report : SandboxReport)
    (shardStore : FileTensorShardStore) (identity : AssimilationIdentity) :
    Except AssimilationError NativePackage := do
  provenance.validate
  model.graph.validate.mapError fun e => AssimilationError.invalidCandidate (.graph e)
  refuse (model.tensorShards = [] ∨ model.vocabularySize = 0) .invalidPackage
  validateStreamedReport report
  let descriptorBytes ← (encodeTensorDescriptors .current
    (model.tensorShards.map TensorShardRef.descriptor)).mapError fun e =>
      AssimilationError.capsule (.descriptors e)
  let tokenizerBytes ← (encodeNativeTokenizer model.tokenizer).mapError fun e =>
    AssimilationError.capsule (.tokenizer e)
  let distributionOutput ← lenU32 (ε := AssimilationError) model.distributionOutput
  let vocabularySize ← lenU32 (ε := AssimilationError) model.vocabularySize
  let manifestBytes ← (encodeNativeGenerativeManifest {
    tokenInput := model.tokenInput, distributionOutput, vocabularySize }).mapError fun e =>
      AssimilationError.capsule (.generativeManifest e)
  let graphBytes ← (encodeGraph model.graph).mapError fun e => AssimilationError.capsule (.graph e)
  let provenanceBytes ← encodeProvenance provenance
  let logBytes ← encodeAssimilationLog spec.assetId spec.version .intelligence spec.importerId
    report.passedRegressions
  let shards : List ThinPackageChunk := model.tensorShards.map fun shard =>
    ⟨.tensors, .external shard.logicalLen shard.hash⟩
  let chunks : List ThinPackageChunk :=
    [⟨.graph, .embedded graphBytes⟩, ⟨.tensors, .embedded descriptorBytes⟩] ++ shards ++
    [⟨.tokenizer, .embedded tokenizerBytes⟩, ⟨.generativeManifest, .embedded manifestBytes⟩,
      ⟨.provenance, .embedded provenanceBytes⟩, ⟨.assimilationLog, .embedded logBytes⟩]
  let signable ← thinSectionSigningPayload chunks
  let signature := encodeSignature identity.verifyKey (identity.sign ed signable)
  let capsuleId ← nativeCapsuleId spec.assetId spec.version provenance.sourceDigest
  let builder : CapsuleBuilder := {
    kind := .thin
    capsuleId
    baseRoot := none
    chunks := chunks ++ [⟨.signatures, .embedded signature⟩] }
  let nativeCapsule ← builder.write.mapError fun e => AssimilationError.capsule (.capsule e)
  let package : NativePackage := {
    assetId := spec.assetId
    version := spec.version
    kind := .intelligence
    capsuleHash := sha256 nativeCapsule
    capability := none
    nativeCapsule }
  verifyNativePackageWithShards ed package identity.verifyKey shardStore
  return package

end NTD97
