import Mathlib
import NTD97.Capability
import NTD97.Capsule.Hash
import NTD97.Lib.Text

/-!
# PcFabric — what a paired computer is asked for, and what it answers

    phone ──RemoteRequest──▸ agent ──handler──▸ RemoteResult, artifacts

Requests and results carry the digest of their own fields, so a result names the request it is for.
-/

namespace NTD97

open Guard Text Wire

/-- The errors of both ends. -/
inductive PcFabricError where
  | invalidIdentity
  | invalidPairing
  | invalidSignature
  | invalidHandshake
  | cryptoFailure
  | replay (expectedSequence actualSequence : UInt64)
  | invalidFrame
  | invalidMessage
  | invalidArtifact
  | artifactHashMismatch
  | artifactOutOfOrder
  | missingCapability (capability : String)
  | capabilityVersionMismatch (capability : String) (expected actual : UInt32)
  | peerMismatch
  | policyDenied (reason : String)
  | io (reason : String)
  | remote (reason : String)
  | overflow
  deriving DecidableEq

instance : WireError PcFabricError where
  truncated := .invalidMessage
  overflow := .overflow
  invalidUtf8 := .invalidMessage

namespace PcFabric

/-- Writing a part of a message. -/
abbrev Encoder := Put PcFabricError Unit

/-- Reading a part of a message. -/
abbrev Decoder := Get PcFabricError

/-- A text that is not blank. -/
def nonempty (value : String) : Except PcFabricError Unit := refuse (isBlank value) .invalidMessage

end PcFabric

open PcFabric

/-! ## Artifacts

Bytes too large for a message are announced by a descriptor and sent in chunks. -/

/-- 64 KiB. -/
def defaultArtifactChunk : UInt32 := 64 * 1024

/-- What is announced of an artifact. -/
structure ArtifactDescriptor where
  transferId : UInt64
  name : String
  length : UInt64
  sha256 : Digest
  chunkSize : UInt32
  deriving DecidableEq

/-- A chunk is at most 4 MiB, and no transfer has id `0`. -/
def ArtifactDescriptor.validate (self : ArtifactDescriptor) : Except PcFabricError Unit :=
  refuse (self.transferId = 0 ∨ isBlank self.name ∨ self.chunkSize = 0 ∨
    4 * 1024 * 1024 < self.chunkSize) .invalidArtifact

/-- The bytes of a transfer from an offset on. -/
structure ArtifactChunk where
  transferId : UInt64
  offset : UInt64
  data : Bytes
  deriving DecidableEq

/-- An artifact and its bytes; the descriptor holds their length and hash. -/
structure ArtifactSender where
  descriptor : ArtifactDescriptor
  bytes : Bytes
  deriving DecidableEq

/-- `ArtifactSender::new`: a sender whose descriptor is valid. -/
def ArtifactSender.new (transferId : UInt64) (name : String) (bytes : Bytes) (chunkSize : UInt32) :
    Except PcFabricError ArtifactSender := do
  let length ← lenU64 bytes.length
  let descriptor : ArtifactDescriptor :=
    { transferId, name, length, sha256 := sha256 bytes, chunkSize }
  descriptor.validate
  return { descriptor, bytes }

/-- `chunk_at`: the offset may be the length, and then the chunk is empty. -/
def ArtifactSender.chunkAt (self : ArtifactSender) (offset : UInt64) :
    Except PcFabricError ArtifactChunk := do
  refuse (self.descriptor.length < offset) .invalidArtifact
  let stop := min (offset.toNat + self.descriptor.chunkSize.toNat) self.bytes.length
  refuse (self.bytes.length < offset.toNat) .invalidArtifact
  return {
    transferId := self.descriptor.transferId
    offset
    data := (self.bytes.take stop).drop offset.toNat }

/-! ## Capabilities and actions

What an agent offers, and what it can be asked to do. -/

/-- A capability as an agent describes it. -/
structure RemoteCapability where
  id : String
  version : UInt32
  sideEffect : SideEffectClass
  verificationRequired : Bool
  rollbackSupported : Bool
  resumable : Bool
  requiredScopes : List String
  deriving DecidableEq

/-- Scopes are strictly increasing, and what is irreversible cannot be rolled back. -/
def RemoteCapability.validate (self : RemoteCapability) : Except PcFabricError Unit := do
  refuse (isBlank self.id ∨ self.version = 0) .invalidMessage
  refuse (self.requiredScopes.any isBlank) .invalidMessage
  refuse (¬ self.requiredScopes.IsChain (· < ·)) .invalidMessage
  refuse (self.sideEffect = .irreversible ∧ self.rollbackSupported) .invalidMessage

/-- What a request asks for. -/
inductive RemoteAction where
  | observe (surface : String)
  | execute (program : String) (args : List String) (workingDir : Option String)
  | artifactRead (path : String)
  | artifactWrite (path : String) (bytes : Bytes)
  deriving DecidableEq

/-- No text of an action is blank but those of its arguments. -/
def RemoteAction.validate : RemoteAction → Except PcFabricError Unit
  | .observe surface => PcFabric.nonempty surface
  | .execute program _ workingDir => do
    PcFabric.nonempty program
    workingDir.forM PcFabric.nonempty
  | .artifactRead path => PcFabric.nonempty path
  | .artifactWrite path _ => PcFabric.nonempty path

/-! ## The codecs of their fields

The encoders that the digests below are taken over. -/

namespace PcFabric

/-- The tag of an action. -/
def actionTag : RemoteAction → UInt8
  | .observe .. => 1
  | .execute .. => 2
  | .artifactRead .. => 3
  | .artifactWrite .. => 4

/-- What follows the tag of an action. -/
def actionBody : RemoteAction → Encoder
  | .observe surface => pushString surface
  | .execute program args workingDir => do
    pushString program
    pushList pushString args
    pushOption pushString workingDir
  | .artifactRead path => pushString path
  | .artifactWrite path bytes => do
    pushString path
    pushBytes bytes

/-- An action that passes its validator. -/
def encodeAction : RemoteAction → Encoder := checkedPut RemoteAction.validate fun action => do
  pushU8 (actionTag action)
  actionBody action

/-- An artifact that passes its validator. -/
def encodeArtifact : ArtifactDescriptor → Encoder :=
  checkedPut ArtifactDescriptor.validate fun artifact => do
    pushU64 artifact.transferId
    pushString artifact.name
    pushU64 artifact.length
    tell artifact.sha256.bytes
    pushU32 artifact.chunkSize

/-- The tag of an output's value. -/
def outputValueTag : ActionValue → UInt8
  | .none => 0
  | .text .. => 1
  | .bytes .. => 2
  | .textList .. => 3
  | .fields .. => 4

/-- The fields in key order, behind their count. -/
def pushOutputFields (fields : BTreeMap String String) : Encoder := do
  pushU32 (← lenU32 (ε := PcFabricError) fields.size)
  fields.toList.forM fun (key, value) => do
    pushString key
    pushString value

/-- What follows the tag of an output's value. -/
def outputValueBody : ActionValue → Encoder
  | .none => pure ()
  | .text value => pushString value
  | .bytes value => pushBytes value
  | .textList values => pushList pushString values
  | .fields fields => pushOutputFields fields

/-- Tag and value. -/
def encodeOutputValue (value : ActionValue) : Encoder := do
  pushU8 (outputValueTag value)
  outputValueBody value

/-- Summary, value and evidence. -/
def encodeOutput (output : ActionOutput) : Encoder := do
  pushString output.summary
  encodeOutputValue output.value
  pushList pushString output.evidence

end PcFabric

/-! ## Requests

A request carries the digest of its other fields under a domain prefix. -/

/-- A request; `validate` says that the digest is its own. -/
structure RemoteRequest where
  requestId : UInt64
  capability : String
  capabilityVersion : UInt32
  action : RemoteAction
  requestDigest : Digest
  deriving DecidableEq

namespace PcFabric

/-- The digest that a request must carry. -/
def digestRequest (request : RemoteRequest) : Except PcFabricError Digest := do
  let bytes ← written do
    tell (utf8 "NTD97-PCF97-REQUEST")
    pushU64 request.requestId
    pushString request.capability
    pushU32 request.capabilityVersion
    encodeAction request.action
  return sha256 bytes

/-- The digest of a request or a result before its own is known. -/
def zeroDigest : Digest := ⟨List.replicate 32 0, rfl⟩

end PcFabric

namespace RemoteRequest

/-- `RemoteRequest::new`: the digest is filled in last. -/
def new (requestId : UInt64) (capability : String) (capabilityVersion : UInt32)
    (action : RemoteAction) : Except PcFabricError RemoteRequest := do
  refuse (requestId = 0 ∨ capabilityVersion = 0) .invalidMessage
  PcFabric.nonempty capability
  action.validate
  let request : RemoteRequest :=
    { requestId, capability, capabilityVersion, action, requestDigest := zeroDigest }
  let requestDigest ← digestRequest request
  return { request with requestDigest }

/-- The fields first, then the digest. -/
def validate (self : RemoteRequest) : Except PcFabricError Unit := do
  refuse (self.requestId = 0 ∨ self.capabilityVersion = 0) .invalidMessage
  PcFabric.nonempty self.capability
  self.action.validate
  let digest ← digestRequest self
  refuse (digest ≠ self.requestDigest) .invalidMessage

end RemoteRequest

/-! ## Results

A result repeats the fields and the digest of its request, and carries a digest of its own. -/

/-- How a request ended; what did not complete has a reason. -/
inductive RemoteResultStatus where
  | completed
  | retryable (reason : String)
  | rejected (reason : String)
  deriving DecidableEq

/-- A result; `validate` says that the digest is its own. -/
structure RemoteResult where
  requestId : UInt64
  capability : String
  capabilityVersion : UInt32
  requestDigest : Digest
  status : RemoteResultStatus
  output : ActionOutput
  artifacts : List ArtifactDescriptor
  resultDigest : Digest
  deriving DecidableEq

namespace PcFabric

/-- The tag of a status. -/
def statusTag : RemoteResultStatus → UInt8
  | .completed => 1
  | .retryable .. => 2
  | .rejected .. => 3

/-- What follows the tag of a status. -/
def statusBody : RemoteResultStatus → Encoder
  | .completed => pure ()
  | .retryable reason => pushString reason
  | .rejected reason => pushString reason

/-- Tag and reason. -/
def encodeStatus (status : RemoteResultStatus) : Encoder := do
  pushU8 (statusTag status)
  statusBody status

/-- The digest that a result must carry: it covers the request's digest. -/
def digestResult (result : RemoteResult) : Except PcFabricError Digest := do
  let bytes ← written do
    tell (utf8 "NTD97-PCF97-RESULT")
    pushU64 result.requestId
    pushString result.capability
    pushU32 result.capabilityVersion
    tell result.requestDigest.bytes
    encodeStatus result.status
    encodeOutput result.output
    pushList encodeArtifact result.artifacts
  return sha256 bytes

/-- One artifact, whose id must come after the previous one. -/
def validateArtifact (previous : UInt64) (artifact : ArtifactDescriptor) :
    Except PcFabricError UInt64 := do
  artifact.validate
  refuse (artifact.transferId ≤ previous) .invalidArtifact
  return artifact.transferId

/-- Each artifact is valid, and their ids are strictly increasing. -/
def validateArtifacts (artifacts : List ArtifactDescriptor) : Except PcFabricError Unit := do
  let _ ← artifacts.foldlM validateArtifact 0

/-- `normalize_artifacts`: sorted by id, and refused if two have one id. -/
def normalizeArtifacts (artifacts : List ArtifactDescriptor) :
    Except PcFabricError (List ArtifactDescriptor) := do
  let artifacts := artifacts.insertionSort (·.transferId ≤ ·.transferId)
  validateArtifacts artifacts
  return artifacts

end PcFabric

namespace RemoteResult

/-- What is asked of a result apart from its digest. -/
def validateFields (self : RemoteResult) : Except PcFabricError Unit := do
  refuse (self.requestId = 0 ∨ self.capabilityVersion = 0) .invalidMessage
  PcFabric.nonempty self.capability
  match self.status with
  | .completed => pure ()
  | .retryable reason => PcFabric.nonempty reason
  | .rejected reason => PcFabric.nonempty reason
  validateArtifacts self.artifacts

/-- `RemoteResult::new`: the artifacts are sorted and the digest filled in last. -/
def new (request : RemoteRequest) (status : RemoteResultStatus) (output : ActionOutput)
    (artifacts : List ArtifactDescriptor) : Except PcFabricError RemoteResult := do
  request.validate
  let artifacts ← normalizeArtifacts artifacts
  let result : RemoteResult := {
    requestId := request.requestId, capability := request.capability
    capabilityVersion := request.capabilityVersion, requestDigest := request.requestDigest
    status, output, artifacts, resultDigest := zeroDigest }
  result.validateFields
  let resultDigest ← digestResult result
  return { result with resultDigest }

/-- A result with an output. -/
def completed (request : RemoteRequest) (output : ActionOutput)
    (artifacts : List ArtifactDescriptor) : Except PcFabricError RemoteResult :=
  new request .completed output artifacts

/-- The output of a result without one. -/
def noOutput (summary : String) : ActionOutput where
  summary := summary
  value := .none
  evidence := []

/-- A result that asks for another try. -/
def retryable (request : RemoteRequest) (reason : String) : Except PcFabricError RemoteResult := do
  PcFabric.nonempty reason
  new request (.retryable reason) (noOutput "remote action retryable") []

/-- A result that refuses. -/
def rejected (request : RemoteRequest) (reason : String) : Except PcFabricError RemoteResult := do
  PcFabric.nonempty reason
  new request (.rejected reason) (noOutput "remote action rejected") []

/-- The fields first, then the digest. -/
def validate (self : RemoteResult) : Except PcFabricError Unit := do
  self.validateFields
  let digest ← digestResult self
  refuse (digest ≠ self.resultDigest) .invalidMessage

/-- `verify_against`: both are valid, and the result names the request in four fields. -/
def verifyAgainst (self : RemoteResult) (request : RemoteRequest) : Except PcFabricError Unit := do
  request.validate
  self.validate
  refuse (self.requestId ≠ request.requestId ∨ self.capability ≠ request.capability ∨
    self.capabilityVersion ≠ request.capabilityVersion ∨
    self.requestDigest ≠ request.requestDigest) .invalidMessage

end RemoteResult

/-- What goes over the channel. -/
inductive RemoteMessage where
  | capabilities (capabilities : List RemoteCapability)
  | request (request : RemoteRequest)
  | result (result : RemoteResult)
  | artifactChunk (chunk : ArtifactChunk)
  | artifactPull (transferId offset : UInt64)
  | capabilityQuery
  deriving DecidableEq

end NTD97
