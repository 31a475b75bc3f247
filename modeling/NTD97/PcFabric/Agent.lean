import Mathlib
import NTD97.PcFabric.Session
import NTD97.PcFabric.Wire

/-!
# PcFabric/Agent — the desktop agent and its replay cache

    frame ──open──▸ request ──cached?──▸ result
                       │ no
                       ▼
                    execute ▸ store artifacts ▸ result ▸ cache

Handlers are arbitrary functions on a world.  The cache is written last, so an output that cannot be
stored leaves no trace there, and the request is executed again when it is sent again.
-/

namespace NTD97

open Effect Guard Machine PcFabric SortedMap Text Wire

structure DesktopHandlerOutput where
  output : ActionOutput
  artifacts : List (String × Bytes)
  deriving DecidableEq

/-- A handler, over the world that handlers read and change. -/
structure DesktopCapabilityHandler (W : Type) where
  capability : W → RemoteCapability
  execute : RemoteAction → W → Except PcFabricError DesktopHandlerOutput × W

/-- The agent with the world around it; `executions` records the calls of a handler's `execute`, by
the id of the request and whether they were `Ok`. -/
structure DesktopAgent (W : Type) where
  session : SecureSession
  handlers : BTreeMap String (DesktopCapabilityHandler W)
  outgoingArtifacts : BTreeMap UInt64 ArtifactSender
  completedRequests : BTreeMap UInt64 RemoteResult
  nextTransferId : UInt64
  world : W
  executions : List (UInt64 × Bool)

namespace DesktopAgent

variable {W : Type}

def new (session : SecureSession) (world : W) : DesktopAgent W where
  session := session
  handlers := ∅
  outgoingArtifacts := ∅
  completedRequests := ∅
  nextTransferId := 1
  world := world
  executions := []

def registerHandler (handler : DesktopCapabilityHandler W) :
    Eff (DesktopAgent W) PcFabricError Unit := do
  let self ← get
  let capability := handler.capability self.world
  check id capability.validate
  refuse (capability.id ∈ self.handlers) .invalidMessage
  modify fun self => { self with handlers := self.handlers.insert capability.id handler }

def capabilities (self : DesktopAgent W) : List RemoteCapability :=
  self.handlers.toList.map fun (_, handler) => handler.capability self.world

/-- One artifact, filed for pulling under the next id. -/
def storeArtifact (artifact : String × Bytes) :
    Eff (DesktopAgent W) PcFabricError ArtifactDescriptor := do
  let self ← get
  let transferId := self.nextTransferId
  let nextTransferId ← okOr (checkedAdd64 transferId 1) .overflow
  modify fun self => { self with nextTransferId }
  let sender ← check id
    (ArtifactSender.new transferId artifact.1 artifact.2 defaultArtifactChunk)
  modify fun self => { self with
    outgoingArtifacts := self.outgoingArtifacts.insert transferId sender }
  return sender.descriptor

def storeArtifacts (artifacts : List (String × Bytes)) :
    Eff (DesktopAgent W) PcFabricError (List ArtifactDescriptor) :=
  artifacts.mapM storeArtifact

/-- The result is kept for requests with the same id. -/
def complete (request : RemoteRequest) (result : RemoteResult) :
    Eff (DesktopAgent W) PcFabricError RemoteResult := do
  modify fun self => { self with
    completedRequests := self.completedRequests.insert request.requestId result }
  return result

/-- What becomes of an execution; `debug` prints an error. -/
def settle (debug : PcFabricError → String) (request : RemoteRequest) :
    Except PcFabricError DesktopHandlerOutput → Eff (DesktopAgent W) PcFabricError RemoteResult
  | .ok output => do
    let descriptors ← storeArtifacts output.artifacts
    let result ← check id (RemoteResult.completed request output.output descriptors)
    complete request result
  | .error (.policyDenied reason) => do
    let result ← check id (RemoteResult.rejected request reason)
    complete request result
  | .error (.io reason) => check id (RemoteResult.retryable request reason)
  | .error error => do
    let result ← check id (RemoteResult.rejected request (debug error))
    complete request result

/-- A handler at work. -/
def call (handler : DesktopCapabilityHandler W) (request : RemoteRequest) :
    Eff (DesktopAgent W) PcFabricError (Except PcFabricError DesktopHandlerOutput) := do
  let self ← get
  let (execution, world) := handler.execute request.action self.world
  modify fun self => { self with
    world, executions := self.executions ++ [(request.requestId, execution.isOk)] }
  return execution

def executeRequest (debug : PcFabricError → String) (request : RemoteRequest) :
    Eff (DesktopAgent W) PcFabricError RemoteResult := do
  check id request.validate
  let self ← get
  match self.completedRequests[request.requestId]? with
  | some previous =>
    refuse (previous.requestDigest ≠ request.requestDigest) .invalidMessage
    return previous
  | none =>
    match self.handlers[request.capability]? with
    | none => check id (RemoteResult.rejected request "remote capability is not installed")
    | some handler =>
      let capability := handler.capability self.world
      refuse (capability.version ≠ request.capabilityVersion)
        (.capabilityVersionMismatch request.capability capability.version
          request.capabilityVersion)
      let execution ← call handler request
      settle debug request execution

def respond (debug : PcFabricError → String) :
    RemoteMessage → Eff (DesktopAgent W) PcFabricError RemoteMessage
  | .capabilityQuery => do
    let self ← get
    return .capabilities self.capabilities
  | .request request => return .result (← executeRequest debug request)
  | .artifactPull transferId offset => do
    let self ← get
    let sender ← okOr self.outgoingArtifacts[transferId]? .invalidArtifact
    let chunk ← check id (sender.chunkAt offset)
    return .artifactChunk chunk
  | .capabilities _ => throw .invalidMessage
  | .result _ => throw .invalidMessage
  | .artifactChunk _ => throw .invalidMessage

/-- Work on the session of the agent. -/
def onSession {α : Type} (x : Eff SecureSession PcFabricError α) :
    Eff (DesktopAgent W) PcFabricError α :=
  zoom session (fun self session => { self with session }) id x

/-- What the agent answers to a frame. -/
def answer (debug : PcFabricError → String) (aead : Aead) (frame : Bytes) :
    Eff (DesktopAgent W) PcFabricError RemoteMessage := do
  let plaintext ← onSession (SecureSession.open aead frame)
  let message ← check id (decodeMessage plaintext)
  respond debug message

def handleEncryptedFrame (debug : PcFabricError → String) (aead : Aead) (frame : Bytes) :
    Eff (DesktopAgent W) PcFabricError Bytes := do
  let response ← answer debug aead frame
  let encoded ← check id (encodeMessage response)
  onSession (SecureSession.seal aead encoded)

/-- One frame more. -/
def step (debug : PcFabricError → String) (aead : Aead) (self : DesktopAgent W) (frame : Bytes) :
    DesktopAgent W :=
  (exec (handleEncryptedFrame debug aead frame) self).2

end DesktopAgent

end NTD97
