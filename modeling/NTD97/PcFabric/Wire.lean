import Mathlib
import NTD97.Lib.SortedMap
import NTD97.PcFabric

/-!
# PcFabric/Wire — the PCF97 messages

    PCF97\0 ▪ version ▪ tag ▪ 0 ▪ length ▪ payload

A request, a result, an action, a capability and an artifact are validated on both sides, so each of
their codecs has one law; the decoder gives back every message that the encoder accepts.
-/

namespace NTD97

open Guard Wire SortedMap

namespace PcFabric

/-- The letters `PCF97` and a zero byte. -/
def pcf97Magic : Bytes := [80, 67, 70, 57, 55, 0]

/-- The version `0.1`. -/
def pcf97Major : UInt16 := 0

def pcf97Minor : UInt16 := 1

/-- Magic, version, tag, a zero byte and the length of the payload. -/
def pcf97HeaderLen : ℕ := 16

/-! ## Encoders

The parts with a validator are checked before a byte of them is written. -/

/-- The byte of a side effect class. -/
def encodeSideEffect : SideEffectClass → UInt8
  | .readOnly => 1
  | .reversible => 2
  | .externalWrite => 3
  | .irreversible => 4

/-- A capability that passes its validator. -/
def encodeCapability : RemoteCapability → Encoder :=
  checkedPut RemoteCapability.validate fun value => do
    pushString value.id
    pushU32 value.version
    pushU8 (encodeSideEffect value.sideEffect)
    pushBool value.verificationRequired
    pushBool value.rollbackSupported
    pushBool value.resumable
    pushList pushString value.requiredScopes

/-- One capability, whose id must come after the previous one. -/
def validateCapability (previous : Option String) (capability : RemoteCapability) :
    Except PcFabricError (Option String) := do
  capability.validate
  refuse (previous.any (capability.id ≤ ·)) .invalidMessage
  return some capability.id

/-- Each capability is valid, and their ids are strictly increasing. -/
def validateCapabilities (capabilities : List RemoteCapability) : Except PcFabricError Unit := do
  let _ ← capabilities.foldlM validateCapability none

/-- The fields of a request; the digest is written, not computed. -/
def encodeRequest (request : RemoteRequest) : Encoder := do
  pushU64 request.requestId
  pushString request.capability
  pushU32 request.capabilityVersion
  encodeAction request.action
  tell request.requestDigest.bytes

/-- The fields of a result; the digest is written, not computed. -/
def encodeResult (result : RemoteResult) : Encoder := do
  pushU64 result.requestId
  pushString result.capability
  pushU32 result.capabilityVersion
  tell result.requestDigest.bytes
  encodeStatus result.status
  encodeOutput result.output
  pushList encodeArtifact result.artifacts
  tell result.resultDigest.bytes

/-- Transfer ids start at one. -/
def encodeChunk (chunk : ArtifactChunk) : Encoder := do
  refuse (chunk.transferId = 0) .invalidArtifact
  pushU64 chunk.transferId
  pushU64 chunk.offset
  pushBytes chunk.data

/-- A pull asks for the bytes of a transfer from an offset on. -/
def encodePull (transferId offset : UInt64) : Encoder := do
  refuse (transferId = 0) .invalidArtifact
  pushU64 transferId
  pushU64 offset

/-- The tag of a message in the header. -/
def messageTag : RemoteMessage → UInt8
  | .capabilities .. => 1
  | .request .. => 2
  | .result .. => 3
  | .artifactChunk .. => 4
  | .artifactPull .. => 5
  | .capabilityQuery => 6

/-- The payload of a message. -/
def messageBody : RemoteMessage → Encoder
  | .capabilities capabilities =>
    checkedPut validateCapabilities (pushList encodeCapability) capabilities
  | .request request => checkedPut RemoteRequest.validate encodeRequest request
  | .result result => checkedPut RemoteResult.validate encodeResult result
  | .artifactChunk chunk => encodeChunk chunk
  | .artifactPull transferId offset => encodePull transferId offset
  | .capabilityQuery => pure ()

/-- The header of a payload of this length. -/
def pcf97Header (tag : UInt8) (payloadLen : UInt32) : Bytes :=
  pcf97Magic ++ leBytes 2 pcf97Major.toNat ++ leBytes 2 pcf97Minor.toNat ++ [tag, 0] ++
    leBytes 4 payloadLen.toNat

/-- `encode_message`: the payload first, since the header states its length. -/
def encodeMessage (message : RemoteMessage) : Except PcFabricError Bytes := do
  let payload ← written (messageBody message)
  let payloadLen ← lenU32 payload.length
  return pcf97Header (messageTag message) payloadLen ++ payload

/-! ## Decoders

They mirror the encoders; of a chunk and a pull the transfer id is not looked at. -/

/-- A text that may be absent. -/
def optionalString : Decoder (Option String) := getOption (fun _ => .invalidMessage) string

/-- What follows the tag of an action. -/
def actionOf : UInt8 → Decoder RemoteAction
  | 1 => return .observe (← string)
  | 2 => return .execute (← string) (← getList string) (← optionalString)
  | 3 => return .artifactRead (← string)
  | 4 => return .artifactWrite (← string) (← bytes)
  | _ => throw .invalidMessage

/-- An action that passes its validator. -/
def decodeAction : Decoder RemoteAction := checkedGet RemoteAction.validate do
  let tag ← u8
  actionOf tag

/-- A request whose digest is that of its fields. -/
def decodeRequest : Decoder RemoteRequest := checkedGet RemoteRequest.validate do
  let requestId ← u64
  let capability ← string
  let capabilityVersion ← u32
  let action ← decodeAction
  let requestDigest ← block 32
  return { requestId, capability, capabilityVersion, action, requestDigest }

/-- What follows the tag of a status. -/
def statusOf : UInt8 → Decoder RemoteResultStatus
  | 1 => return .completed
  | 2 => return .retryable (← string)
  | 3 => return .rejected (← string)
  | _ => throw .invalidMessage

/-- The status of a result. -/
def decodeStatus : Decoder RemoteResultStatus := do
  let tag ← u8
  statusOf tag

/-- One field: its key must come after the previous one. -/
def outputField : Option String → Decoder ((String × String) × Option String) :=
  pairEntry string string .invalidMessage

/-- What follows the tag of an output's value. -/
def outputValueOf : UInt8 → Decoder ActionValue
  | 0 => return .none
  | 1 => return .text (← string)
  | 2 => return .bytes (← bytes)
  | 3 => return .textList (← getList string)
  | 4 => do
    let count ← u32
    let fields ← getEntries outputField .invalidMessage count.toNat none ∅
    return .fields fields
  | _ => throw .invalidMessage

/-- The value of an output. -/
def decodeOutputValue : Decoder ActionValue := do
  let tag ← u8
  outputValueOf tag

/-- The output of a result; no validator looks at it. -/
def decodeOutput : Decoder ActionOutput := do
  let summary ← string
  let value ← decodeOutputValue
  let evidence ← getList string
  return { summary, value, evidence }

/-- An artifact that passes its validator. -/
def decodeArtifact : Decoder ArtifactDescriptor := checkedGet ArtifactDescriptor.validate do
  let transferId ← u64
  let name ← string
  let length ← u64
  let sha256 ← block 32
  let chunkSize ← u32
  return { transferId, name, length, sha256, chunkSize }

/-- A result whose digest is that of its fields. -/
def decodeResult : Decoder RemoteResult := checkedGet RemoteResult.validate do
  let requestId ← u64
  let capability ← string
  let capabilityVersion ← u32
  let requestDigest ← block 32
  let status ← decodeStatus
  let output ← decodeOutput
  let artifacts ← getList decodeArtifact
  let resultDigest ← block 32
  return {
    requestId, capability, capabilityVersion, requestDigest, status, output, artifacts
    resultDigest }

/-- The side effect class of a byte. -/
def decodeSideEffect : UInt8 → Except PcFabricError SideEffectClass
  | 1 => .ok .readOnly
  | 2 => .ok .reversible
  | 3 => .ok .externalWrite
  | 4 => .ok .irreversible
  | _ => .error .invalidMessage

/-- A byte that names a side effect class. -/
def sideEffect : Decoder SideEffectClass := do
  let raw ← u8
  decodeSideEffect raw

/-- A byte that is `0` or `1`. -/
def flag : Decoder Bool := boolean fun _ => .invalidMessage

/-- A capability that passes its validator. -/
def decodeCapability : Decoder RemoteCapability := checkedGet RemoteCapability.validate do
  let id ← string
  let version ← u32
  let sideEffect ← sideEffect
  let verificationRequired ← flag
  let rollbackSupported ← flag
  let resumable ← flag
  let requiredScopes ← getList string
  return {
    id, version, sideEffect, verificationRequired, rollbackSupported, resumable, requiredScopes }

/-- A part of a transfer's bytes. -/
def decodeChunk : Decoder ArtifactChunk := do
  let transferId ← u64
  let offset ← u64
  let data ← bytes
  return { transferId, offset, data }

/-- The payload behind a tag. -/
def messageOf : UInt8 → Decoder RemoteMessage
  | 1 => return .capabilities (← checkedGet validateCapabilities (getList decodeCapability))
  | 2 => return .request (← decodeRequest)
  | 3 => return .result (← decodeResult)
  | 4 => return .artifactChunk (← decodeChunk)
  | 5 => return .artifactPull (← u64) (← u64)
  | 6 => return .capabilityQuery
  | _ => throw .invalidMessage

/-- `decode_message`: the header must account for every byte before the payload is read. -/
def decodeMessage (bytes : Bytes) : Except PcFabricError RemoteMessage := do
  refuse (bytes.length < pcf97HeaderLen ∨ bytes.take 6 ≠ pcf97Magic) .invalidFrame
  let (major, minor) := versionAt bytes 6
  refuse (major ≠ pcf97Major ∨ pcf97Minor < minor ∨ bytes.getD 11 0 ≠ 0) .invalidFrame
  let tag := bytes.getD 10 0
  let payloadLen := ofLe ((bytes.drop 12).take 4)
  refuse (bytes.length ≠ pcf97HeaderLen + payloadLen) .invalidFrame
  readAll (messageOf tag) .invalidMessage (bytes.drop pcf97HeaderLen)

/-! ## The laws of the codecs

Each part is read back by its decoder, with the validator on both sides; the laws follow the order
of the fields. -/

/-- What follows a tag, for the actions with that tag. -/
theorem inverse_actionOf (t : UInt8) :
    Inverse (fun a => True ∧ actionTag a = t) actionBody (actionOf t) := by
  have text := inverse_string (ε := PcFabricError)
  have optional : Codec (pushOption pushString) optionalString := codec_option text
  unfold actionOf
  split
  · exact kind₁ text RemoteAction.observe (fun _ => rfl) fun a => by cases a <;> simp [actionTag]
  · exact kind₃ text (codec_list text) optional RemoteAction.execute (fun _ _ _ => rfl)
      fun a => by cases a <;> simp [actionTag]
  · exact kind₁ text RemoteAction.artifactRead (fun _ => rfl)
      fun a => by cases a <;> simp [actionTag]
  · exact kind₂ text inverse_bytes RemoteAction.artifactWrite (fun _ _ => rfl)
      fun a => by cases a <;> simp [actionTag]
  · refine no_kind fun a ha => ?_
    subst ha
    cases a <;> simp_all [actionTag]

/-- An action is read back. -/
theorem codec_action : Codec encodeAction decodeAction :=
  Inverse.guarded (inverse_u8.field actionTag (fun _ _ => trivial) fun t _ => inverse_actionOf t) _

/-- The fields of a request are read back. -/
theorem codec_request : Codec encodeRequest (do
    let requestId ← u64
    let capability ← string
    let capabilityVersion ← u32
    let action ← decodeAction
    let requestDigest ← block 32
    return RemoteRequest.mk requestId capability capabilityVersion action requestDigest) := by
  refine inverse_u64.field RemoteRequest.requestId (fun _ _ => trivial) fun _ _ => ?_
  refine inverse_string.field RemoteRequest.capability (fun _ _ => trivial) fun _ _ => ?_
  refine inverse_u32.field RemoteRequest.capabilityVersion (fun _ _ => trivial) fun _ _ => ?_
  refine codec_action.field RemoteRequest.action (fun _ _ => trivial) fun _ _ => ?_
  refine (inverse_block 32).last RemoteRequest.requestDigest ?_ ?_
  · rintro ⟨⟩ ⟨⟨⟨⟨-, rfl⟩, rfl⟩, rfl⟩, rfl⟩
    exact ⟨trivial, rfl⟩
  · exact fun _ _ => ⟨⟨⟨⟨⟨trivial, rfl⟩, rfl⟩, rfl⟩, rfl⟩, rfl⟩

/-- What follows a tag, for the statuses with that tag. -/
theorem inverse_statusOf (t : UInt8) :
    Inverse (fun a => True ∧ statusTag a = t) statusBody (statusOf t) := by
  have text := inverse_string (ε := PcFabricError)
  unfold statusOf
  split
  · refine (Inverse.done fun a => ?_).congr (fun a ha => ?_) rfl
    · cases a <;> simp [statusTag]
    · cases a <;> simp_all [statusTag, statusBody]
  · exact kind₁ text RemoteResultStatus.retryable (fun _ => rfl)
      fun a => by cases a <;> simp [statusTag]
  · exact kind₁ text RemoteResultStatus.rejected (fun _ => rfl)
      fun a => by cases a <;> simp [statusTag]
  · refine no_kind fun a ha => ?_
    subst ha
    cases a <;> simp_all [statusTag]

/-- A status is read back. -/
theorem codec_status : Codec encodeStatus decodeStatus :=
  inverse_u8.field statusTag (fun _ _ => trivial) fun t _ => inverse_statusOf t

/-- A field map is read back, its keys in order. -/
theorem codec_outputFields : Codec pushOutputFields
    (u32 >>= fun n => getEntries outputField .invalidMessage n.toNat none ∅) :=
  inverse_counted (fun m : BTreeMap String String => m.size) (P := fun _ => True) fun n =>
    (inverse_byText (entryLaw_pairEntry inverse_string inverse_string _) _ n).domain
      fun _ => by simp

/-- What follows a tag, for the values with that tag. -/
theorem inverse_outputValueOf (t : UInt8) :
    Inverse (fun a => True ∧ outputValueTag a = t) outputValueBody (outputValueOf t) := by
  unfold outputValueOf
  split
  · refine (Inverse.done fun a => ?_).congr (fun a ha => ?_) rfl
    · cases a <;> simp [outputValueTag]
    · cases a <;> simp_all [outputValueTag, outputValueBody]
  · exact kind₁ inverse_string ActionValue.text (fun _ => rfl)
      fun a => by cases a <;> simp [outputValueTag]
  · exact kind₁ inverse_bytes ActionValue.bytes (fun _ => rfl)
      fun a => by cases a <;> simp [outputValueTag]
  · exact kind₁ (codec_list inverse_string) ActionValue.textList (fun _ => rfl)
      fun a => by cases a <;> simp [outputValueTag]
  · refine codec_outputFields.variant .fields (fun _ => rfl) ?_ fun a => ?_
    · simp only [bind_assoc]
    · cases a <;> simp [outputValueTag]
  · refine no_kind fun a ha => ?_
    subst ha
    cases a <;> simp_all [outputValueTag]

/-- The value of an output is read back. -/
theorem codec_outputValue : Codec encodeOutputValue decodeOutputValue :=
  inverse_u8.field outputValueTag (fun _ _ => trivial) fun t _ => inverse_outputValueOf t

/-- An output is read back. -/
theorem codec_output : Codec encodeOutput decodeOutput := by
  refine inverse_string.field ActionOutput.summary (fun _ _ => trivial) fun _ _ => ?_
  refine codec_outputValue.field ActionOutput.value (fun _ _ => trivial) fun _ _ => ?_
  refine (codec_list inverse_string).last ActionOutput.evidence ?_ ?_
  · rintro ⟨⟩ ⟨⟨-, rfl⟩, rfl⟩
    exact ⟨trivial, rfl⟩
  · exact fun _ _ => ⟨⟨⟨trivial, rfl⟩, rfl⟩, rfl⟩

/-- An artifact that is valid is read back. -/
theorem codec_artifact : Codec encodeArtifact decodeArtifact := by
  refine Inverse.guarded ?_ _
  refine inverse_u64.field ArtifactDescriptor.transferId (fun _ _ => trivial) fun _ _ => ?_
  refine inverse_string.field ArtifactDescriptor.name (fun _ _ => trivial) fun _ _ => ?_
  refine inverse_u64.field ArtifactDescriptor.length (fun _ _ => trivial) fun _ _ => ?_
  refine (inverse_block 32).field ArtifactDescriptor.sha256 (fun _ _ => trivial) fun _ _ => ?_
  refine inverse_u32.last ArtifactDescriptor.chunkSize ?_ ?_
  · rintro ⟨⟩ ⟨⟨⟨⟨-, rfl⟩, rfl⟩, rfl⟩, rfl⟩
    exact ⟨trivial, rfl⟩
  · exact fun _ _ => ⟨⟨⟨⟨⟨trivial, rfl⟩, rfl⟩, rfl⟩, rfl⟩, rfl⟩

/-- **A result that is valid is read back.** -/
theorem codec_result : Codec (checkedPut RemoteResult.validate encodeResult) decodeResult := by
  refine Inverse.guarded ?_ _
  refine inverse_u64.field RemoteResult.requestId (fun _ _ => trivial) fun _ _ => ?_
  refine inverse_string.field RemoteResult.capability (fun _ _ => trivial) fun _ _ => ?_
  refine inverse_u32.field RemoteResult.capabilityVersion (fun _ _ => trivial) fun _ _ => ?_
  refine (inverse_block 32).field RemoteResult.requestDigest (fun _ _ => trivial) fun _ _ => ?_
  refine codec_status.field RemoteResult.status (fun _ _ => trivial) fun _ _ => ?_
  refine codec_output.field RemoteResult.output (fun _ _ => trivial) fun _ _ => ?_
  refine (codec_list codec_artifact).field RemoteResult.artifacts (fun _ _ => trivial) fun _ _ => ?_
  refine (inverse_block 32).last RemoteResult.resultDigest ?_ ?_
  · rintro ⟨⟩ ⟨⟨⟨⟨⟨⟨⟨-, rfl⟩, rfl⟩, rfl⟩, rfl⟩, rfl⟩, rfl⟩, rfl⟩
    exact ⟨trivial, rfl⟩
  · exact fun _ _ => ⟨⟨⟨⟨⟨⟨⟨⟨trivial, rfl⟩, rfl⟩, rfl⟩, rfl⟩, rfl⟩, rfl⟩, rfl⟩, rfl⟩

/-- The byte of a side effect class and its inverse. -/
theorem decodeSideEffect_eq_ok (n : UInt8) (s : SideEffectClass) :
    decodeSideEffect n = .ok s ↔ encodeSideEffect s = n := by
  constructor
  · intro h
    unfold decodeSideEffect at h
    split at h <;> cases h <;> rfl
  · rintro rfl
    cases s <;> rfl

/-- A capability that is valid is read back. -/
theorem codec_capability : Codec encodeCapability decodeCapability := by
  have hside : Codec (fun s => pushU8 (encodeSideEffect s)) sideEffect :=
    inverse_coded decodeSideEffect_eq_ok
  have hflag : Codec pushBool flag := inverse_boolean _
  refine Inverse.guarded ?_ _
  refine inverse_string.field RemoteCapability.id (fun _ _ => trivial) fun _ _ => ?_
  refine inverse_u32.field RemoteCapability.version (fun _ _ => trivial) fun _ _ => ?_
  refine hside.field RemoteCapability.sideEffect (fun _ _ => trivial) fun _ _ => ?_
  refine hflag.field RemoteCapability.verificationRequired (fun _ _ => trivial) fun _ _ => ?_
  refine hflag.field RemoteCapability.rollbackSupported (fun _ _ => trivial) fun _ _ => ?_
  refine hflag.field RemoteCapability.resumable (fun _ _ => trivial) fun _ _ => ?_
  refine (codec_list inverse_string).last RemoteCapability.requiredScopes ?_ ?_
  · rintro ⟨⟩ ⟨⟨⟨⟨⟨⟨-, rfl⟩, rfl⟩, rfl⟩, rfl⟩, rfl⟩, rfl⟩
    exact ⟨trivial, rfl⟩
  · exact fun _ _ => ⟨⟨⟨⟨⟨⟨⟨trivial, rfl⟩, rfl⟩, rfl⟩, rfl⟩, rfl⟩, rfl⟩, rfl⟩

/-- A chunk is read back, whatever its transfer id. -/
theorem codec_chunk : Codec (fun chunk : ArtifactChunk => do
    pushU64 chunk.transferId
    pushU64 chunk.offset
    pushBytes chunk.data : ArtifactChunk → Encoder) decodeChunk := by
  refine inverse_u64.field ArtifactChunk.transferId (fun _ _ => trivial) fun _ _ => ?_
  refine inverse_u64.field ArtifactChunk.offset (fun _ _ => trivial) fun _ _ => ?_
  refine inverse_bytes.last ArtifactChunk.data ?_ ?_
  · rintro ⟨⟩ ⟨⟨-, rfl⟩, rfl⟩
    exact ⟨trivial, rfl⟩
  · exact fun _ _ => ⟨⟨⟨trivial, rfl⟩, rfl⟩, rfl⟩

/-! ## Messages -/

/-- **The decoder recovers every payload** behind its tag. -/
theorem reads_messageOf {message : RemoteMessage} {b : Bytes} (h : Emits (messageBody message) b) :
    Reads (messageOf (messageTag message)) b message [] := by
  have hrest : b = b ++ [] := (List.append_nil b).symm
  cases message with
  | capabilities capabilities =>
    have hlaw := (codec_list codec_capability).guarded validateCapabilities
    exact reads_bind.2 ⟨_, [], hrest ▸ hlaw.get_put trivial h [], reads_pure.2 ⟨rfl, rfl⟩⟩
  | request request =>
    have hlaw := codec_request.guarded RemoteRequest.validate
    exact reads_bind.2 ⟨_, [], hrest ▸ hlaw.get_put trivial h [], reads_pure.2 ⟨rfl, rfl⟩⟩
  | result result =>
    exact reads_bind.2 ⟨_, [], hrest ▸ codec_result.get_put trivial h [], reads_pure.2 ⟨rfl, rfl⟩⟩
  | artifactChunk chunk =>
    obtain ⟨-, h⟩ := emits_refuse_bind.1 h
    exact reads_bind.2 ⟨_, [], hrest ▸ codec_chunk.get_put trivial h [], reads_pure.2 ⟨rfl, rfl⟩⟩
  | artifactPull transferId offset =>
    obtain ⟨-, h⟩ := emits_refuse_bind.1 h
    have hpair := (codec_pair (inverse_u64 (ε := PcFabricError)) inverse_u64).get_put
      (a := (transferId, offset)) trivial h []
    rw [List.append_nil] at hpair
    obtain ⟨_, mid, hid, hnext⟩ := reads_bind.1 hpair
    obtain ⟨_, mid', hoffset, hdone⟩ := reads_bind.1 hnext
    obtain ⟨hsame, rfl⟩ := reads_pure.1 hdone
    obtain ⟨rfl, rfl⟩ := Prod.mk.inj hsame
    exact reads_bind.2 ⟨_, mid, hid, reads_bind.2 ⟨_, [], hoffset, reads_pure.2 ⟨rfl, rfl⟩⟩⟩
  | capabilityQuery =>
    obtain rfl := emits_pure.1 h
    exact reads_pure.2 ⟨rfl, rfl⟩

/-- **The decoder gives back what the encoder accepted**, whatever the message. -/
theorem decodeMessage_of_encode {message : RemoteMessage} {b : Bytes}
    (h : encodeMessage message = .ok b) : decodeMessage b = .ok message := by
  obtain ⟨payload, hpayload, h⟩ := bind_eq_ok.1 h
  obtain ⟨payloadLen, hlen, h⟩ := bind_eq_ok.1 h
  obtain rfl := pure_eq_ok.1 h
  rw [written_eq_ok] at hpayload
  have hheader : (pcf97Header (messageTag message) payloadLen).length = pcf97HeaderLen := by
    simp [pcf97Header, pcf97Magic, pcf97HeaderLen]
  have hlength : ofLe (leBytes 4 payloadLen.toNat) = payload.length :=
    (ofLe_leBytes payloadLen.toNat_lt).trans (lenU32_eq_ok.1 hlen)
  have hdrop : (pcf97Header (messageTag message) payloadLen ++ payload).drop pcf97HeaderLen =
      payload := List.drop_left' hheader
  have htotal : (pcf97Header (messageTag message) payloadLen ++ payload).length =
      pcf97HeaderLen + payload.length := by rw [List.length_append, hheader]
  have hfield : ((pcf97Header (messageTag message) payloadLen ++ payload).drop 12).take 4 =
      leBytes 4 payloadLen.toNat := by
    rw [pcf97Header, List.append_assoc, List.drop_left' (by simp [pcf97Magic]),
      List.take_left' (length_leBytes ..)]
  have hversion : versionAt (pcf97Header (messageTag message) payloadLen ++ payload) 6 =
      (pcf97Major, pcf97Minor) := by
    simp only [pcf97Header, List.append_assoc]
    exact versionAt_append rfl _ _
  rw [decodeMessage, hdrop, htotal, hfield, hlength, hversion]
  refine bind_eq_ok.2 ⟨(), refuse_eq_ok.2 ?_, bind_eq_ok.2 ⟨(), refuse_eq_ok.2 ?_,
    bind_eq_ok.2 ⟨(), refuse_eq_ok.2 (not_not.2 rfl), ?_⟩⟩⟩
  · exact not_or.2 ⟨Nat.not_lt.2 (Nat.le_add_right ..), not_not.2 rfl⟩
  · exact not_or.2 ⟨not_not.2 rfl, not_or.2 ⟨UInt16.lt_irrefl _, not_not.2 rfl⟩⟩
  · exact readAll_eq_ok.2 (reads_messageOf hpayload)

namespace WireSample

def observe : RemoteCapability where
  id := "pc.observe"
  version := 1
  sideEffect := .readOnly
  verificationRequired := true
  rollbackSupported := false
  resumable := false
  requiredScopes := ["pc.observe"]

theorem decodeMessage_of_encode_capabilities :
    decodeMessage ((encodeMessage (.capabilities [observe])).toOption.getD []) =
      .ok (.capabilities [observe]) :=
  decodeMessage_of_encode (eq_ok_getD (by decide +kernel) [])

end WireSample

end PcFabric

end NTD97
