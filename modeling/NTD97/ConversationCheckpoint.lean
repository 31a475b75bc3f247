import Mathlib
import NTD97.Conversation.Runs

/-!
# ConversationCheckpoint — the NCS97 file of a conversation

    header ▪ length ▪ SIK97 file of the mind ▪ turns ▪ turn in progress

A conversation's file holds the file of its mind, as it is, followed by the history and the turn in
progress.  Files of version `0.1` and before have no action checkpoint in the turn.  Reading a file
of the current version, with a mind of the current version inside, inverts writing it.
-/

namespace NTD97

open Guard Effect Text SortedMap Machine Wire

/-- The letters `NCS97` and a zero byte. -/
def ncs97Magic : Bytes := [78, 67, 83, 57, 55, 0]

/-- The format `NCS97`, version `0.2`. -/
def ncs97 : Format where
  magic := ncs97Magic
  major := 0
  minor := 2
  magic_length := rfl

instance : FrameError ConversationStateError where
  truncated := .truncated
  overflow := .overflow
  invalidUtf8 := .invalidUtf8
  invalidMagic := .invalidMagic
  invalidHeader := .invalidHeader
  unsupportedVersion := .unsupportedVersion
  nonCanonicalEncoding := .nonCanonicalEncoding

namespace ConversationCheckpoint

/-- Writing a part of a conversation. -/
abbrev Encoder := Put ConversationStateError Unit

/-- Reading a part of a conversation. -/
abbrev Decoder := Get ConversationStateError

/-! ## Blocks with a limit

A block that is too long is refused by the writer and, before it is read, by the reader. -/

/-- A text within the limit. -/
def pushText (value : String) : Encoder := pushCappedBytes maxTextBytes .limitExceeded (utf8 value)

/-- A text within the limit, valid UTF-8. -/
def string : Decoder String := do
  let b ← cappedBytes maxTextBytes .limitExceeded
  text b

/-- Tokens within the limit. -/
def pushTokens (tokens : List UInt32) : Encoder :=
  pushCappedList maxTokens .limitExceeded pushU32 tokens

/-- Tokens within the limit, as they are read. -/
def tokens : Decoder (List UInt32) := cappedList maxTokens .limitExceeded u32

/-- A saved fabric within the limit. -/
def pushCheckpoint (value : Bytes) : Encoder :=
  pushCappedBytes maxActionFabricCheckpointBytes .limitExceeded value

/-- A saved fabric within the limit, as it is read. -/
def checkpoint : Decoder Bytes := cappedBytes maxActionFabricCheckpointBytes .limitExceeded

/-! ## Turns

A finished turn is a role and a text; the one being answered has all its fields. -/

/-- The byte of a role. -/
def roleByte : ConversationRole → UInt8
  | .user => 1
  | .assistant => 2

/-- The role of a byte. -/
def role : UInt8 → Except ConversationStateError ConversationRole
  | 1 => .ok .user
  | 2 => .ok .assistant
  | other => .error (.invalidRole other)

/-- Role and text. -/
def encodeTurn (turn : ConversationTurn) : Encoder := do
  pushU8 (roleByte turn.role)
  pushText turn.content

/-- A byte that names a role. -/
def decodeRole : Decoder ConversationRole := do
  let raw ← u8
  role raw

/-- A turn, before its place is checked. -/
def decodeTurn : Decoder ConversationTurn := do
  let role ← decodeRole
  let content ← string
  return { role, content }

/-- The turn being answered, with its saved fabric. -/
def encodeActive (active : ActiveConversationTurn) : Encoder := do
  pushU64 active.taskId
  pushText active.modelAssetId
  pushU32 active.modelVersion
  pushText active.userMessage
  pushUsize active.maxNewTokens
  pushTokens active.promptTokens
  pushTokens active.generatedTokens
  pushText active.generatedText
  pushOption pushCheckpoint active.actionFabricCheckpoint

/-- A presence byte, then the value. -/
def flagged {α : Type} (get : Decoder α) : Decoder (Option α) :=
  getOption (fun _ => .nonCanonicalEncoding) get

/-- Older versions have no checkpoint. -/
def optionalCheckpoint (minor : UInt16) : Decoder (Option Bytes) :=
  if 2 ≤ minor then flagged checkpoint else pure none

/-- The turn being answered, as a minor version knows it. -/
def decodeActive (minor : UInt16) : Decoder ActiveConversationTurn := do
  let taskId ← u64
  let modelAssetId ← string
  let modelVersion ← u32
  let userMessage ← string
  let maxNewTokens ← usize
  let promptTokens ← tokens
  let generatedTokens ← tokens
  let generatedText ← string
  let actionFabricCheckpoint ← optionalCheckpoint minor
  return {
    taskId, modelAssetId, modelVersion, userMessage, promptTokens, generatedTokens, generatedText,
    maxNewTokens, actionFabricCheckpoint }

/-! ## The payload

The mind's own file stands in it as a block. -/

/-- What a payload says: the file of the mind with what it decodes to, and the turns. -/
structure Payload where
  embedded : Bytes × CognitiveState
  turns : List ConversationTurn
  active : Option ActiveConversationTurn

/-- The payload of the file. -/
def encodePayload (p : Payload) : Encoder := do
  pushUsize p.embedded.1.length
  tell p.embedded.1
  pushList encodeTurn p.turns
  pushOption encodeActive p.active

/-- The file of the mind, and the mind that it makes. -/
def decodeEmbedded (len : ℕ) : Decoder (Bytes × CognitiveState) := do
  let b ← take len
  let state ← (decodeCognitiveCheckpoint b).mapError ConversationStateError.checkpoint
  let cognition ← (CognitiveRuntime.fromState state).mapError ConversationStateError.cognitive
  return (b, cognition)

/-- The payload of a minor version. -/
def decodePayload (minor : UInt16) : Decoder Payload := do
  let len ← usize
  let embedded ← decodeEmbedded len
  let turns ← cappedList maxTurns .limitExceeded decodeTurn
  let active ← flagged (decodeActive minor)
  return { embedded, turns, active }

end ConversationCheckpoint

open ConversationCheckpoint

/-- `encode_conversation_checkpoint`: history and turn in progress are validated. -/
def encodeConversationCheckpoint (state : SovereignConversationState) :
    Except ConversationStateError Bytes := do
  validateTurns state.turns
  validateActive state.cognition state.active
  let cognitive ← (encodeCognitiveCheckpoint state.cognition).mapError .checkpoint
  let payload ← written (encodePayload {
    embedded := (cognitive, state.cognition), turns := state.turns, active := state.active })
  sealFrame ncs97 payload

/-- `decode_conversation_checkpoint`: what was read is put together as a new conversation would be.
-/
def decodeConversationCheckpoint (bytes : Bytes) :
    Except ConversationStateError SovereignConversationState := do
  let (minor, payload) ← openFrame ncs97 bytes
  let p ← readAll (decodePayload minor) .nonCanonicalEncoding payload
  SovereignConversationState.fromParts p.embedded.2 p.turns p.active

/-! ## The laws of the codecs

Each part is read back, limits and all. -/

namespace ConversationCheckpoint

/-- A text is read back. -/
theorem codec_string : Codec pushText string := inverse_utf8 (inverse_cappedBytes ..)

/-- Tokens are read back. -/
theorem codec_tokens : Codec pushTokens tokens := (inverse_cappedList _ _ inverse_u32).refused

/-- A saved fabric is read back. -/
theorem codec_checkpoint : Codec pushCheckpoint checkpoint := inverse_cappedBytes ..

/-- A role is read back. -/
theorem codec_role : Codec (fun r => pushU8 (roleByte r)) decodeRole := by
  refine inverse_coded fun n r => ⟨fun h => ?_, ?_⟩
  · unfold role at h
    split at h <;> cases h <;> rfl
  · rintro rfl
    cases r <;> rfl

/-- A turn is read back. -/
theorem codec_turn : Codec encodeTurn decodeTurn := by
  refine codec_role.field ConversationTurn.role (fun _ _ => trivial) fun _ _ => ?_
  refine codec_string.last ConversationTurn.content ?_ ?_
  · rintro ⟨⟩ ⟨-, rfl⟩
    exact ⟨trivial, rfl⟩
  · exact fun _ _ => ⟨⟨trivial, rfl⟩, rfl⟩

/-- The turn being answered is read back. -/
theorem codec_active : Codec encodeActive (decodeActive ncs97.minor) := by
  refine inverse_u64.field ActiveConversationTurn.taskId (fun _ _ => trivial) fun _ _ => ?_
  refine codec_string.field ActiveConversationTurn.modelAssetId (fun _ _ => trivial) fun _ _ => ?_
  refine inverse_u32.field ActiveConversationTurn.modelVersion (fun _ _ => trivial) fun _ _ => ?_
  refine codec_string.field ActiveConversationTurn.userMessage (fun _ _ => trivial) fun _ _ => ?_
  refine inverse_usize.field ActiveConversationTurn.maxNewTokens (fun _ _ => trivial) fun _ _ => ?_
  refine codec_tokens.field ActiveConversationTurn.promptTokens (fun _ _ => trivial) fun _ _ => ?_
  refine codec_tokens.field ActiveConversationTurn.generatedTokens (fun _ _ => trivial)
    fun _ _ => ?_
  refine codec_string.field ActiveConversationTurn.generatedText (fun _ _ => trivial) fun _ _ => ?_
  refine (codec_option codec_checkpoint).last ActiveConversationTurn.actionFabricCheckpoint ?_ ?_
  · rintro ⟨⟩ ⟨⟨⟨⟨⟨⟨⟨⟨-, rfl⟩, rfl⟩, rfl⟩, rfl⟩, rfl⟩, rfl⟩, rfl⟩, rfl⟩
    exact ⟨trivial, rfl⟩
  · intro _ _
    simp

/-- The file of a mind, and what it decodes to. -/
def Embeds (p : Bytes × CognitiveState) : Prop := decodeCognitiveCheckpoint p.1 = .ok p.2

/-- The mind's file is read back together with what it decodes to. -/
theorem inverse_embedded (len : ℕ) :
    Inverse (fun p : Bytes × CognitiveState => Embeds p ∧ p.1.length = len)
      (fun p => (tell p.1 : Encoder)) (decodeEmbedded len) where
  get_put {p b} hp hb rest := by
    rw [emits_tell] at hb
    subst hb
    have hvalid := (decodeCognitiveCheckpoint_eq_ok.1 hp.1).1
    refine reads_bind.2 ⟨p.1, rest, reads_take.2 ⟨hp.2, rfl⟩, reads_bind.2 ⟨p.2, rest, ?_, ?_⟩⟩
    · exact reads_lift.2 ⟨mapError_eq_ok.2 hp.1, rfl⟩
    · refine reads_bind.2 ⟨p.2, rest, reads_lift.2 ⟨?_, rfl⟩, reads_pure.2 ⟨rfl, rfl⟩⟩
      exact mapError_eq_ok.2 (fromState_eq_ok.2 ⟨hvalid, rfl⟩)
  put_get {bs p rest} hr := by
    obtain ⟨b, mid, hb, hrest⟩ := reads_bind.1 hr
    obtain ⟨state, mid', hstate, hreturn⟩ := reads_bind.1 hrest
    obtain ⟨cognition, mid'', hcognition, hpair⟩ := reads_bind.1 hreturn
    obtain ⟨rfl, rfl⟩ := reads_take.1 hb
    obtain ⟨hdecode, rfl⟩ := reads_lift.1 hstate
    obtain ⟨hfrom, rfl⟩ := reads_lift.1 hcognition
    obtain ⟨rfl, rfl⟩ := reads_pure.1 hpair
    obtain ⟨-, rfl⟩ := fromState_eq_ok.1 (mapError_eq_ok.1 hfrom)
    exact ⟨⟨mapError_eq_ok.1 hdecode, rfl⟩, b, emits_tell.2 rfl, rfl⟩

/-- The embedded file decodes, and the history is not too long. -/
structure PayloadValid (p : Payload) : Prop where
  embeds : Embeds p.embedded
  few : p.turns.length ≤ maxTurns

/-- **The payload is read back** by the current version. -/
theorem inverse_payload :
    Inverse PayloadValid encodePayload (decodePayload ncs97.minor) := by
  refine inverse_usize.field (fun p : Payload => p.embedded.1.length) (fun _ _ => trivial)
    fun len _ => ?_
  refine (inverse_embedded len).field Payload.embedded (fun _ h => ⟨h.1.embeds, h.2⟩)
    fun embedded hembedded => ?_
  refine (inverse_cappedList _ _ codec_turn).field Payload.turns
    (fun _ h => ⟨trivial, Nat.not_lt.2 h.1.1.few⟩) fun turns hturns => ?_
  refine (codec_option codec_active).last Payload.active ?_ ?_
  · rintro ⟨⟩ ⟨⟨⟨-, -⟩, rfl⟩, rfl⟩
    exact ⟨trivial, rfl⟩
  · intro active _
    exact ⟨⟨⟨⟨⟨hembedded.1, Nat.le_of_not_lt hturns.2⟩, hembedded.2⟩, rfl⟩, rfl⟩, rfl⟩

end ConversationCheckpoint

/-! ## The file

The frame holds the payload; the validators are the same on both sides. -/

/-- What the file of a conversation says, when `cognitive` is the file of its mind. -/
def SovereignConversationState.payload (s : SovereignConversationState) (cognitive : Bytes) :
    Payload where
  embedded := (cognitive, s.cognition)
  turns := s.turns
  active := s.active

/-- The minor version the file of the mind inside a file states. -/
def embeddedMinor (b : Bytes) : UInt16 := headerMinor (b.drop (headerLen + 8))

/-- Both validators accept the conversation. -/
structure Accepted (s : SovereignConversationState) : Prop where
  turns : validateTurns s.turns = .ok ()
  active : validateActive s.cognition s.active = .ok ()

/-- A file is the frame of an accepted conversation's payload. -/
theorem encodeConversationCheckpoint_eq_ok {s : SovereignConversationState} {b : Bytes} :
    encodeConversationCheckpoint s = .ok b ↔ Accepted s ∧ ∃ cognitive payload,
      encodeCognitiveCheckpoint s.cognition = .ok cognitive ∧
        written (encodePayload (s.payload cognitive)) = .ok payload ∧
        sealFrame (ε := ConversationStateError) ncs97 payload = .ok b := by
  simp only [encodeConversationCheckpoint, bind_eq_ok, exists_unit, mapError_eq_ok]
  constructor
  · rintro ⟨hturns, hactive, cognitive, hcognitive, payload, hpayload, hseal⟩
    exact ⟨⟨hturns, hactive⟩, cognitive, payload, hcognitive, hpayload, hseal⟩
  · rintro ⟨⟨hturns, hactive⟩, cognitive, payload, hcognitive, hpayload, hseal⟩
    exact ⟨hturns, hactive, cognitive, hcognitive, payload, hpayload, hseal⟩

/-- The parts of a file make a conversation if they are accepted. -/
theorem fromParts_eq_ok {p : Payload} {s : SovereignConversationState} :
    SovereignConversationState.fromParts p.embedded.2 p.turns p.active = .ok s ↔
      Accepted s ∧ p = s.payload p.embedded.1 := by
  simp only [SovereignConversationState.fromParts, bind_eq_ok, exists_unit, pure_eq_ok]
  constructor
  · rintro ⟨hturns, hactive, rfl⟩
    exact ⟨⟨hturns, hactive⟩, rfl⟩
  · rintro ⟨⟨hturns, hactive⟩, hp⟩
    rw [hp]
    exact ⟨hturns, hactive, rfl⟩

/-- A file of the current version is the frame of what the conversation says. -/
theorem decodeConversationCheckpoint_eq_ok {s : SovereignConversationState} {b : Bytes}
    (hminor : headerMinor b = ncs97.minor) :
    decodeConversationCheckpoint b = .ok s ↔ Accepted s ∧ ∃ cognitive payload,
      decodeCognitiveCheckpoint cognitive = .ok s.cognition ∧
        written (encodePayload (s.payload cognitive)) = .ok payload ∧
        sealFrame (ε := ConversationStateError) ncs97 payload = .ok b := by
  simp only [decodeConversationCheckpoint, bind_eq_ok, Prod.exists]
  constructor
  · rintro ⟨minor, payload, hopen, p, hp, hs⟩
    obtain rfl : minor = ncs97.minor := by
      rw [← hminor, headerMinor_of_openFrame hopen]
    obtain ⟨hvalid, hpayload⟩ := inverse_payload.readAll_eq_ok.1 hp
    obtain ⟨haccepted, hp⟩ := fromParts_eq_ok.1 hs
    rw [hp] at hvalid hpayload
    exact ⟨haccepted, p.embedded.1, payload, hvalid.embeds, hpayload,
      openFrame_iff_sealFrame.1 hopen⟩
  · rintro ⟨haccepted, cognitive, payload, hembeds, hpayload, hseal⟩
    have hfew := (validateTurns_eq_ok.1 haccepted.turns).few
    refine ⟨ncs97.minor, payload, openFrame_iff_sealFrame.2 hseal, s.payload cognitive, ?_, ?_⟩
    · exact inverse_payload.readAll_eq_ok.2 ⟨⟨hembeds, hfew⟩, hpayload⟩
    · exact fromParts_eq_ok.2 ⟨haccepted, rfl⟩

/-- The file of the mind stands right behind the header and its own length. -/
theorem embeddedMinor_eq {p : Payload} {payload b : Bytes}
    (hpayload : written (encodePayload p) = .ok payload)
    (hseal : sealFrame (ε := ConversationStateError) ncs97 payload = .ok b) :
    ∃ rest, embeddedMinor b = headerMinor (p.embedded.1 ++ rest) := by
  obtain ⟨-, header, hheader, rfl⟩ := sealFrame_eq_ok.1 hseal
  rw [written_eq_ok] at hpayload
  simp only [encodePayload, pushUsize, pushU64, emits_bind, emits_lift_bind, emits_tell,
    exists_eq_left'] at hpayload
  obtain ⟨len, ⟨count, -, rfl⟩, body, ⟨rest, -, rfl⟩, rfl⟩ := hpayload
  refine ⟨rest, congrArg headerMinor ?_⟩
  rw [← List.append_assoc]
  refine List.drop_left' ?_
  rw [List.length_append, length_pushHeader hheader, length_leBytes]

/-- What was saved is restored. -/
theorem decodeConversationCheckpoint_of_encode {s : SovereignConversationState} {b : Bytes}
    (hpos : IdsPositive s.cognition) (hencode : encodeConversationCheckpoint s = .ok b) :
    decodeConversationCheckpoint b = .ok s := by
  obtain ⟨haccepted, cognitive, payload, hcognitive, hpayload, hseal⟩ :=
    encodeConversationCheckpoint_eq_ok.1 hencode
  have hminor := headerMinor_of_openFrame (openFrame_iff_sealFrame.2 hseal)
  exact (decodeConversationCheckpoint_eq_ok hminor).2 ⟨haccepted, cognitive, payload,
    decodeCognitiveCheckpoint_of_encode hcognitive hpos, hpayload, hseal⟩

/-- **Conversation checkpoints are lossless and canonical.**  A file that was written is read back,
if no goal, task or delta has the id `0`; and a file that was read, of the current version with a
mind of the current version inside, is written again byte by byte. -/
theorem ncs97_lossless_canonical (s : SovereignConversationState) (b : Bytes) :
    (IdsPositive s.cognition → encodeConversationCheckpoint s = .ok b →
      decodeConversationCheckpoint b = .ok s) ∧
    (headerMinor b = ncs97.minor → embeddedMinor b = sik97.minor →
      decodeConversationCheckpoint b = .ok s → encodeConversationCheckpoint s = .ok b) := by
  refine ⟨decodeConversationCheckpoint_of_encode, fun hminor hembedded hdecode => ?_⟩
  obtain ⟨haccepted, cognitive, payload, hcognitive, hpayload, hseal⟩ :=
    (decodeConversationCheckpoint_eq_ok hminor).1 hdecode
  obtain ⟨rest, hrest⟩ := embeddedMinor_eq hpayload hseal
  rw [hembedded] at hrest
  exact encodeConversationCheckpoint_eq_ok.2 ⟨haccepted, cognitive, payload,
    encodeCognitiveCheckpoint_of_decode hcognitive hrest.symm, hpayload, hseal⟩

namespace ConversationSample

/-- The file of a conversation with a question that is being answered. -/
def file : Bytes := (encodeConversationCheckpoint (answered "hello")).toOption.getD []

theorem answered_facts : (encodeConversationCheckpoint (answered "hello")).toOption.isSome ∧
    ((0 : UInt64) ∉ (answered "hello").cognition.goals ∧
      (0 : UInt64) ∉ (answered "hello").cognition.tasks ∧
        (0 : UInt64) ∉ (answered "hello").cognition.deltas) ∧
    headerMinor file = ncs97.minor ∧ embeddedMinor file = sik97.minor := by
  decide +kernel

end ConversationSample

open ConversationSample in
theorem ncs97_lossless_canonical_answered :
    decodeConversationCheckpoint file = .ok (answered "hello") ∧
      encodeConversationCheckpoint (answered "hello") = .ok file := by
  obtain ⟨hsome, ⟨hgoals, htasks, hdeltas⟩, hminor, hembedded⟩ := answered_facts
  have hencode : encodeConversationCheckpoint (answered "hello") = .ok file :=
    Guard.eq_ok_getD hsome _
  obtain ⟨hlossless, hcanonical⟩ := ncs97_lossless_canonical (answered "hello") file
  have hdecode := hlossless ⟨hgoals, htasks, hdeltas⟩ hencode
  exact ⟨hdecode, hcanonical hminor hembedded hdecode⟩

/-! ## What a conversation reaches can be saved

Its validity with the limits is exactly what the file asks for. -/

namespace ConversationCheckpoint

/-- A text within the limit is refused only for a length. -/
theorem tame_pushText {value : String} (h : value.utf8ByteSize ≤ maxTextBytes) :
    Tame (pushText value) :=
  tame_refuse_bind (Nat.not_lt.2 h) (tame_pushBytes _)

/-- Tokens within the limit are refused only for a length. -/
theorem tame_pushTokens {l : List UInt32} (h : l.length ≤ maxTokens) : Tame (pushTokens l) :=
  tame_refuse_bind (Nat.not_lt.2 h) (tame_pushList tame_pushU32 l)

/-- A valid history is refused only for a length. -/
theorem tame_encodeTurns {turns : List ConversationTurn} (h : TurnsValid turns) :
    Tame (pushList encodeTurn turns) := by
  refine tame_counted _ (tame_forM fun turn hturn => ?_)
  obtain ⟨i, hi⟩ := List.getElem?_of_mem hturn
  exact .bind (tame_pushU8 _) (tame_pushText (h.turn i turn hi).short)

/-- A valid turn in progress is refused only for a length. -/
theorem tame_encodeActive {cognition : CognitiveState} {active : ActiveConversationTurn}
    (h : ActiveValid True cognition active) : Tame (encodeActive active) := by
  obtain ⟨hasset, hmessage, htokens⟩ := h.limits trivial
  have hcheckpoint : Tame (pushOption pushCheckpoint active.actionFabricCheckpoint) := by
    cases hc : active.actionFabricCheckpoint with
    | none => exact tame_pushU8 0
    | some c =>
      have hlen := not_lt.1 (not_or.1 (not_or.1 (h.checkpoint c hc)).2).1
      exact .bind (tame_pushU8 1) (tame_refuse_bind (Nat.not_lt.2 hlen) (tame_pushBytes c))
  exact .bind (tame_pushU64 _) <| .bind (tame_pushText hasset) <| .bind (tame_pushU32 _) <|
    .bind (tame_pushText hmessage) <| .bind (tame_pushUsize _) <|
    .bind (tame_pushTokens h.prompt_le) <|
    .bind (tame_pushTokens (h.generated.trans htokens)) <| .bind (tame_pushText h.text) hcheckpoint

end ConversationCheckpoint

section Savable

variable {s : SovereignConversationState}

/-- What the validator of a turn in progress decides, whether there is one or not. -/
theorem validateActive_eq_ok :
    validateActive s.cognition s.active = .ok () ↔
      ∀ active, s.active = some active → ActiveValid True s.cognition active := by
  cases hactive : s.active with
  | none => exact ⟨fun _ _ h => (nomatch h), fun _ => rfl⟩
  | some active =>
    rw [validateActive_some_eq_ok]
    exact ⟨fun h _ heq => Option.some.inj heq ▸ h, fun h => h active rfl⟩

/-- What the file accepts is within the limits. -/
theorem Accepted.conversationValid (h : Accepted s) (hs : ConversationValid False s) :
    ConversationValid True s :=
  ⟨hs.cognition, hs.turns, validateActive_eq_ok.1 h.active⟩

/-- What is within the limits the file accepts. -/
theorem ConversationValid.accepted (h : ConversationValid True s) : Accepted s :=
  ⟨validateTurns_eq_ok.2 h.turns, validateActive_eq_ok.2 h.active⟩

/-- The file of an accepted conversation is refused for its mind or for its size only. -/
theorem Accepted.encode_error (h : Accepted s) {e : ConversationStateError}
    (he : encodeConversationCheckpoint s = .error e) :
    (∃ e', .checkpoint e' = e) ∨ e = .overflow := by
  have htame : ∀ cognitive, Tame (encodePayload (s.payload cognitive)) := by
    intro cognitive
    refine .bind (tame_pushUsize _) (.bind (tame_tell _) (.bind ?_ ?_))
    · exact tame_encodeTurns (validateTurns_eq_ok.1 h.turns)
    · change Tame (pushOption encodeActive s.active)
      cases hactive : s.active with
      | none => exact tame_pushU8 0
      | some active =>
        exact .bind (tame_pushU8 1) (tame_encodeActive (validateActive_eq_ok.1 h.active _ hactive))
  simp only [encodeConversationCheckpoint, bind_eq_error, exists_unit, mapError_eq_error, h.turns,
    h.active, true_and] at he
  rcases he with hturns | hactive | ⟨e', -, he'⟩ | ⟨cognitive, -, hwritten | ⟨payload, -, hseal⟩⟩
  · cases hturns
  · cases hactive
  · exact .inl ⟨e', he'⟩
  · exact .inr ((htame cognitive).written_error hwritten)
  · exact .inr (sealFrame_error hseal)

/-- **A conversation can be saved**: both validators accept it, and its file is not refused for its
history, its turn in progress or a limit. -/
structure Savable (s : SovereignConversationState) : Prop extends Accepted s where
  history : encodeConversationCheckpoint s ≠ .error .invalidHistory
  activeTurn : encodeConversationCheckpoint s ≠ .error .invalidActiveTurn
  limits : encodeConversationCheckpoint s ≠ .error .limitExceeded

/-- What the file accepts can be saved. -/
theorem Accepted.savable (h : Accepted s) : Savable s where
  toAccepted := h
  history he := by rcases h.encode_error he with ⟨e', he'⟩ | he' <;> cases he'
  activeTurn he := by rcases h.encode_error he with ⟨e', he'⟩ | he' <;> cases he'
  limits he := by rcases h.encode_error he with ⟨e', he'⟩ | he' <;> cases he'

/-- **To be savable is to be within the limits.** -/
theorem savable_iff (hs : ConversationValid False s) : Savable s ↔ ConversationValid True s :=
  ⟨fun h => h.toAccepted.conversationValid hs, fun h => h.accepted.savable⟩

end Savable

/-- **A conversation can be saved after every call exactly if every turn it began was within the
limits.** -/
theorem savable_iff_boundedSteps [SovereignMemory.CharTables] (identity : CognitiveIdentity)
    (ops : List ConversationOp) :
    StatesMeet SovereignConversationState.step Savable (.new identity) ops ↔
      StepsMeet SovereignConversationState.step SovereignConversationState.BoundedStep
        (.new identity) ops := by
  have hvalid : ∀ (s : SovereignConversationState) op, ConversationValid False s →
      ConversationValid False (s.step op) :=
    fun s op hs => (conversationValid_step_iff hs op).2 (fun h => h.elim)
  refine statesMeet_iff hvalid (fun s op hs hsavable => ?_) ops _ (conversationValid_new _ identity)
    (conversationValid_new True identity).accepted.savable
  rw [savable_iff hs] at hsavable
  rw [savable_iff (hvalid s op hs), conversationValid_step_iff hsavable op]
  exact ⟨fun h => h trivial, fun h _ => h⟩

namespace ConversationSample

open CognitionSample

/-- A conversation whose turn may generate more tokens than a stored turn. -/
def overspent : SovereignConversationState :=
  run SovereignConversationState.step (.new identity) [.beginTurn "model" 1 "hello" [1] 1000001]

end ConversationSample

open ConversationSample CognitionSample in
/-- `beginTurn` accepts a budget of one token too many, and the conversation cannot be saved. -/
theorem not_savable_overspent : Reached overspent ∧ overspent.active.isSome ∧
    encodeConversationCheckpoint overspent = .error .invalidActiveTurn ∧ ¬ Savable overspent := by
  have hencode : encodeConversationCheckpoint overspent = .error .invalidActiveTurn := by
    decide +kernel
  exact ⟨⟨_, _, rfl⟩, by decide +kernel, hencode, fun h => h.activeTurn hencode⟩

end NTD97
