import Mathlib
import NTD97.PcFabric.Wire

/-!
# PcFabric/Binding — a result answers one request

    request ▸ fields ▸ SHA-256 ▸ requestDigest ▸ result ▸ fields ▸ SHA-256 ▸ resultDigest

The digested fields of a request are a codec, and so are those of a result: they leave nothing out,
and two different values never have the same encoding.  Values with the same digest are then equal,
or their encodings are a collision.
-/

namespace NTD97

open Guard Wire

namespace PcFabric

/-! ## What is digested -/

/-- The fields of a request in the order of its digest. -/
abbrev RequestFields := UInt64 × String × UInt32 × RemoteAction

def requestFields (request : RemoteRequest) : RequestFields :=
  (request.requestId, request.capability, request.capabilityVersion, request.action)

/-- The fields of a result in the order of its digest. -/
abbrev ResultFields :=
  UInt64 × String × UInt32 × Digest × RemoteResultStatus × ActionOutput × List ArtifactDescriptor

def resultFields (result : RemoteResult) : ResultFields :=
  (result.requestId, result.capability, result.capabilityVersion, result.requestDigest,
    result.status, result.output, result.artifacts)

def pushRequestFields (fields : RequestFields) : Encoder := do
  pushU64 fields.1
  pushString fields.2.1
  pushU32 fields.2.2.1
  encodeAction fields.2.2.2

def pushResultFields (fields : ResultFields) : Encoder := do
  pushU64 fields.1
  pushString fields.2.1
  pushU32 fields.2.2.1
  tell fields.2.2.2.1.bytes
  encodeStatus fields.2.2.2.2.1
  encodeOutput fields.2.2.2.2.2.1
  pushList encodeArtifact fields.2.2.2.2.2.2

theorem codec_requestFields : ∃ get, Codec pushRequestFields get :=
  ⟨_, codec_pair inverse_u64 (codec_pair inverse_string (codec_pair inverse_u32 codec_action))⟩

theorem codec_resultFields : ∃ get, Codec pushResultFields get :=
  ⟨_, codec_pair inverse_u64 (codec_pair inverse_string (codec_pair inverse_u32
    (codec_pair (inverse_block 32) (codec_pair codec_status (codec_pair codec_output
      (codec_list codec_artifact))))))⟩

/-- **Equal labelled encodings are of equal values.** -/
theorem eq_of_labelled {α : Type} {put : α → Encoder} (hcodec : ∃ get, Codec put get)
    {label : Bytes} {a a' : α} {b : Bytes} (h : Emits (do tell label; put a) b)
    (h' : Emits (do tell label; put a') b) : a = a' := by
  obtain ⟨get, hget⟩ := hcodec
  obtain ⟨_, hlabel, rest, hput, rfl⟩ := emits_bind.1 h
  obtain ⟨_, hlabel', rest', hput', hsame⟩ := emits_bind.1 h'
  obtain rfl := hlabel.unique hlabel'
  exact (hget.cancel trivial trivial hput hput'
    (congrArg (· ++ []) (List.append_cancel_left hsame))).1

/-! ## Encodings that collide -/

/-- The bytes behind the digest of a request. -/
def requestEncoding (request : RemoteRequest) : Except PcFabricError Bytes :=
  written do
    tell (utf8 "NTD97-PCF97-REQUEST")
    pushRequestFields (requestFields request)

/-- The bytes behind the digest of a result. -/
def resultEncoding (result : RemoteResult) : Except PcFabricError Bytes :=
  written do
    tell (utf8 "NTD97-PCF97-RESULT")
    pushResultFields (resultFields result)

theorem digestRequest_eq (request : RemoteRequest) :
    digestRequest request = sha256 <$> requestEncoding request := rfl

theorem digestResult_eq (result : RemoteResult) :
    digestResult result = sha256 <$> resultEncoding result := rfl

/-- The two encodings are a collision. -/
def EncodingsCollide (x y : Except PcFabricError Bytes) : Prop :=
  ∃ b b', x = .ok b ∧ y = .ok b' ∧ Collides b b'

/-- Encodings with the same digest are the same, or they collide. -/
theorem same_or_collide {x y : Except PcFabricError Bytes} {digest : Digest}
    (hx : sha256 <$> x = .ok digest) (hy : sha256 <$> y = .ok digest) :
    (∃ b, x = .ok b ∧ y = .ok b) ∨ EncodingsCollide x y := by
  cases x with
  | error e => cases hx
  | ok b =>
    cases y with
    | error e => cases hy
    | ok b' =>
      have hsame : sha256 b = sha256 b' := Except.ok.inj (hx.trans hy.symm)
      rcases eq_or_collides hsame with rfl | hcollides
      · exact .inl ⟨b, rfl, rfl⟩
      · exact .inr ⟨b, b', rfl, rfl, hcollides⟩

/-! ## Requests and results -/

theorem digestRequest_of_validate {request : RemoteRequest} (h : request.validate = .ok ()) :
    digestRequest request = .ok request.requestDigest := by
  obtain ⟨_, -, h⟩ := bind_eq_ok.1 h
  obtain ⟨_, -, h⟩ := bind_eq_ok.1 h
  obtain ⟨_, -, h⟩ := bind_eq_ok.1 h
  obtain ⟨digest, hdigest, h⟩ := bind_eq_ok.1 h
  rw [hdigest, not_not.1 (refuse_eq_ok.1 h)]

theorem digestResult_of_validate {result : RemoteResult} (h : result.validate = .ok ()) :
    digestResult result = .ok result.resultDigest := by
  obtain ⟨_, -, h⟩ := bind_eq_ok.1 h
  obtain ⟨digest, hdigest, h⟩ := bind_eq_ok.1 h
  rw [hdigest, not_not.1 (refuse_eq_ok.1 h)]

/-- What a verified result has in common with its request. -/
theorem verifyAgainst_eq_ok {result : RemoteResult} {request : RemoteRequest}
    (h : result.verifyAgainst request = .ok ()) :
    request.validate = .ok () ∧ result.validate = .ok () ∧
      result.requestDigest = request.requestDigest := by
  obtain ⟨_, hrequest, h⟩ := bind_eq_ok.1 h
  obtain ⟨_, hresult, h⟩ := bind_eq_ok.1 h
  have hfields := refuse_eq_ok.1 h
  simp only [not_or, not_not] at hfields
  exact ⟨hrequest, hresult, hfields.2.2.2⟩

theorem request_ext {q q' : RemoteRequest} (hfields : requestFields q = requestFields q')
    (hdigest : q.requestDigest = q'.requestDigest) : q = q' := by
  cases q
  cases q'
  cases hfields
  cases hdigest
  rfl

theorem result_ext {r r' : RemoteResult} (hfields : resultFields r = resultFields r')
    (hdigest : r.resultDigest = r'.resultDigest) : r = r' := by
  cases r
  cases r'
  cases hfields
  cases hdigest
  rfl

/-- **Valid requests with one digest are one request**, or their encodings collide. -/
theorem request_eq_or_collide {q q' : RemoteRequest} (h : q.validate = .ok ())
    (h' : q'.validate = .ok ()) (hdigest : q.requestDigest = q'.requestDigest) :
    q = q' ∨ EncodingsCollide (requestEncoding q) (requestEncoding q') := by
  have hq := digestRequest_of_validate h
  have hq' := digestRequest_of_validate h'
  rw [digestRequest_eq] at hq hq'
  rw [← hdigest] at hq'
  refine (same_or_collide hq hq').imp_left ?_
  rintro ⟨b, hb, hb'⟩
  exact request_ext (eq_of_labelled codec_requestFields (written_eq_ok.1 hb) (written_eq_ok.1 hb'))
    hdigest

/-- **Valid results with one digest are one result**, or their encodings collide. -/
theorem result_eq_or_collide {r r' : RemoteResult} (h : r.validate = .ok ())
    (h' : r'.validate = .ok ()) (hdigest : r.resultDigest = r'.resultDigest) :
    r = r' ∨ EncodingsCollide (resultEncoding r) (resultEncoding r') := by
  have hr := digestResult_of_validate h
  have hr' := digestResult_of_validate h'
  rw [digestResult_eq] at hr hr'
  rw [← hdigest] at hr'
  refine (same_or_collide hr hr').imp_left ?_
  rintro ⟨b, hb, hb'⟩
  exact result_ext (eq_of_labelled codec_resultFields (written_eq_ok.1 hb) (written_eq_ok.1 hb'))
    hdigest

/-- **A result answers one request, and a request has one result with a given digest**, up to
collisions of the digested encodings. -/
theorem verifyAgainst_binds :
    (∀ (r : RemoteResult) (q q' : RemoteRequest), q.validate = .ok () → q'.validate = .ok () →
        r.verifyAgainst q = .ok () → r.verifyAgainst q' = .ok () →
        q = q' ∨ EncodingsCollide (requestEncoding q) (requestEncoding q')) ∧
      ∀ (q : RemoteRequest) (r r' : RemoteResult), r.verifyAgainst q = .ok () →
        r'.verifyAgainst q = .ok () → r.resultDigest = r'.resultDigest →
        r = r' ∨ EncodingsCollide (resultEncoding r) (resultEncoding r') := by
  constructor
  · intro r q q' hq hq' h h'
    obtain ⟨-, -, hdigest⟩ := verifyAgainst_eq_ok h
    obtain ⟨-, -, hdigest'⟩ := verifyAgainst_eq_ok h'
    exact request_eq_or_collide hq hq' (hdigest.symm.trans hdigest')
  · intro q r r' h h' hdigest
    obtain ⟨-, hr, -⟩ := verifyAgainst_eq_ok h
    obtain ⟨-, hr', -⟩ := verifyAgainst_eq_ok h'
    exact result_eq_or_collide hr hr' hdigest

namespace BindingSample

def blank : RemoteRequest where
  requestId := 0
  capability := ""
  capabilityVersion := 0
  action := .observe ""
  requestDigest := zeroDigest

/-- A request for what is on the screen. -/
def request : RemoteRequest :=
  (RemoteRequest.new 1 "pc.observe" 1 (.observe "screen")).toOption.getD blank

/-- The same request, but for another sight. -/
def other : RemoteRequest :=
  (RemoteRequest.new 1 "pc.observe" 1 (.observe "window")).toOption.getD blank

def unanswered : RemoteResult where
  requestId := 0
  capability := ""
  capabilityVersion := 0
  requestDigest := zeroDigest
  status := .completed
  output := RemoteResult.noOutput ""
  artifacts := []
  resultDigest := zeroDigest

/-- A result for the first request, with the given words. -/
def result (summary : String) : RemoteResult :=
  (RemoteResult.completed request (RemoteResult.noOutput summary) []).toOption.getD unanswered

theorem validated : (request.validate = .ok () ∧ other.validate = .ok ()) ∧
    sha256 <$> requestEncoding request ≠ sha256 <$> requestEncoding other := by
  decide +kernel

theorem verified : ((result "seen").verifyAgainst request = .ok () ∧
    (result "missed").verifyAgainst request = .ok ()) ∧
    sha256 <$> resultEncoding (result "seen") ≠ sha256 <$> resultEncoding (result "missed") := by
  decide +kernel

/-- Encodings with two digests are no collision. -/
theorem not_encodingsCollide {x y : Except PcFabricError Bytes}
    (h : sha256 <$> x ≠ sha256 <$> y) : ¬ EncodingsCollide x y := by
  rintro ⟨b, b', rfl, rfl, -, hsame⟩
  exact h (congrArg Except.ok hsame)

/-- A result for the one request is none for the other, and two results for it differ in their
digests. -/
theorem verifyAgainst_binds_observed :
    (result "seen").verifyAgainst request = .ok () ∧
      (result "seen").verifyAgainst other ≠ .ok () ∧
      (result "missed").verifyAgainst request = .ok () ∧
      (result "seen").resultDigest ≠ (result "missed").resultDigest := by
  obtain ⟨⟨hrequest, hother⟩, hrequests⟩ := validated
  obtain ⟨⟨hseen, hmissed⟩, hresults⟩ := verified
  refine ⟨hseen, fun h => ?_, hmissed, fun h => ?_⟩
  · rcases verifyAgainst_binds.1 _ request other hrequest hother hseen h with heq | hcollide
    · exact hrequests (by rw [heq])
    · exact not_encodingsCollide hrequests hcollide
  · rcases verifyAgainst_binds.2 request _ _ hseen hmissed h with heq | hcollide
    · exact hresults (by rw [heq])
    · exact not_encodingsCollide hresults hcollide

end BindingSample

end PcFabric

end NTD97
