import Mathlib
import NTD97.PcFabric.Wire

/-!
# PcFabric/Canonical — accepted bytes written again

    b  ──decodeMessage──▸  message  ──encodeMessage──▸  b

The header holds nothing that the decoder does not check, and every nested codec is a law in both
directions, so the bytes come back.  The two artifact messages are the exception: their encoders
refuse the transfer id 0, which their decoders never look at.
-/

namespace NTD97

open Guard Wire

namespace PcFabric

/-- The rule that only the encoder has. -/
def Transferable : RemoteMessage → Prop
  | .artifactChunk chunk => chunk.transferId ≠ 0
  | .artifactPull transferId _ => transferId ≠ 0
  | _ => True

instance : DecidablePred Transferable
  | .artifactChunk chunk => inferInstanceAs (Decidable (chunk.transferId ≠ 0))
  | .artifactPull transferId _ => inferInstanceAs (Decidable (transferId ≠ 0))
  | .capabilities _ | .request _ | .result _ | .capabilityQuery => .isTrue trivial

/-! ## Payloads -/

/-- The payload of a message without the encoder's own rule. -/
def uncheckedBody : RemoteMessage → Encoder
  | .artifactChunk chunk => do
    pushU64 chunk.transferId
    pushU64 chunk.offset
    pushBytes chunk.data
  | .artifactPull transferId offset => do
    pushU64 transferId
    pushU64 offset
  | message => messageBody message

theorem emits_messageBody {message : RemoteMessage} {b : Bytes} :
    Emits (messageBody message) b ↔ Transferable message ∧ Emits (uncheckedBody message) b := by
  cases message with
  | artifactChunk chunk => exact emits_refuse_bind
  | artifactPull transferId offset => exact emits_refuse_bind
  | capabilities => exact ⟨fun h => ⟨trivial, h⟩, And.right⟩
  | request => exact ⟨fun h => ⟨trivial, h⟩, And.right⟩
  | result => exact ⟨fun h => ⟨trivial, h⟩, And.right⟩
  | capabilityQuery => exact ⟨fun h => ⟨trivial, h⟩, And.right⟩

/-- **The payload behind a tag has one encoding.** -/
theorem inverse_messageOf (t : UInt8) :
    Inverse (fun m => True ∧ messageTag m = t) uncheckedBody (messageOf t) := by
  unfold messageOf
  split
  · exact kind₁ ((codec_list codec_capability).guarded validateCapabilities)
      RemoteMessage.capabilities (fun _ => rfl) fun m => by cases m <;> simp [messageTag]
  · exact kind₁ (codec_request.guarded RemoteRequest.validate) RemoteMessage.request (fun _ => rfl)
      fun m => by cases m <;> simp [messageTag]
  · exact kind₁ codec_result RemoteMessage.result (fun _ => rfl)
      fun m => by cases m <;> simp [messageTag]
  · exact kind₁ codec_chunk RemoteMessage.artifactChunk (fun _ => rfl)
      fun m => by cases m <;> simp [messageTag]
  · exact kind₂ inverse_u64 inverse_u64 RemoteMessage.artifactPull (fun _ _ => rfl)
      fun m => by cases m <;> simp [messageTag]
  · refine (Inverse.done fun m => ?_).congr (fun m hm => ?_) rfl
    · cases m <;> simp [messageTag]
    · cases m <;> simp_all [messageTag, uncheckedBody, messageBody]
  · refine no_kind fun m hm => ?_
    subst hm
    cases m <;> simp_all [messageTag]

/-! ## The header -/

/-- A number read from a header is written as the bytes it was read from. -/
theorem leBytes_ofLe_take {b : Bytes} {i n : ℕ} (h : i + n ≤ b.length) :
    leBytes n (ofLe ((b.drop i).take n)) = (b.drop i).take n := by
  have hlen : ((b.drop i).take n).length = n := by
    rw [List.length_take, List.length_drop]
    omega
  have hback := leBytes_ofLe ((b.drop i).take n)
  rwa [hlen] at hback

theorem leBytes_u16At {b : Bytes} {i : ℕ} (h : i + 2 ≤ b.length) :
    leBytes 2 (u16At b i).toNat = (b.drop i).take 2 := by
  have hlt : ofLe ((b.drop i).take 2) < 2 ^ 16 :=
    (ofLe_lt _).trans_le (Nat.pow_le_pow_right (by decide) (List.length_take_le ..))
  rw [u16At, UInt16.toNat_ofNat_of_lt' hlt, leBytes_ofLe_take h]

/-- The two bytes at a place of a header. -/
theorem take_two {b : Bytes} {i : ℕ} (h : i + 2 ≤ b.length) :
    (b.drop i).take 2 = [b.getD i 0, b.getD (i + 1) 0] := by
  have hfirst : i < b.length := by omega
  have hsecond : i + 1 < b.length := by omega
  rw [List.drop_eq_getElem_cons hfirst, List.drop_eq_getElem_cons hsecond,
    List.getD_eq_getElem _ _ hfirst, List.getD_eq_getElem _ _ hsecond]
  rfl

/-- A header in its parts. -/
theorem header_parts (b : Bytes) :
    b.take 6 ++ ((b.drop 6).take 2 ++ ((b.drop 8).take 2 ++ ((b.drop 10).take 2 ++
      ((b.drop 12).take 4 ++ b.drop 16)))) = b := by
  have part (i n : ℕ) : (b.drop i).take n ++ b.drop (i + n) = b.drop i := by
    rw [← List.drop_drop]
    exact List.take_append_drop n (b.drop i)
  rw [part 12 4, part 10 2, part 8 2, part 6 2]
  exact List.take_append_drop 6 b

/-- What the decoder checks of a header. -/
structure Framed (b : Bytes) : Prop where
  magic : b.take 6 = pcf97Magic
  major : u16At b 6 = pcf97Major
  reserved : b.getD 11 0 = 0
  length : b.length = pcf97HeaderLen + ofLe ((b.drop 12).take 4)

theorem framed_of_decode {b : Bytes} {message : RemoteMessage}
    (h : decodeMessage b = .ok message) :
    Framed b ∧ Reads (messageOf (b.getD 10 0)) (b.drop pcf97HeaderLen) message [] := by
  obtain ⟨_, hmagic, h⟩ := bind_eq_ok.1 h
  obtain ⟨_, hversion, h⟩ := bind_eq_ok.1 h
  obtain ⟨_, hlength, h⟩ := bind_eq_ok.1 h
  have hframe := not_or.1 (refuse_eq_ok.1 hmagic)
  have hfields := not_or.1 (refuse_eq_ok.1 hversion)
  have hreserved := not_or.1 hfields.2
  exact ⟨⟨not_not.1 hframe.2, not_not.1 hfields.1, not_not.1 hreserved.2,
    not_not.1 (refuse_eq_ok.1 hlength)⟩, readAll_eq_ok.1 h⟩

/-- **A checked header of the current minor version is the one that the encoder writes.** -/
theorem Framed.pcf97Header_append {b : Bytes} (h : Framed b)
    (hminor : (versionAt b 6).2 = pcf97Minor) {payloadLen : UInt32}
    (hlen : payloadLen.toNat = (b.drop pcf97HeaderLen).length) :
    pcf97Header (b.getD 10 0) payloadLen ++ b.drop pcf97HeaderLen = b := by
  have hlong : 16 ≤ b.length := h.length ▸ Nat.le_add_right ..
  have hpayload : payloadLen.toNat = ofLe ((b.drop 12).take 4) := by
    rw [hlen, List.length_drop, h.length, Nat.add_sub_cancel_left]
  have hsecond : u16At b 8 = pcf97Minor := hminor
  rw [pcf97Header, ← h.magic, ← h.major, ← hsecond, leBytes_u16At (by omega),
    leBytes_u16At (by omega), hpayload, leBytes_ofLe_take (by omega)]
  have htag : [b.getD 10 0, 0] = (b.drop 10).take 2 := by
    rw [take_two (by omega), h.reserved]
  rw [htag]
  simp only [List.append_assoc]
  exact header_parts b

/-! ## Messages -/

/-- **Accepted bytes are what the encoder emits**, but for the transfer id 0. -/
theorem encode_of_decode {b : Bytes} {message : RemoteMessage}
    (hminor : (versionAt b 6).2 = pcf97Minor) (h : decodeMessage b = .ok message) :
    encodeMessage message = .ok b ↔ Transferable message := by
  obtain ⟨hframe, hreads⟩ := framed_of_decode h
  obtain ⟨⟨-, htag⟩, payload, hpayload, hb⟩ := (inverse_messageOf _).put_get hreads
  rw [List.append_nil] at hb
  constructor
  · intro hencode
    obtain ⟨_, hwritten, -⟩ := bind_eq_ok.1 hencode
    exact (emits_messageBody.1 (written_eq_ok.1 hwritten)).1
  · intro htransfer
    have hwritten : written (messageBody message) = .ok payload :=
      written_eq_ok.2 (emits_messageBody.2 ⟨htransfer, hpayload⟩)
    have hfits : payload.length < 2 ^ 32 := by
      have hlt := ofLe_lt ((b.drop 12).take 4)
      have hwidth := List.length_take_le 4 (b.drop 12)
      have hlength := hframe.length
      have hpow := Nat.pow_le_pow_right (n := 256) (by decide) hwidth
      rw [← hb, List.length_drop]
      omega
    have hlen : lenU32 (ε := PcFabricError) payload.length = .ok (UInt32.ofNat payload.length) :=
      lenU32_eq_ok.2 (UInt32.toNat_ofNat_of_lt' hfits)
    refine bind_eq_ok.2 ⟨payload, hwritten, bind_eq_ok.2 ⟨_, hlen, pure_eq_ok.2 ?_⟩⟩
    have hsize := UInt32.toNat_ofNat_of_lt' hfits
    rw [← hb] at hsize ⊢
    rw [htag]
    exact hframe.pcf97Header_append hminor hsize

namespace CanonicalSample

/-- A pull of the transfer 0. -/
def pull : Bytes := pcf97Header 5 16 ++ List.replicate 16 0

theorem encode_of_decode_pull :
    (versionAt pull 6).2 = pcf97Minor ∧ decodeMessage pull = .ok (.artifactPull 0 0) ∧
      encodeMessage (.artifactPull 0 0) = .error .invalidArtifact := by
  decide +kernel

/-- A pull of the transfer 1, from byte 256 on. -/
def pullOne : Bytes := pcf97Header 5 16 ++ (1 :: List.replicate 8 0 ++ 1 :: List.replicate 6 0)

theorem encode_of_decode_pullOne : decodeMessage pullOne = .ok (.artifactPull 1 256) ∧
    encodeMessage (.artifactPull 1 256) = .ok pullOne := by
  have hdecode : decodeMessage pullOne = .ok (.artifactPull 1 256) := by decide +kernel
  exact ⟨hdecode, (encode_of_decode (by decide +kernel) hdecode).2 (by decide)⟩

end CanonicalSample

end PcFabric

end NTD97
