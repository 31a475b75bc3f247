import Mathlib
import NTD97.Lib.Wire

/-!
# Lib/Frame — a payload behind a fixed header

    magic ▪ 24 ▪ major ▪ minor ▪ 0 ▪ length ▪ payload

A checkpoint file is one payload behind a 24-byte header that names the format, the version and the
payload's length.  A reader accepts the minor versions up to its own, a writer writes its own; so
`openFrame` inverts `sealFrame`, and `sealFrame` inverts `openFrame` on the frames of its version.
-/

namespace Wire

open Guard

variable {ε : Type}

/-- The errors a reader of such a file can report. -/
class FrameError (ε : Type) extends WireError ε where
  invalidMagic : ε
  invalidHeader : ε
  unsupportedVersion : UInt16 → UInt16 → ε
  nonCanonicalEncoding : ε

/-- What a header says: the six bytes that name the format, and its version. -/
structure Format where
  magic : Bytes
  major : UInt16
  minor : UInt16
  magic_length : magic.length = 6

def headerLen : ℕ := 24

/-- The minor version a header states. -/
def headerMinor (b : Bytes) : UInt16 := UInt16.ofNat (ofLe ((b.drop 10).take 2))

/-- A header: the minor version, and the length of the payload. -/
def pushHeader (f : Format) (h : UInt16 × UInt64) : Put ε Unit := do
  tell f.magic
  pushU16 24
  pushU16 f.major
  pushU16 h.1
  pushU32 0
  pushU64 h.2

/-- The length of a payload fits its header. -/
def Fits (payload : Bytes) : Prop := headerLen + payload.length < 2 ^ 64

/-- The header of a payload, written by version `minor`, is these bytes. -/
def Heads (ε : Type) (f : Format) (minor : UInt16) (payload b : Bytes) : Prop :=
  Emits (pushHeader (ε := ε) f (minor, UInt64.ofNat payload.length)) b

theorem emits_pushHeader {f : Format} {h : UInt16 × UInt64} {b : Bytes} :
    Emits (pushHeader (ε := ε) f h) b ↔ b = f.magic ++ (leBytes 2 24 ++ (leBytes 2 f.major.toNat ++
      (leBytes 2 h.1.toNat ++ (leBytes 4 0 ++ leBytes 8 h.2.toNat)))) := by
  simp only [pushHeader, pushU16, pushU32, pushU64, emits_bind, emits_tell, exists_eq_left,
    exists_eq_left']
  rfl

theorem length_pushHeader {f : Format} {h : UInt16 × UInt64} {b : Bytes}
    (hb : Emits (pushHeader (ε := ε) f h) b) : b.length = headerLen := by
  rw [emits_pushHeader.1 hb]
  simp only [List.length_append, length_leBytes, f.magic_length, headerLen]

theorem headerMinor_pushHeader {f : Format} {h : UInt16 × UInt64} {b rest : Bytes}
    (hb : Emits (pushHeader (ε := ε) f h) b) : headerMinor (b ++ rest) = h.1 := by
  have hlen : (f.magic ++ (leBytes 2 24 ++ leBytes 2 f.major.toNat)).length = 10 := by
    simp only [List.length_append, length_leBytes, f.magic_length]
  have h := u16At_append (b := (leBytes 4 0 ++ leBytes 8 h.2.toNat) ++ rest) hlen h.1
  simp only [List.append_assoc] at h
  rw [emits_pushHeader.1 hb]
  simp only [List.append_assoc]
  exact h

section Frame

variable [FrameError ε] (f : Format)

def header : Get ε (UInt16 × UInt64) := do
  let magic ← take 6
  refuse (magic ≠ f.magic) FrameError.invalidMagic
  let len ← u16
  refuse (len ≠ 24) FrameError.invalidHeader
  let major ← u16
  let minor ← u16
  refuse (major ≠ f.major ∨ f.minor < minor) (FrameError.unsupportedVersion major minor)
  let reserved ← u32
  refuse (reserved ≠ 0) FrameError.invalidHeader
  let payloadLen ← u64
  return (minor, payloadLen)

/-- The payload behind its header. -/
def sealFrame (payload : Bytes) : Except ε Bytes := do
  let payloadLen ← lenU64 payload.length
  refuse (2 ^ 64 ≤ headerLen + payload.length) WireError.overflow
  written (do
    pushHeader f (f.minor, payloadLen)
    tell payload)

/-- The minor version and the payload of a whole file. -/
def openFrame (bytes : Bytes) : Except ε (UInt16 × Bytes) := do
  refuse (bytes.length < headerLen) WireError.truncated
  let ((minor, payloadLen), payload) ← (header f).run bytes
  refuse (2 ^ 64 ≤ headerLen + payloadLen.toNat) WireError.overflow
  refuse (bytes.length ≠ headerLen + payloadLen.toNat) FrameError.nonCanonicalEncoding
  return (minor, payload)

/-! ## The laws -/

theorem inverse_header : Inverse (fun h : UInt16 × UInt64 => h.1 ≤ f.minor) (pushHeader (ε := ε) f)
    (header f) :=
  (inverse_take 6).checked (fun _ => f.magic) (fun _ _ => ⟨f.magic_length, not_not.2 rfl⟩)
    fun _ _ _ => inverse_u16.checked (fun _ => 24) (fun _ _ => ⟨trivial, not_not.2 rfl⟩)
    fun _ _ _ => inverse_u16.field (fun _ => f.major) (fun _ _ => trivial)
    fun major _ => inverse_u16.checked Prod.fst
      (fun _ h => ⟨trivial, not_or.2 ⟨not_not.2 h.2.symm, UInt16.not_lt.2 h.1.1.1⟩⟩)
    fun minor _ _ => inverse_u32.checked (fun _ => 0) (fun _ _ => ⟨trivial, not_not.2 rfl⟩)
    fun _ _ _ => inverse_u64.last Prod.snd
      (fun _ h => ⟨trivial, Prod.ext h.1.2.symm rfl⟩)
      fun _ _ => by simp_all

variable {f}

theorem sealFrame_eq_ok {payload bs : Bytes} : sealFrame (ε := ε) f payload = .ok bs ↔
    Fits payload ∧ ∃ b, Heads ε f f.minor payload b ∧ bs = b ++ payload := by
  simp only [sealFrame, bind_eq_ok, exists_unit, refuse_eq_ok, written_eq_ok, emits_bind,
    emits_tell, exists_eq_left', lenU64_eq_ok, not_le, Fits, Heads]
  constructor
  · rintro ⟨len, hlen, hfits, b, hb, rfl⟩
    exact ⟨hfits, b, by rw [← hlen, UInt64.ofNat_toNat]; exact hb, rfl⟩
  · rintro ⟨hfits, b, hb, rfl⟩
    have hlt : payload.length < 2 ^ 64 := Nat.lt_of_le_of_lt (Nat.le_add_left ..) hfits
    exact ⟨_, UInt64.toNat_ofNat_of_lt' hlt, hfits, b, hb, rfl⟩

theorem openFrame_eq_ok {bs payload : Bytes} {minor : UInt16} :
    openFrame (ε := ε) f bs = .ok (minor, payload) ↔
      minor ≤ f.minor ∧ Fits payload ∧ ∃ b, Heads ε f minor payload b ∧ bs = b ++ payload := by
  simp only [openFrame, bind_eq_ok, exists_unit, refuse_eq_ok, pure_eq_ok, Prod.exists, not_lt,
    not_le, ne_eq, not_not, Prod.mk.injEq]
  constructor
  · rintro ⟨_, minor, len, payload, hread, hfits, hlen, rfl, rfl⟩
    obtain ⟨hminor, b, hb, rfl⟩ := (inverse_header f).put_get hread
    have hb' : b.length = headerLen := length_pushHeader hb
    rw [List.length_append, hb', Nat.add_left_cancel_iff] at hlen
    refine ⟨hminor, by rw [Fits, hlen]; exact hfits, b, ?_, rfl⟩
    rw [Heads, hlen, UInt64.ofNat_toNat]
    exact hb
  · rintro ⟨hminor, hfits, b, hb, rfl⟩
    have hlt : payload.length < 2 ^ 64 := Nat.lt_of_le_of_lt (Nat.le_add_left ..) hfits
    have hlen : (UInt64.ofNat payload.length).toNat = payload.length :=
      UInt64.toNat_ofNat_of_lt' hlt
    have hb' := length_pushHeader hb
    refine ⟨?_, minor, _, payload, (inverse_header f).get_put hminor hb payload, ?_, ?_, rfl, rfl⟩
    · rw [List.length_append, hb']
      exact Nat.le_add_right ..
    · rw [hlen]
      exact hfits
    · rw [List.length_append, hb', hlen]

/-- **Opening a frame of one's own version inverts sealing it.** -/
theorem openFrame_iff_sealFrame {bs payload : Bytes} :
    openFrame (ε := ε) f bs = .ok (f.minor, payload) ↔ sealFrame (ε := ε) f payload = .ok bs := by
  rw [openFrame_eq_ok, sealFrame_eq_ok]
  exact ⟨fun h => h.2, fun h => ⟨UInt16.le_refl _, h⟩⟩

/-- The version an opened frame reports is the one its header states, whatever comes after it. -/
theorem headerMinor_append_of_openFrame {bs payload : Bytes} {minor : UInt16} (rest : Bytes)
    (h : openFrame (ε := ε) f bs = .ok (minor, payload)) : headerMinor (bs ++ rest) = minor := by
  obtain ⟨-, -, b, hb, rfl⟩ := openFrame_eq_ok.1 h
  rw [List.append_assoc]
  exact headerMinor_pushHeader hb

theorem headerMinor_of_openFrame {bs payload : Bytes} {minor : UInt16}
    (h : openFrame (ε := ε) f bs = .ok (minor, payload)) : headerMinor bs = minor := by
  rw [← headerMinor_append_of_openFrame [] h, List.append_nil]

/-- A frame is refused only when it is too long. -/
theorem sealFrame_error {payload : Bytes} {e : ε} (h : sealFrame f payload = .error e) :
    e = WireError.overflow := by
  have hframe : ∀ len, Tame (do pushHeader f (f.minor, len); tell payload : Put ε Unit) := by
    intro len
    refine .bind ?_ (tame_tell _)
    exact .bind (tame_tell _) (.bind (tame_pushU16 _) (.bind (tame_pushU16 _)
      (.bind (tame_pushU16 _) (.bind (tame_pushU32 _) (tame_pushU64 _)))))
  simp only [sealFrame, bind_eq_error, refuse_eq_error, exists_unit] at h
  rcases h with hlen | ⟨len, -, ⟨-, rfl⟩ | ⟨-, hwritten⟩⟩
  · exact lenU64_error hlen
  · rfl
  · exact (hframe len).written_error hwritten

end Frame

end Wire
