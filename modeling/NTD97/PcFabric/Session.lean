import Mathlib
import NTD97.Lib.Effect
import NTD97.Lib.Run
import NTD97.PcFabric.Handshake

/-!
# PcFabric/Session — a channel that neither reorders nor repeats

    seal:  PCS97\0 ▪ version ▪ session ▪ sequence ▪ length ▪ ciphertext        open: the same, checked
           └────────────── associated data ──────────────┘

A sender numbers its frames and a receiver opens only the next one.  The cipher is a parameter: it
undoes its own encryptions, and in the runs of the network it opens nothing that was not encrypted.
-/

namespace NTD97

open Effect Guard Machine PcFabric Wire

/-- ChaCha20-Poly1305: key, nonce, associated data and message. -/
structure Aead where
  encrypt : Block 32 → Block 12 → Bytes → Bytes → Option Bytes
  decrypt : Block 32 → Block 12 → Bytes → Bytes → Option Bytes
  /-- Decryption undoes encryption. -/
  decrypt_encrypt : ∀ {key nonce aad message ciphertext},
    encrypt key nonce aad message = some ciphertext →
      decrypt key nonce aad ciphertext = some message

namespace PcFabric

def sessionFrameMagic : Bytes := [80, 67, 83, 57, 55, 0]

def sessionFrameMajor : UInt16 := 0

def sessionFrameMinor : UInt16 := 1

def sessionHeaderLen : ℕ := 38

def sessionNonce (sequence : UInt64) : Block 12 where
  bytes := [78, 57, 55, 83] ++ leBytes 8 sequence.toNat
  length_eq := by rw [List.length_append, length_leBytes]; rfl

/-- The header of a frame up to its length, which is authenticated. -/
def sessionAad (sessionId : Block 16) (sequence : UInt64) : Bytes :=
  sessionFrameMagic ++ leBytes 2 sessionFrameMajor.toNat ++ leBytes 2 sessionFrameMinor.toNat ++
    sessionId.bytes ++ leBytes 8 sequence.toNat

end PcFabric

/-- One call of the cipher. -/
structure Encryption where
  key : Block 32
  nonce : Block 12
  aad : Bytes
  ciphertext : Bytes
  deriving DecidableEq

def SecureSession.seal (aead : Aead) (plaintext : Bytes) :
    Eff SecureSession PcFabricError Bytes := do
  let self ← get
  let sequence := self.txSequence
  let nextSequence ← okOr (checkedAdd64 sequence 1) .overflow
  let nonce := sessionNonce sequence
  let header := sessionAad self.sessionId sequence
  let ciphertext ← okOr (aead.encrypt self.txKey nonce header plaintext) .cryptoFailure
  let ciphertextLen ← check id (lenU32 (ε := PcFabricError) ciphertext.length)
  modify fun self => { self with txSequence := nextSequence }
  return header ++ leBytes 4 ciphertextLen.toNat ++ ciphertext

/-- What `seal` gets from the cipher, if it asks. -/
def SecureSession.encrypts (aead : Aead) (self : SecureSession) (plaintext : Bytes) :
    Option Encryption := do
  let _ ← checkedAdd64 self.txSequence 1
  let nonce := sessionNonce self.txSequence
  let aad := sessionAad self.sessionId self.txSequence
  let ciphertext ← aead.encrypt self.txKey nonce aad plaintext
  return { key := self.txKey, nonce, aad, ciphertext }

/-- What `open` hands to the cipher: the frame's fields, under the receiving key. -/
def SecureSession.presented (self : SecureSession) (frame : Bytes) : Encryption where
  key := self.rxKey
  nonce := sessionNonce (UInt64.ofNat (ofLe ((frame.drop 26).take 8)))
  aad := frame.take (sessionHeaderLen - 4)
  ciphertext := frame.drop sessionHeaderLen

def SecureSession.open (aead : Aead) (frame : Bytes) : Eff SecureSession PcFabricError Bytes := do
  let self ← get
  refuse (frame.length < sessionHeaderLen ∨ frame.take 6 ≠ sessionFrameMagic) .invalidFrame
  let (major, minor) := versionAt frame 6
  refuse (major ≠ sessionFrameMajor ∨ sessionFrameMinor < minor) .invalidFrame
  refuse ((frame.drop 10).take 16 ≠ self.sessionId.bytes) .peerMismatch
  let sequence := UInt64.ofNat (ofLe ((frame.drop 26).take 8))
  refuse (sequence ≠ self.rxSequence) (.replay self.rxSequence sequence)
  let ciphertextLen := ofLe ((frame.drop 34).take 4)
  refuse (frame.length ≠ sessionHeaderLen + ciphertextLen) .invalidFrame
  let e := self.presented frame
  let plaintext ← okOr (aead.decrypt e.key e.nonce e.aad e.ciphertext) .cryptoFailure
  let nextSequence ← okOr (checkedAdd64 self.rxSequence 1) .overflow
  modify fun self => { self with rxSequence := nextSequence }
  return plaintext

/-! ## What one call does -/

section Calls

variable {aead : Aead} {s : SecureSession} {plaintext frame : Bytes}

/-- The numbers of frames are read off their nonces. -/
theorem sessionNonce_inj {m n : UInt64} (h : sessionNonce m = sessionNonce n) : m = n := by
  have hbytes : leBytes 8 m.toNat = leBytes 8 n.toNat :=
    List.append_cancel_left (congrArg Block.bytes h)
  have hnat := congrArg ofLe hbytes
  rwa [ofLe_leBytes m.toNat_lt, ofLe_leBytes n.toNat_lt, UInt64.toNat_inj] at hnat

theorem encrypts_eq_some {e : Encryption} (h : s.encrypts aead plaintext = some e) :
    ∃ ciphertext, aead.encrypt s.txKey (sessionNonce s.txSequence)
        (sessionAad s.sessionId s.txSequence) plaintext = some ciphertext ∧
      e = { key := s.txKey, nonce := sessionNonce s.txSequence
            aad := sessionAad s.sessionId s.txSequence, ciphertext } := by
  obtain ⟨_, -, h⟩ := Option.bind_eq_some_iff.1 h
  obtain ⟨ciphertext, hciphertext, h⟩ := Option.bind_eq_some_iff.1 h
  exact ⟨ciphertext, hciphertext, (Option.some.inj h).symm⟩

/-- **Sealing** encrypts under the next number, or leaves the session alone. -/
theorem seal_spec (aead : Aead) (s : SecureSession) (plaintext : Bytes) :
    Triple (· = s) (SecureSession.seal aead plaintext)
      (fun _ t => ∃ e next, s.encrypts aead plaintext = some e ∧
        next.toNat = s.txSequence.toNat + 1 ∧ t = { s with txSequence := next })
      (fun _ t => t = s ∧ ∀ e, s.encrypts aead plaintext = some e →
        2 ^ 32 ≤ e.ciphertext.length) := by
  refine .read_bind fun _ hs => ?_
  subst hs
  refine .okOr_bind (fun next hnext => ?_) fun hnone t ht => ⟨ht, fun e he => ?_⟩
  · refine .okOr_bind (fun ciphertext hciphertext => ?_) fun hnone t ht => ⟨ht, fun e he => ?_⟩
    · have hencrypts := show SecureSession.encrypts aead _ plaintext = some _ from
        Option.bind_eq_some_iff.2 ⟨next, hnext,
          Option.bind_eq_some_iff.2 ⟨ciphertext, hciphertext, rfl⟩⟩
      refine .check_bind (fun len hlen => ?_) fun err herr t ht => ⟨ht, fun e he => ?_⟩
      · refine .write_bind (.ret fun _ h => h) fun t ht => ?_
        subst ht
        exact ⟨_, next, hencrypts, checkedAdd64_eq_some.1 hnext, rfl⟩
      · obtain rfl := Option.some.inj (hencrypts.symm.trans he)
        by_contra hlt
        rw [lenU32, if_pos (Nat.not_le.1 hlt)] at herr
        exact nomatch herr
    · obtain ⟨_, hciphertext, -⟩ := encrypts_eq_some he
      exact nomatch hnone.symm.trans hciphertext
  · obtain ⟨next, hnext, -⟩ := Option.bind_eq_some_iff.1 he
    exact nomatch hnone.symm.trans hnext

/-- **Opening** decrypts the next number, or leaves the session alone. -/
theorem open_spec (aead : Aead) (s : SecureSession) (frame : Bytes) :
    Triple (· = s) (SecureSession.open aead frame)
      (fun plaintext t => aead.decrypt (s.presented frame).key (s.presented frame).nonce
          (s.presented frame).aad (s.presented frame).ciphertext = some plaintext ∧
        (s.presented frame).nonce = sessionNonce s.rxSequence ∧
        (s.presented frame).ciphertext.length < 2 ^ 32 ∧
        ∃ next, next.toNat = s.rxSequence.toNat + 1 ∧ t = { s with rxSequence := next })
      (fun _ t => t = s) := by
  refine .read_bind fun _ hs => ?_
  subst hs
  refine .refuse_bind (fun _ => ?_) fun _ t ht => ht
  refine .refuse_bind (fun _ => ?_) fun _ t ht => ht
  refine .refuse_bind (fun _ => ?_) fun _ t ht => ht
  refine .refuse_bind (fun hsequence => ?_) fun _ t ht => ht
  refine .refuse_bind (fun hlength => ?_) fun _ t ht => ht
  refine .okOr_bind (fun plaintext hplaintext => ?_) fun _ t ht => ht
  refine .okOr_bind (fun next hnext => ?_) fun _ t ht => ht
  refine .write_bind (.ret fun _ h => h) fun t ht => ?_
  subst ht
  refine ⟨hplaintext, congrArg sessionNonce (not_not.1 hsequence), ?_, next,
    checkedAdd64_eq_some.1 hnext, rfl⟩
  -- the length field has four bytes
  have hfield : ofLe ((frame.drop 34).take 4) < 256 ^ 4 :=
    (ofLe_lt _).trans_le (Nat.pow_le_pow_right (by decide) (List.length_take_le ..))
  rw [SecureSession.presented, List.length_drop, not_not.1 hlength]
  omega

end Calls

/-! ## The network -/

/-- Two sessions and what happened so far: every call of the cipher, every frame sealed, and the
plaintexts that each side sealed and opened. -/
structure Network where
  sessions : Side → SecureSession
  encryptions : List Encryption
  frames : List Encryption
  plaintexts : Side → List Bytes
  opened : Side → List Bytes

/-- A side seals a plaintext, or the network hands a side any frame whatever. -/
inductive NetworkOp where
  | seal (side : Side) (plaintext : Bytes)
  | deliver (side : Side) (frame : Bytes)
  deriving DecidableEq

namespace Network

def start (client server : SecureSession) : Network where
  sessions
    | .first => client
    | .second => server
  encryptions := []
  frames := []
  plaintexts _ := []
  opened _ := []

def step (aead : Aead) (network : Network) : NetworkOp → Network
  | .seal side plaintext =>
    let session := network.sessions side
    let (r, session') := exec (SecureSession.seal aead plaintext) session
    let made := (session.encrypts aead plaintext).toList
    { network with
      sessions := Function.update network.sessions side session'
      encryptions := network.encryptions ++ made
      frames := if r.isOk then network.frames ++ made else network.frames
      plaintexts := if r.isOk then
          Function.update network.plaintexts side (network.plaintexts side ++ [plaintext])
        else network.plaintexts }
  | .deliver side frame =>
    let session := network.sessions side
    let (r, session') := exec (SecureSession.open aead frame) session
    { network with
      sessions := Function.update network.sessions side session'
      opened := match r with
        | .ok plaintext =>
          Function.update network.opened side (network.opened side ++ [plaintext])
        | .error _ => network.opened }

/-- **An ideal cipher**: what it decrypts was encrypted. -/
def Ideal (aead : Aead) (network : Network) : NetworkOp → Prop
  | .seal .. => True
  | .deliver side frame =>
    let e := (network.sessions side).presented frame
    (aead.decrypt e.key e.nonce e.aad e.ciphertext).isSome → e ∈ network.encryptions

/-! ## In order, and each once -/

/-- **The invariant.**  Both sides count what they sealed and opened, every encryption that fits a
frame is of the plaintext with its number, and what a side opened is what the other sealed first. -/
structure Ordered (aead : Aead) (network : Network) : Prop where
  ends : ∀ side, Mirrored (network.sessions side) (network.sessions side.other)
  keys : ∀ side, (network.sessions side).txKey ≠ (network.sessions side).rxKey
  sent : ∀ side, (network.plaintexts side).length = (network.sessions side).txSequence.toNat
  received : ∀ side, (network.opened side).length = (network.sessions side).rxSequence.toNat
  made : ∀ e ∈ network.encryptions, ∃ side n plaintext, e.key = (network.sessions side).txKey ∧
    e.nonce = sessionNonce n ∧
    aead.encrypt e.key e.nonce e.aad plaintext = some e.ciphertext ∧
    (e.ciphertext.length < 2 ^ 32 → (network.plaintexts side)[n.toNat]? = some plaintext)
  numbered : ∀ e ∈ network.frames, ∃ side n, e.key = (network.sessions side).txKey ∧
    e.nonce = sessionNonce n ∧ n.toNat < (network.sessions side).txSequence.toNat
  fresh : (network.frames.map fun e => (e.key, e.nonce)).Nodup
  fifo : ∀ side, network.opened side <+: network.plaintexts side.other

variable {aead : Aead} {network : Network} {side : Side} {plaintext frame : Bytes}

/-- The two sides seal under different keys. -/
theorem Ordered.side_eq (h : Ordered aead network) {a b : Side}
    (hkey : (network.sessions a).txKey = (network.sessions b).txKey) : a = b := by
  have hother : ∀ side, (network.sessions side.other).txKey ≠ (network.sessions side).txKey :=
    fun side heq => h.keys side (heq.symm.trans (h.ends side).rxKey.symm)
  cases a <;> cases b
  · rfl
  · exact absurd hkey (hother .second)
  · exact absurd hkey (hother .first)
  · rfl

theorem prefix_getElem? {α : Type} {l l' : List α} {n : ℕ} {a : α} (h : l <+: l')
    (ha : l[n]? = some a) : l'[n]? = some a := by
  obtain ⟨rest, rfl⟩ := h
  rw [List.getElem?_append_left (List.getElem?_eq_some_iff.1 ha).1, ha]

/-- One element more of the longer list. -/
theorem prefix_concat {α : Type} {l l' : List α} {a : α} (h : l <+: l')
    (ha : l'[l.length]? = some a) : l ++ [a] <+: l' := by
  obtain ⟨rest, rfl⟩ := h
  rw [List.getElem?_append_right le_rfl, Nat.sub_self] at ha
  cases rest with
  | nil => exact nomatch ha
  | cons b rest =>
    obtain rfl := Option.some.inj ha
    exact ⟨rest, by rw [List.append_assoc]; rfl⟩

/-- What a call leaves as it was, it leaves so on both sides. -/
theorem update_field {β : Type} (field : SecureSession → β) (sessions : Side → SecureSession)
    (side : Side) {t : SecureSession} (h : field t = field (sessions side)) (side' : Side) :
    field (Function.update sessions side t side') = field (sessions side') := by
  rw [Function.update_apply]
  split
  · next heq => rw [h, heq]
  · rfl

theorem Mirrored.update {sessions : Side → SecureSession} {t : SecureSession}
    (h : ∀ side, Mirrored (sessions side) (sessions side.other))
    (hid : t.sessionId = (sessions side).sessionId) (htx : t.txKey = (sessions side).txKey)
    (hrx : t.rxKey = (sessions side).rxKey) (side' : Side) :
    Mirrored (Function.update sessions side t side')
      (Function.update sessions side t side'.other) := by
  have hid := update_field SecureSession.sessionId sessions side hid
  have htx := update_field SecureSession.txKey sessions side htx
  have hrx := update_field SecureSession.rxKey sessions side hrx
  refine ⟨?_, ?_, ?_⟩
  · rw [hid, hid, (h side').sessionId]
  · rw [htx, hrx, (h side').txKey]
  · rw [hrx, htx, (h side').rxKey]

theorem Ordered.seal (h : Ordered aead network) :
    Ordered aead (step aead network (.seal side plaintext)) := by
  have hspec := (seal_spec aead (network.sessions side) plaintext).exec_of rfl
  rcases hexec : exec (SecureSession.seal aead plaintext) (network.sessions side) with ⟨r, t⟩
  rw [hexec] at hspec
  cases r with
  | error err =>
    obtain ⟨rfl, hlong⟩ := hspec
    have hstep : step aead network (.seal side plaintext) = { network with
        encryptions := network.encryptions ++
          ((network.sessions side).encrypts aead plaintext).toList } := by
      simp [step, hexec, Except.isOk, Except.toBool]
    rw [hstep]
    refine ⟨h.ends, h.keys, h.sent, h.received, fun e he => ?_, h.numbered, h.fresh, h.fifo⟩
    rcases List.mem_append.1 he with he | he
    · exact h.made e he
    · have he := Option.mem_toList.1 he
      obtain ⟨ciphertext, hciphertext, rfl⟩ := encrypts_eq_some he
      exact ⟨side, _, plaintext, rfl, rfl, hciphertext,
        fun hlt => absurd (hlong _ he) (Nat.not_le.2 hlt)⟩
  | ok frame =>
    obtain ⟨e, next, he, hnext, ht⟩ := hspec
    have hstep : step aead network (.seal side plaintext) = { network with
        sessions := Function.update network.sessions side t
        encryptions := network.encryptions ++ [e]
        frames := network.frames ++ [e]
        plaintexts := Function.update network.plaintexts side
          (network.plaintexts side ++ [plaintext]) } := by
      simp [step, hexec, Except.isOk, Except.toBool, he]
    obtain ⟨ciphertext, hciphertext, hrecord⟩ := encrypts_eq_some he
    have htx := update_field SecureSession.txKey network.sessions side
      (show t.txKey = _ by rw [ht])
    have hrx := update_field SecureSession.rxKey network.sessions side
      (show t.rxKey = _ by rw [ht])
    have hreceived := update_field SecureSession.rxSequence network.sessions side
      (show t.rxSequence = _ by rw [ht])
    have hsent : t.txSequence.toNat = (network.sessions side).txSequence.toNat + 1 := by
      rw [ht, hnext]
    have hlonger (side' : Side) : network.plaintexts side' <+:
        Function.update network.plaintexts side (network.plaintexts side ++ [plaintext]) side' := by
      rw [Function.update_apply]
      split
      · next heq => exact heq ▸ List.prefix_append ..
      · exact List.prefix_refl _
    have hcount (side' : Side) : (network.sessions side').txSequence.toNat ≤
        (Function.update network.sessions side t side').txSequence.toNat := by
      rw [Function.update_apply]
      split
      · next heq =>
        rw [heq, hsent]
        exact Nat.le_succ _
      · exact le_rfl
    have hall (side' : Side) :
        (Function.update network.plaintexts side (network.plaintexts side ++ [plaintext])
          side').length = (Function.update network.sessions side t side').txSequence.toNat := by
      by_cases heq : side' = side
      · rw [heq, Function.update_self, Function.update_self, List.length_append, h.sent, hsent]
        rfl
      · rw [Function.update_of_ne heq, Function.update_of_ne heq, h.sent]
    have hlast : (Function.update network.plaintexts side (network.plaintexts side ++ [plaintext])
        side)[(network.sessions side).txSequence.toNat]? = some plaintext := by
      rw [Function.update_self, ← h.sent, List.getElem?_concat_length]
    have hnumber : (network.sessions side).txSequence.toNat <
        (Function.update network.sessions side t side).txSequence.toNat := by
      rw [Function.update_self, hsent]
      exact Nat.lt_succ_self _
    rw [hstep]
    refine ⟨Mirrored.update h.ends (by rw [ht]) (by rw [ht]) (by rw [ht]), fun side' => ?_,
      fun side' => ?_, fun side' => ?_, fun e' he' => ?_, fun e' he' => ?_, ?_,
      fun side' => (h.fifo side').trans (hlonger _)⟩
    · rw [htx, hrx]
      exact h.keys side'
    · exact hall side'
    · rw [h.received]
      exact (congrArg UInt64.toNat (hreceived side')).symm
    · rcases List.mem_append.1 he' with hold | hnew
      · obtain ⟨side', n, plaintext', hkey, hnonce, hencrypt, hfits⟩ := h.made e' hold
        refine ⟨side', n, plaintext', hkey.trans (htx side').symm, hnonce, hencrypt, fun hlt => ?_⟩
        exact prefix_getElem? (hlonger side') (hfits hlt)
      · obtain rfl := List.mem_singleton.1 hnew
        refine ⟨side, (network.sessions side).txSequence, plaintext, ?_, ?_, ?_, fun _ => hlast⟩
        · rw [hrecord, htx]
        · rw [hrecord]
        · rw [hrecord]
          exact hciphertext
    · rcases List.mem_append.1 he' with hold | hnew
      · obtain ⟨side', n, hkey, hnonce, hlt⟩ := h.numbered e' hold
        exact ⟨side', n, hkey.trans (htx side').symm, hnonce, hlt.trans_le (hcount side')⟩
      · obtain rfl := List.mem_singleton.1 hnew
        refine ⟨side, (network.sessions side).txSequence, ?_, ?_, hnumber⟩
        · rw [hrecord, htx]
        · rw [hrecord]
    · rw [List.map_append, List.nodup_append']
      refine ⟨h.fresh, List.nodup_singleton _, ?_⟩
      rintro ⟨key, nonce⟩ hold hnew
      obtain ⟨e', he', hsame⟩ := List.mem_map.1 hold
      obtain ⟨hkey, hnonce⟩ := Prod.mk.inj (hsame.trans (List.mem_singleton.1 hnew))
      -- an earlier frame with this key is of this side, and its number is smaller
      obtain ⟨side', n, hkey', hnonce', hlt⟩ := h.numbered e' he'
      obtain rfl := h.side_eq (hkey'.symm.trans (hkey.trans (by rw [hrecord])))
      rw [sessionNonce_inj (hnonce'.symm.trans (hnonce.trans (by rw [hrecord])))] at hlt
      exact Nat.lt_irrefl _ hlt

theorem Ordered.deliver (h : Ordered aead network)
    (hideal : Ideal aead network (.deliver side frame)) :
    Ordered aead (step aead network (.deliver side frame)) := by
  have hspec := (open_spec aead (network.sessions side) frame).exec_of rfl
  rcases hexec : exec (SecureSession.open aead frame) (network.sessions side) with ⟨r, t⟩
  rw [hexec] at hspec
  cases r with
  | error err =>
    obtain rfl := hspec
    have hstep : step aead network (.deliver side frame) = network := by
      simp [step, hexec]
    rwa [hstep]
  | ok plaintext =>
    obtain ⟨hplaintext, hnonce, hshort, next, hnext, ht⟩ := hspec
    have hstep : step aead network (.deliver side frame) = { network with
        sessions := Function.update network.sessions side t
        opened := Function.update network.opened side (network.opened side ++ [plaintext]) } := by
      simp [step, hexec]
    have htx := update_field SecureSession.txKey network.sessions side
      (show t.txKey = _ by rw [ht])
    have hrx := update_field SecureSession.rxKey network.sessions side
      (show t.rxKey = _ by rw [ht])
    have hsent := update_field SecureSession.txSequence network.sessions side
      (show t.txSequence = _ by rw [ht])
    have hreceived : t.rxSequence.toNat = (network.sessions side).rxSequence.toNat + 1 := by
      rw [ht, hnext]
    -- the frame was encrypted by the other side, as its next plaintext
    have hnew : network.opened side ++ [plaintext] <+: network.plaintexts side.other := by
      obtain ⟨side', n, plaintext', hkey, hnonce', hencrypt, hfits⟩ :=
        h.made _ (hideal (by rw [hplaintext]; rfl))
      obtain rfl : side.other = side' :=
        h.side_eq ((h.ends side).rxKey.symm.trans hkey)
      rw [aead.decrypt_encrypt hencrypt] at hplaintext
      obtain rfl := Option.some.inj hplaintext
      refine prefix_concat (h.fifo side) ?_
      rw [h.received, sessionNonce_inj (hnonce.symm.trans hnonce')]
      exact hfits hshort
    have hall (side' : Side) :
        (Function.update network.opened side (network.opened side ++ [plaintext]) side').length =
          (Function.update network.sessions side t side').rxSequence.toNat := by
      by_cases heq : side' = side
      · rw [heq, Function.update_self, Function.update_self, List.length_append, h.received,
          hreceived]
        rfl
      · rw [Function.update_of_ne heq, Function.update_of_ne heq, h.received]
    have hfifo (side' : Side) : Function.update network.opened side
        (network.opened side ++ [plaintext]) side' <+: network.plaintexts side'.other := by
      by_cases heq : side' = side
      · rw [heq, Function.update_self]
        exact hnew
      · rw [Function.update_of_ne heq]
        exact h.fifo side'
    rw [hstep]
    refine ⟨Mirrored.update h.ends (by rw [ht]) (by rw [ht]) (by rw [ht]), fun side' => ?_,
      fun side' => ?_, hall, fun e he => ?_, fun e he => ?_, h.fresh, hfifo⟩
    · rw [htx, hrx]
      exact h.keys side'
    · rw [h.sent]
      exact (congrArg UInt64.toNat (hsent side')).symm
    · obtain ⟨side', n, plaintext', hkey, hrest⟩ := h.made e he
      exact ⟨side', n, plaintext', hkey.trans (htx side').symm, hrest⟩
    · obtain ⟨side', n, hkey, hnonce, hlt⟩ := h.numbered e he
      refine ⟨side', n, hkey.trans (htx side').symm, hnonce, ?_⟩
      rw [hsent]
      exact hlt

/-- **Step lemma.** -/
theorem Ordered.step : ∀ {op : NetworkOp}, Ordered aead network → Ideal aead network op →
    Ordered aead (step aead network op)
  | .seal _ _, h, _ => h.seal
  | .deliver _ _, h, hideal => h.deliver hideal

theorem ordered_start (aead : Aead) {client server : SecureSession} (h : Mirrored client server)
    (hkeys : client.txKey ≠ client.rxKey) (hclient : client.txSequence = 0 ∧ client.rxSequence = 0)
    (hserver : server.txSequence = 0 ∧ server.rxSequence = 0) :
    Ordered aead (start client server) where
  ends
    | .first => h
    | .second => ⟨h.sessionId.symm, h.rxKey.symm, h.txKey.symm⟩
  keys
    | .first => hkeys
    | .second => fun heq => hkeys (h.txKey.trans (heq.symm.trans h.rxKey.symm))
  sent
    | .first => congrArg UInt64.toNat hclient.1.symm
    | .second => congrArg UInt64.toNat hserver.1.symm
  received
    | .first => congrArg UInt64.toNat hclient.2.symm
    | .second => congrArg UInt64.toNat hserver.2.symm
  made _ he := nomatch he
  numbered _ he := nomatch he
  fresh := List.nodup_nil
  fifo _ := List.prefix_refl _

/-- The two sessions of one handshake mirror each other, before their first frame. -/
theorem sessions_of_handshake {p : Primitives} {own own' : PairedIdentity}
    {remote remote' : PairingRecord} {entropy entropy' : HandshakeEntropy} {state : ClientHandshake}
    {hello : ClientHello} {reply : ServerHello} {client server : SecureSession}
    (hbegin : ClientHandshake.begin p own remote entropy = .ok (state, hello))
    (haccept : ServerHello.accept p own' remote' entropy' hello = .ok (reply, server))
    (hfinish : state.finish p reply = .ok client)
    (hcommutes : ∀ a b, p.diffieHellman a (p.x25519 b) = p.diffieHellman b (p.x25519 a)) :
    Mirrored client server ∧ (client.txSequence = 0 ∧ client.rxSequence = 0) ∧
      server.txSequence = 0 ∧ server.rxSequence = 0 := by
  obtain ⟨-, -, hbegin⟩ := bind_eq_ok.1 hbegin
  obtain ⟨rfl, rfl⟩ := Prod.mk.inj (pure_eq_ok.1 hbegin)
  obtain ⟨-, -, haccept⟩ := bind_eq_ok.1 haccept
  obtain ⟨server, hserver, haccept⟩ := bind_eq_ok.1 haccept
  obtain ⟨rfl, rfl⟩ := Prod.mk.inj (pure_eq_ok.1 haccept)
  obtain ⟨-, -, hfinish⟩ := bind_eq_ok.1 hfinish
  obtain ⟨-, -, hfinish⟩ := bind_eq_ok.1 hfinish
  have hzero : ∀ {role sessionId secret client server session},
      deriveSession p role sessionId secret client server = .ok session →
        session.txSequence = 0 ∧ session.rxSequence = 0 := fun h => by
    obtain ⟨material, -, h⟩ := bind_eq_ok.1 h
    rw [← pure_eq_ok.1 h]
    exact ⟨rfl, rfl⟩
  have hsecret : p.diffieHellman entropy'.x25519Secret (p.x25519 entropy.x25519Secret) =
      p.diffieHellman entropy.x25519Secret (p.x25519 entropy'.x25519Secret) := hcommutes _ _
  obtain ⟨server', hserver', hmirrored⟩ := deriveSession_mirrored hfinish
  have hsame : server' = server := by
    have hserver : deriveSession p .server _ (p.diffieHellman entropy'.x25519Secret
      (p.x25519 entropy.x25519Secret)) _ _ = .ok server := hserver
    rw [hsecret] at hserver
    exact Except.ok.inj (hserver'.symm.trans hserver)
  exact ⟨hsame ▸ hmirrored, hzero hfinish, hzero hserver⟩

/-- **The channel is FIFO and free of replays**: in every run over a network that an adversary
controls, what one side opened is what the other sealed first; calls that fail leave the session
alone; and no two frames are sealed under one key with one nonce. -/
theorem channel_fifo (p : Primitives) (aead : Aead) {own own' : PairedIdentity}
    {remote remote' : PairingRecord} {entropy entropy' : HandshakeEntropy} {state : ClientHandshake}
    {hello : ClientHello} {reply : ServerHello} {client server : SecureSession}
    (hbegin : ClientHandshake.begin p own remote entropy = .ok (state, hello))
    (haccept : ServerHello.accept p own' remote' entropy' hello = .ok (reply, server))
    (hfinish : state.finish p reply = .ok client)
    (hcommutes : ∀ a b, p.diffieHellman a (p.x25519 b) = p.diffieHellman b (p.x25519 a))
    (hkeys : client.txKey ≠ client.rxKey) (ops : List NetworkOp)
    (hideal : StepsMeet (step aead) (Ideal aead) (start client server) ops) :
    let network := run (step aead) (start client server) ops
    (∀ side, network.opened side <+: network.plaintexts side.other) ∧
      (∀ s plaintext e, (exec (SecureSession.seal aead plaintext) s).1 = .error e →
        (exec (SecureSession.seal aead plaintext) s).2 = s) ∧
      (∀ s frame e, (exec (SecureSession.open aead frame) s).1 = .error e →
        (exec (SecureSession.open aead frame) s).2 = s) ∧
      (network.frames.map fun e => (e.key, e.nonce)).Nodup := by
  obtain ⟨hmirrored, hclient, hserver⟩ := sessions_of_handshake hbegin haccept hfinish hcommutes
  have hordered := (statesMeet_of_stepsMeet (fun _ _ => Ordered.step) ops _
    (ordered_start aead hmirrored hkeys hclient hserver) hideal).last
  refine ⟨hordered.fifo, fun s plaintext e he => ?_, fun s frame e he => ?_, hordered.fresh⟩
  · have hspec := (seal_spec aead s plaintext).exec_of rfl
    rcases hexec : exec (SecureSession.seal aead plaintext) s with ⟨r, t⟩
    rw [hexec] at hspec he
    obtain rfl := he
    exact hspec.1
  · have hspec := (open_spec aead s frame).exec_of rfl
    rcases hexec : exec (SecureSession.open aead frame) s with ⟨r, t⟩
    rw [hexec] at hspec he
    obtain rfl := he
    exact hspec

end Network

namespace SessionSample

open HandshakeSample Network

/-- What stands in front of a message in its ciphertext. -/
def sealPrefix (key : Block 32) (nonce : Block 12) (aad : Bytes) : Bytes :=
  key.bytes ++ nonce.bytes ++ aad

/-- A cipher that hides nothing, and opens only its own texts. -/
def clear : Aead where
  encrypt key nonce aad message := some (sealPrefix key nonce aad ++ message)
  decrypt key nonce aad ciphertext :=
    if ciphertext.take (sealPrefix key nonce aad).length = sealPrefix key nonce aad then
      some (ciphertext.drop (sealPrefix key nonce aad).length)
    else none
  decrypt_encrypt h := by
    obtain rfl := Option.some.inj h
    rw [List.take_left, if_pos rfl, List.drop_left]

def frame : Bytes := ((exec (SecureSession.seal clear [1, 2, 3]) session).1.toOption).getD []

def ops : List NetworkOp := [.seal .first [1, 2, 3], .deliver .second frame, .deliver .second frame]

/-- The network after the first message. -/
def sent : Network := step clear (start session serverSession) (.seal .first [1, 2, 3])

theorem genuine : (sent.sessions .second).presented frame ∈ sent.encryptions ∧
    ((step clear sent (.deliver .second frame)).sessions .second).presented frame ∈
      (step clear sent (.deliver .second frame)).encryptions := by
  decide +kernel

theorem ideal_ops : StepsMeet (step clear) (Ideal clear) (start session serverSession) ops := by
  have hsent : step clear (start session serverSession) (.seal .first [1, 2, 3]) = sent := rfl
  rw [ops, StepsMeet, hsent, StepsMeet, StepsMeet]
  exact ⟨trivial, fun _ => genuine.1, fun _ => genuine.2, trivial⟩

theorem channel_fifo_plain :
    let network := run (step clear) (start session serverSession) ops
    (∀ side, network.opened side <+: network.plaintexts side.other) ∧
      (∀ s plaintext e, (exec (SecureSession.seal clear plaintext) s).1 = .error e →
        (exec (SecureSession.seal clear plaintext) s).2 = s) ∧
      (∀ s frame e, (exec (SecureSession.open clear frame) s).1 = .error e →
        (exec (SecureSession.open clear frame) s).2 = s) ∧
      (network.frames.map fun e => (e.key, e.nonce)).Nodup :=
  channel_fifo plain clear begin_plain accept_plain finish_plain mixed_comm (by decide) ops
    ideal_ops

end SessionSample

end NTD97
