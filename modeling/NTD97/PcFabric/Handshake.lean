import Mathlib
import NTD97.PcFabric

/-!
# PcFabric/Handshake — two paired identities agree on a session

    client                                         server
      begin ──────────── ClientHello ────────────▸ accept
      finish ◂─── ServerHello (digest of hello) ───  │
        │                                            │
    (first, second)                           (second, first)

Each side signs all it sends, the server with the digest of the client's hello, and both derive the
two keys from the whole transcript.  Signatures, the Diffie–Hellman function and the key expansion
are parameters.
-/

namespace NTD97

open Guard Wire

/-- The name of a peer: the start of the hash of its key. -/
abbrev PeerId := Block 16

/-- The primitives of the libraries underneath. -/
structure Primitives where
  /-- The Ed25519 key of a signing seed. -/
  verifyingKey : Block 32 → Block 32
  sign : Block 32 → Bytes → Block 64
  /-- Whether a block is an Ed25519 key. -/
  isKey : Block 32 → Bool
  verify : Block 32 → Bytes → Block 64 → Bool
  /-- The X25519 point of a secret. -/
  x25519 : Block 32 → Block 32
  diffieHellman : Block 32 → Block 32 → Block 32
  /-- HKDF over SHA-256: salt, secret and info, expanded to 64 bytes. -/
  expand : Digest → Block 32 → Bytes → Option (Block 64)

namespace PcFabric

/-- What keeps the signatures of the handshake apart from others. -/
def handshakeDomain : Bytes := utf8 "NTD97-PCF97-HANDSHAKE-v1"

/-- What keeps the keys of a session apart from others. -/
def sessionKdfInfo : Bytes := utf8 "NTD97-PCF97-SESSION-v1"

/-- The first half of a digest. -/
def idOf (digest : Digest) : PeerId :=
  ⟨digest.bytes.take 16, by rw [List.length_take, digest.length_eq]; rfl⟩

/-- `peer_id_for_verify_key`. -/
def peerIdForVerifyKey (verifyKey : Block 32) : PeerId :=
  idOf (sha256 (utf8 "NTD97-PCF97-PEER" ++ verifyKey.bytes))

/-- `session_id_for`: the id follows from the two peers and the client's part. -/
def sessionIdFor (clientPeerId serverPeerId : PeerId) (ephemeralPublic challenge : Block 32) :
    Block 16 :=
  idOf (sha256 (utf8 "NTD97-PCF97-SESSION-ID" ++ clientPeerId.bytes ++ serverPeerId.bytes ++
    ephemeralPublic.bytes ++ challenge.bytes))

/-- `derive32`: a block that follows from a seed, under a label. -/
def derive32 (label : Bytes) (seed : Block 32) : Block 32 :=
  sha256 (handshakeDomain ++ label ++ seed.bytes)

end PcFabric

open PcFabric

/-! ## Identities

A peer signs with a key of its own and knows the key of the other from the pairing. -/

/-- What is known of the other peer. -/
structure PairingRecord where
  remotePeerId : PeerId
  remoteVerifyKey : Block 32
  deriving DecidableEq

/-- A peer with its seed. -/
structure PairedIdentity where
  signingSeed : Block 32
  peerId : PeerId
  verifyKey : Block 32
  deriving DecidableEq

namespace PairedIdentity

/-- The peer of a seed. -/
def fromSeed (p : Primitives) (signingSeed : Block 32) : PairedIdentity where
  signingSeed := signingSeed
  peerId := peerIdForVerifyKey (p.verifyingKey signingSeed)
  verifyKey := p.verifyingKey signingSeed

/-- What the other peer is told. -/
def pairingRecord (self : PairedIdentity) : PairingRecord where
  remotePeerId := self.peerId
  remoteVerifyKey := self.verifyKey

/-- A signature of this peer. -/
def sign (p : Primitives) (self : PairedIdentity) (bytes : Bytes) : Block 64 :=
  p.sign self.signingSeed bytes

end PairedIdentity

namespace PairingRecord

/-- A record whose name fits its key. -/
def fromPublic (p : Primitives) (remotePeerId : PeerId) (remoteVerifyKey : Block 32) :
    Except PcFabricError PairingRecord := do
  refuse (peerIdForVerifyKey remoteVerifyKey ≠ remotePeerId) .invalidPairing
  refuse (¬ p.isKey remoteVerifyKey) .invalidPairing
  return { remotePeerId, remoteVerifyKey }

/-- A signature of the peer on record. -/
def verify (p : Primitives) (self : PairingRecord) (bytes : Bytes) (signature : Block 64) :
    Except PcFabricError Unit := do
  refuse (¬ p.isKey self.remoteVerifyKey) .invalidPairing
  refuse (¬ p.verify self.remoteVerifyKey bytes signature) .invalidSignature

end PairingRecord

/-- Two different peers, the other one under its own name. -/
def PcFabric.validateIdentityPair (own : PairedIdentity) (remote : PairingRecord) :
    Except PcFabricError Unit := do
  refuse (peerIdForVerifyKey own.verifyKey ≠ own.peerId) .invalidIdentity
  refuse (peerIdForVerifyKey remote.remoteVerifyKey ≠ remote.remotePeerId) .invalidPairing
  refuse (own.peerId = remote.remotePeerId) .invalidPairing

/-- The randomness of one handshake; both parts of it follow from the seed. -/
structure HandshakeEntropy where
  seed : Block 32
  deriving DecidableEq

namespace HandshakeEntropy

def x25519Secret (self : HandshakeEntropy) : Block 32 := derive32 (utf8 "x25519") self.seed

def challenge (self : HandshakeEntropy) : Block 32 := derive32 (utf8 "challenge") self.seed

end HandshakeEntropy

/-! ## Hellos

Each hello is signed over the fields before its signature; the server's names the hash of the
client's. -/

/-- What the client sends. -/
structure ClientHello where
  clientPeerId : PeerId
  expectedServerPeerId : PeerId
  sessionId : Block 16
  ephemeralPublic : Block 32
  challenge : Block 32
  signature : Block 64
  deriving DecidableEq

/-- What the server answers. -/
structure ServerHello where
  serverPeerId : PeerId
  expectedClientPeerId : PeerId
  sessionId : Block 16
  ephemeralPublic : Block 32
  challenge : Block 32
  clientHelloDigest : Digest
  signature : Block 64
  deriving DecidableEq

namespace PcFabric

/-- What the client signs. -/
def clientSigningBytes (hello : ClientHello) : Bytes :=
  handshakeDomain ++ (utf8 "client" ++ (hello.clientPeerId.bytes ++
    (hello.expectedServerPeerId.bytes ++ (hello.sessionId.bytes ++ (hello.ephemeralPublic.bytes ++
      hello.challenge.bytes)))))

/-- What the server signs. -/
def serverSigningBytes (hello : ServerHello) : Bytes :=
  handshakeDomain ++ (utf8 "server" ++ (hello.serverPeerId.bytes ++
    (hello.expectedClientPeerId.bytes ++ (hello.sessionId.bytes ++ (hello.ephemeralPublic.bytes ++
      (hello.challenge.bytes ++ hello.clientHelloDigest.bytes))))))

/-- The client's hello with its signature. -/
def clientWireBytes (hello : ClientHello) : Bytes :=
  clientSigningBytes hello ++ hello.signature.bytes

/-- The server's hello with its signature. -/
def serverWireBytes (hello : ServerHello) : Bytes :=
  serverSigningBytes hello ++ hello.signature.bytes

/-- A signature before it is known. -/
def zeroSignature : Block 64 := ⟨List.replicate 64 0, rfl⟩

end PcFabric

/-! ## Sessions

The keys follow from the shared secret and the hellos; who is the client says which is for sending.
-/

/-- Which end of the channel a peer is. -/
inductive SessionRole where
  | client
  | server
  deriving DecidableEq

/-- The end of a channel: its keys, and the numbers of the next frames. -/
structure SecureSession where
  sessionId : Block 16
  txKey : Block 32
  rxKey : Block 32
  txSequence : UInt64
  rxSequence : UInt64
  deriving DecidableEq

namespace PcFabric

/-- The two halves of the key material. -/
def firstKey (material : Block 64) : Block 32 :=
  ⟨material.bytes.take 32, by rw [List.length_take, material.length_eq]; rfl⟩

/-- The other half of the material. -/
def secondKey (material : Block 64) : Block 32 :=
  ⟨material.bytes.drop 32, by rw [List.length_drop, material.length_eq]⟩

/-- `derive_session`: two keys, one for each direction. -/
def deriveSession (p : Primitives) (role : SessionRole) (sessionId : Block 16)
    (sharedSecret : Block 32) (client : ClientHello) (server : ServerHello) :
    Except PcFabricError SecureSession := do
  let salt := sha256 (clientWireBytes client ++ serverWireBytes server)
  let material ← okOr (p.expand salt sharedSecret sessionKdfInfo) .cryptoFailure
  let (txKey, rxKey) := match role with
    | .client => (firstKey material, secondKey material)
    | .server => (secondKey material, firstKey material)
  return { sessionId, txKey, rxKey, txSequence := 0, rxSequence := 0 }

end PcFabric

/-- What the client keeps until the answer comes. -/
structure ClientHandshake where
  own : PairedIdentity
  remote : PairingRecord
  entropy : HandshakeEntropy
  hello : ClientHello
  deriving DecidableEq

namespace ClientHandshake

/-- The signed hello of a client. -/
def clientHello (p : Primitives) (own : PairedIdentity) (remote : PairingRecord)
    (entropy : HandshakeEntropy) : ClientHello :=
  let ephemeralPublic := p.x25519 entropy.x25519Secret
  let hello : ClientHello := {
    clientPeerId := own.peerId
    expectedServerPeerId := remote.remotePeerId
    sessionId := sessionIdFor own.peerId remote.remotePeerId ephemeralPublic entropy.challenge
    ephemeralPublic
    challenge := entropy.challenge
    signature := zeroSignature }
  { hello with signature := own.sign p (clientSigningBytes hello) }

/-- `begin`: the client's hello. -/
def begin (p : Primitives) (own : PairedIdentity) (remote : PairingRecord)
    (entropy : HandshakeEntropy) : Except PcFabricError (ClientHandshake × ClientHello) := do
  validateIdentityPair own remote
  let hello := clientHello p own remote entropy
  return ({ own, remote, entropy, hello }, hello)

/-- `finish`: the answer is checked against the hello, then the session derived. -/
def finish (p : Primitives) (self : ClientHandshake) (server : ServerHello) :
    Except PcFabricError SecureSession := do
  refuse (server.serverPeerId ≠ self.remote.remotePeerId ∨
    server.expectedClientPeerId ≠ self.own.peerId ∨ server.sessionId ≠ self.hello.sessionId ∨
    server.clientHelloDigest ≠ sha256 (clientWireBytes self.hello)) .invalidHandshake
  self.remote.verify p (serverSigningBytes server) server.signature
  let shared := p.diffieHellman self.entropy.x25519Secret server.ephemeralPublic
  deriveSession p .client self.hello.sessionId shared self.hello server

end ClientHandshake

namespace ServerHello

/-- The signed hello of a server, for a client's hello. -/
def serverHello (p : Primitives) (own : PairedIdentity) (remote : PairingRecord)
    (entropy : HandshakeEntropy) (client : ClientHello) : ServerHello :=
  let hello : ServerHello := {
    serverPeerId := own.peerId
    expectedClientPeerId := remote.remotePeerId
    sessionId := client.sessionId
    ephemeralPublic := p.x25519 entropy.x25519Secret
    challenge := entropy.challenge
    clientHelloDigest := sha256 (clientWireBytes client)
    signature := zeroSignature }
  { hello with signature := own.sign p (serverSigningBytes hello) }

/-- The checks of `accept`, before it signs. -/
def admits (p : Primitives) (own : PairedIdentity) (remote : PairingRecord)
    (client : ClientHello) : Except PcFabricError Unit := do
  validateIdentityPair own remote
  refuse (client.clientPeerId ≠ remote.remotePeerId ∨
    client.expectedServerPeerId ≠ own.peerId) .peerMismatch
  remote.verify p (clientSigningBytes client) client.signature
  refuse (client.sessionId ≠ sessionIdFor client.clientPeerId client.expectedServerPeerId
    client.ephemeralPublic client.challenge) .invalidHandshake

/-- `accept`: the hello is checked, answered, and the session derived. -/
def accept (p : Primitives) (own : PairedIdentity) (remote : PairingRecord)
    (entropy : HandshakeEntropy) (client : ClientHello) :
    Except PcFabricError (ServerHello × SecureSession) := do
  admits p own remote client
  let hello := serverHello p own remote entropy client
  let shared := p.diffieHellman entropy.x25519Secret client.ephemeralPublic
  let session ← deriveSession p .server client.sessionId shared client hello
  return (hello, session)

end ServerHello

/-! ## What the signed bytes say

The fields have fixed lengths, so equal bytes have equal fields. -/

namespace PcFabric

/-- Blocks of one length are read off the front of a text of bytes. -/
theorem block_append_inj {n : ℕ} {a b : Block n} {x y : Bytes} (h : a.bytes ++ x = b.bytes ++ y) :
    a = b ∧ x = y := by
  obtain ⟨hbytes, hrest⟩ := List.append_inj h (a.length_eq.trans b.length_eq.symm)
  cases a
  cases b
  exact ⟨by simpa using hbytes, hrest⟩

/-- A client's bytes are never a server's. -/
theorem clientSigningBytes_ne_server (client : ClientHello) (server : ServerHello) :
    clientSigningBytes client ≠ serverSigningBytes server := by
  intro h
  have hlabel := (List.append_inj (List.append_cancel_left h) rfl).1
  exact absurd hlabel (by decide)

/-- **The signed bytes of a server determine its hello** up to the signature. -/
theorem serverSigningBytes_inj {a b : ServerHello} (h : serverSigningBytes a = serverSigningBytes b)
    (hsignature : a.signature = b.signature) : a = b := by
  obtain ⟨h₁, h⟩ := block_append_inj (List.append_cancel_left (List.append_cancel_left h))
  obtain ⟨h₂, h⟩ := block_append_inj h
  obtain ⟨h₃, h⟩ := block_append_inj h
  obtain ⟨h₄, h⟩ := block_append_inj h
  obtain ⟨h₅, h⟩ := block_append_inj h
  cases a
  cases b
  simp only at h₁ h₂ h₃ h₄ h₅ h hsignature
  rw [h₁, h₂, h₃, h₄, h₅, block_ext h, hsignature]

/-- **The wire bytes of a client determine its hello.** -/
theorem clientWireBytes_inj {a b : ClientHello} (h : clientWireBytes a = clientWireBytes b) :
    a = b := by
  have hlength : (clientSigningBytes a).length = (clientSigningBytes b).length := by
    simp [clientSigningBytes, Block.length_eq]
  obtain ⟨hsigning, hsignature⟩ := List.append_inj h hlength
  obtain ⟨h₁, h⟩ := block_append_inj (List.append_cancel_left (List.append_cancel_left hsigning))
  obtain ⟨h₂, h⟩ := block_append_inj h
  obtain ⟨h₃, h⟩ := block_append_inj h
  obtain ⟨h₄, h⟩ := block_append_inj h
  cases a
  cases b
  simp only at h₁ h₂ h₃ h₄ h hsignature
  rw [h₁, h₂, h₃, h₄, block_ext h, block_ext hsignature]

/-- **Two ends of one channel**: what the one seals with, the other opens with. -/
structure Mirrored (a b : SecureSession) : Prop where
  sessionId : a.sessionId = b.sessionId
  txKey : a.txKey = b.rxKey
  rxKey : a.rxKey = b.txKey

/-- From one transcript and one secret the two roles derive mirrored sessions. -/
theorem deriveSession_mirrored {p : Primitives} {sessionId : Block 16} {secret : Block 32}
    {client : ClientHello} {server : ServerHello} {a : SecureSession}
    (h : deriveSession p .client sessionId secret client server = .ok a) :
    ∃ b, deriveSession p .server sessionId secret client server = .ok b ∧ Mirrored a b := by
  obtain ⟨material, hmaterial, h⟩ := bind_eq_ok.1 h
  obtain rfl := pure_eq_ok.1 h
  exact ⟨_, bind_eq_ok.2 ⟨material, hmaterial, rfl⟩, rfl, rfl, rfl⟩

end PcFabric

/-! ## Parallel runs of two paired identities

Every client and server of the two, in any order; a run is listed, not scheduled. -/

/-- The two peers. -/
inductive Side where
  | first
  | second
  deriving DecidableEq

/-- The other peer. -/
def Side.other : Side → Side
  | .first => .second
  | .second => .first

/-- A run of a handshake at one of the identities; what a server is given comes from the network. -/
inductive HandshakeRun where
  | begin (side : Side) (entropy : HandshakeEntropy)
  | accept (side : Side) (entropy : HandshakeEntropy) (client : ClientHello)
  deriving DecidableEq

namespace HandshakeRun

variable (p : Primitives) (seed : Side → Block 32)

/-- The identity of a side. -/
def identity (side : Side) : PairedIdentity := .fromSeed p (seed side)

/-- What a side knows of the other one. -/
def record (side : Side) : PairingRecord := (identity p seed side.other).pairingRecord

/-- **What a run signs**: its hello, once its checks are passed. -/
inductive Signs : HandshakeRun → Side → Bytes → Block 64 → Prop
  | client {side : Side} {entropy : HandshakeEntropy} {hello : ClientHello}
      (checks : validateIdentityPair (identity p seed side) (record p seed side) = .ok ())
      (signed : hello =
        ClientHandshake.clientHello p (identity p seed side) (record p seed side) entropy) :
      Signs (.begin side entropy) side (clientSigningBytes hello) hello.signature
  | server {side : Side} {entropy : HandshakeEntropy} {client : ClientHello} {hello : ServerHello}
      (checks : ServerHello.admits p (identity p seed side) (record p seed side) client = .ok ())
      (signed : hello =
        ServerHello.serverHello p (identity p seed side) (record p seed side) entropy client) :
      Signs (.accept side entropy client) side (serverSigningBytes hello) hello.signature

variable {p seed} {side : Side} {entropy : HandshakeEntropy} {state : ClientHandshake}
  {hello : ClientHello} {server : ServerHello} {session : SecureSession}

/-- What a client remembers of its hello. -/
theorem begin_eq_ok (h : ClientHandshake.begin p (identity p seed side) (record p seed side) entropy =
    .ok (state, hello)) :
    state.own = identity p seed side ∧ state.remote = record p seed side ∧
      state.entropy = entropy ∧ state.hello = hello ∧
      hello = ClientHandshake.clientHello p (identity p seed side) (record p seed side) entropy := by
  obtain ⟨-, -, h⟩ := bind_eq_ok.1 h
  obtain ⟨rfl, rfl⟩ := Prod.mk.inj (pure_eq_ok.1 h)
  exact ⟨rfl, rfl, rfl, rfl, rfl⟩

/-- **What a client checks** before it derives its session. -/
theorem finish_eq_ok (h : state.finish p server = .ok session) :
    server.clientHelloDigest = sha256 (clientWireBytes state.hello) ∧
      p.verify state.remote.remoteVerifyKey (serverSigningBytes server) server.signature = true ∧
      deriveSession p .client state.hello.sessionId
        (p.diffieHellman state.entropy.x25519Secret server.ephemeralPublic) state.hello server =
          .ok session := by
  obtain ⟨_, hchecks, h⟩ := bind_eq_ok.1 h
  obtain ⟨_, hverify, h⟩ := bind_eq_ok.1 h
  rw [refuse_eq_ok] at hchecks
  obtain ⟨-, -, hsigned⟩ := bind_eq_ok.1 hverify
  rw [refuse_eq_ok, not_not] at hsigned
  refine ⟨?_, hsigned, h⟩
  by_contra hdigest
  exact hchecks (.inr (.inr (.inr hdigest)))

/-- What is signed as a server's bytes is the hello of an accepted run. -/
theorem signs_server {run : HandshakeRun}
    (h : Signs p seed run side (serverSigningBytes server) server.signature) :
    ∃ entropy client, run = .accept side entropy client ∧
      ServerHello.admits p (identity p seed side) (record p seed side) client = .ok () ∧
      server =
        ServerHello.serverHello p (identity p seed side) (record p seed side) entropy client := by
  generalize hbytes : serverSigningBytes server = bytes at h
  generalize hsignature : server.signature = signature at h
  cases h with
  | client _ _ => exact absurd hbytes.symm (clientSigningBytes_ne_server _ _)
  | @server _ entropy client hello checks signed =>
    exact ⟨entropy, client, rfl, checks, (serverSigningBytes_inj hbytes hsignature).trans signed⟩

/-- **Agreement**: a client that finishes does so with the hello of a run of the other side on
exactly its own hello, and the two ends mirror each other; no server's hello for another client's
hello is accepted. -/
theorem handshake_agreement (p : Primitives) (seed : Side → Block 32) (runs : List HandshakeRun)
    {side : Side} {entropy : HandshakeEntropy} {state : ClientHandshake} {hello : ClientHello}
    (hbegin : ClientHandshake.begin p (identity p seed side) (record p seed side) entropy =
      .ok (state, hello))
    (hcommutes : ∀ a b, p.diffieHellman a (p.x25519 b) = p.diffieHellman b (p.x25519 a))
    (hcollision : ∀ side' entropy' client, .accept side' entropy' client ∈ runs →
      ¬ Collides (clientWireBytes client) (clientWireBytes hello)) :
    (∀ server session, state.finish p server = .ok session →
      (p.verify (record p seed side).remoteVerifyKey (serverSigningBytes server)
          server.signature = true →
        ∃ run ∈ runs, Signs p seed run side.other (serverSigningBytes server) server.signature) →
      ∃ entropy' serverSession, .accept side.other entropy' hello ∈ runs ∧
        ServerHello.accept p (identity p seed side.other) (record p seed side.other) entropy' hello =
          .ok (server, serverSession) ∧
        Mirrored session serverSession) ∧
    ∀ side' entropy' client server serverSession, .accept side' entropy' client ∈ runs →
      ServerHello.accept p (identity p seed side') (record p seed side') entropy' client =
        .ok (server, serverSession) →
      client ≠ hello → ∀ session, state.finish p server ≠ .ok session := by
  obtain ⟨hown, hremote, hentropy, rfl, hhello⟩ := begin_eq_ok hbegin
  constructor
  · intro server session hfinish hunforgeable
    obtain ⟨hdigest, hverify, hsession⟩ := finish_eq_ok hfinish
    rw [hremote] at hverify
    obtain ⟨run, hrun, hsigns⟩ := hunforgeable hverify
    obtain ⟨entropy', client, rfl, hadmit, rfl⟩ := signs_server hsigns
    -- the digest of the client's hello pins the input of that run
    have hclient : client = state.hello := by
      by_contra hne
      exact hcollision _ _ _ hrun ⟨fun heq => hne (clientWireBytes_inj heq), hdigest⟩
    subst hclient
    have hpublic : state.hello.ephemeralPublic = p.x25519 entropy.x25519Secret := by rw [hhello]; rfl
    obtain ⟨serverSession, hserver, hmirrored⟩ := deriveSession_mirrored hsession
    refine ⟨entropy', serverSession, hrun, ?_, hmirrored⟩
    refine bind_eq_ok.2 ⟨(), hadmit, bind_eq_ok.2 ⟨serverSession, ?_, rfl⟩⟩
    rw [hpublic, hcommutes, ← hentropy]
    exact hserver
  · intro side' entropy' client server serverSession hrun haccept hne session hfinish
    obtain ⟨hdigest, -, -⟩ := finish_eq_ok hfinish
    obtain ⟨-, -, haccept⟩ := bind_eq_ok.1 haccept
    obtain ⟨_, -, haccept⟩ := bind_eq_ok.1 haccept
    obtain ⟨rfl, rfl⟩ := Prod.mk.inj (pure_eq_ok.1 haccept)
    exact hcollision side' entropy' client hrun
      ⟨fun heq => hne (clientWireBytes_inj heq), hdigest⟩

end HandshakeRun

namespace HandshakeSample

open HandshakeRun

def signed (key : Block 32) (bytes : Bytes) : Block 64 where
  bytes := key.bytes ++ (sha256 bytes).bytes
  length_eq := by rw [List.length_append, key.length_eq, (sha256 bytes).length_eq]

def mixed (a b : Block 32) : Block 32 where
  bytes := List.zipWith (· ^^^ ·) a.bytes b.bytes
  length_eq := by rw [List.length_zipWith, a.length_eq, b.length_eq, Nat.min_self]

theorem mixed_comm (a b : Block 32) : mixed a b = mixed b a :=
  block_ext (List.zipWith_comm_of_comm UInt8.xor_comm)

/-- Primitives without any secrecy, which follow the equations of the real ones; all sessions have
the same two keys. -/
def plain : Primitives where
  verifyingKey seed := seed
  sign := signed
  isKey _ := true
  verify key bytes signature := signature = signed key bytes
  x25519 secret := secret
  diffieHellman := mixed
  expand _ _ _ := some ⟨List.replicate 32 1 ++ List.replicate 32 2, rfl⟩

def seed : Side → Block 32
  | .first => ⟨List.replicate 32 1, rfl⟩
  | .second => ⟨List.replicate 32 2, rfl⟩

def entropy (n : UInt8) : HandshakeEntropy := ⟨⟨List.replicate 32 n, by simp⟩⟩

def hello : ClientHello :=
  ClientHandshake.clientHello plain (identity plain seed .first) (record plain seed .first) (entropy 3)

def state : ClientHandshake where
  own := identity plain seed .first
  remote := record plain seed .first
  entropy := entropy 3
  hello := hello

def server : ServerHello :=
  ServerHello.serverHello plain (identity plain seed .second) (record plain seed .second) (entropy 4)
    hello

/-- The key material of every handshake. -/
def material : Block 64 := ⟨List.replicate 32 1 ++ List.replicate 32 2, rfl⟩

def session : SecureSession where
  sessionId := hello.sessionId
  txKey := firstKey material
  rxKey := secondKey material
  txSequence := 0
  rxSequence := 0

def serverSession : SecureSession where
  sessionId := hello.sessionId
  txKey := secondKey material
  rxKey := firstKey material
  txSequence := 0
  rxSequence := 0

theorem validate_pair (side : Side) :
    validateIdentityPair (identity plain seed side) (record plain seed side) = .ok () := by
  refine bind_eq_ok.2 ⟨(), refuse_eq_ok.2 (not_not.2 rfl), bind_eq_ok.2 ⟨(),
    refuse_eq_ok.2 (not_not.2 rfl), refuse_eq_ok.2 ?_⟩⟩
  cases side <;> decide +kernel

theorem begin_plain :
    ClientHandshake.begin plain (identity plain seed .first) (record plain seed .first) (entropy 3) =
      .ok (state, hello) :=
  bind_eq_ok.2 ⟨(), validate_pair .first, rfl⟩

theorem verify_plain {side : Side} {bytes : Bytes} {signature : Block 64}
    (h : signature = signed (seed side.other) bytes) :
    (record plain seed side).verify plain bytes signature = .ok () :=
  bind_eq_ok.2 ⟨(), refuse_eq_ok.2 (not_not.2 rfl), refuse_eq_ok.2 (not_not.2 (decide_eq_true h))⟩

theorem admits_plain : ServerHello.admits plain (identity plain seed .second)
    (record plain seed .second) hello = .ok () :=
  bind_eq_ok.2 ⟨(), validate_pair .second, bind_eq_ok.2 ⟨(),
    refuse_eq_ok.2 (not_or.2 ⟨not_not.2 rfl, not_not.2 rfl⟩),
    bind_eq_ok.2 ⟨(), verify_plain rfl, refuse_eq_ok.2 (not_not.2 rfl)⟩⟩⟩

theorem server_sessionId : server.sessionId = hello.sessionId := by
  rw [server, ServerHello.serverHello]

theorem server_digest : server.clientHelloDigest = sha256 (clientWireBytes hello) := by
  rw [server, ServerHello.serverHello]

theorem state_hello : state.hello = hello := by rw [state]

theorem finish_plain : state.finish plain server = .ok session := by
  refine bind_eq_ok.2 ⟨(), refuse_eq_ok.2 ?_, bind_eq_ok.2 ⟨(), verify_plain ?_, ?_⟩⟩
  · rintro (h | h | h | h)
    · exact h rfl
    · exact h rfl
    · exact h (by rw [server_sessionId, state_hello])
    · exact h (by rw [server_digest, state_hello])
  · rfl
  · exact bind_eq_ok.2 ⟨material, rfl, rfl⟩

theorem accept_plain : ServerHello.accept plain (identity plain seed .second)
    (record plain seed .second) (entropy 4) hello = .ok (server, serverSession) :=
  bind_eq_ok.2 ⟨(), admits_plain, bind_eq_ok.2 ⟨serverSession,
    bind_eq_ok.2 ⟨material, rfl, rfl⟩, rfl⟩⟩

/-- The runs of one undisturbed handshake. -/
def runs : List HandshakeRun := [.begin .first (entropy 3), .accept .second (entropy 4) hello]

theorem handshake_agreement_plain :
    ∃ entropy' serverSession, .accept .second entropy' hello ∈ runs ∧
      ServerHello.accept plain (identity plain seed .second) (record plain seed .second) entropy'
        hello = .ok (server, serverSession) ∧ Mirrored session serverSession := by
  have hcollision : ∀ side' entropy' client, .accept side' entropy' client ∈ runs →
      ¬ Collides (clientWireBytes client) (clientWireBytes hello) := by
    intro side' entropy' client hrun hcollides
    simp only [runs, List.mem_cons, List.not_mem_nil, or_false, reduceCtorEq, false_or,
      HandshakeRun.accept.injEq] at hrun
    exact hcollides.1 (by rw [hrun.2.2])
  refine (handshake_agreement plain seed runs begin_plain mixed_comm hcollision).1 server session
    finish_plain fun _ => ⟨_, ?_, .server admits_plain rfl⟩
  simp [runs, Side.other]

end HandshakeSample

end NTD97
