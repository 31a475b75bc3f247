import Mathlib
import NTD97.AndroidActions
import NTD97.Lib.FileCalls
import NTD97.PcFabric.Handshake

/-!
# PcPairs — the stored pairing profiles

    <root>/pc-pairs/<peer>.pcp97

    provision:  inspect ▸ create_new ▸ write ▸ sync ▸ sync ▸ load ──▸ receipt
                            └──────── an error ────────┴──▸ remove

`provision_pc_pair_profile` makes the file of a peer and reads it back; on any error behind its
inspection it removes that file again.  Socket addresses, the elliptic curve and the texts of the
host are parameters, and so is what the host answers for random bytes and for the names in a
directory.
-/

namespace NTD97

open Guard Text Wire Files Steps

/-- `SocketAddr`, as far as it is parsed, shown and tested. -/
structure SocketAddrs (A : Type) where
  parse : String → Option A
  display : A → String
  /-- It has a port, and is neither unspecified nor multicast. -/
  isRoutable : A → Bool

structure PcPairProfile (A : Type) where
  peer : String
  address : A
  localSeed : Block 32
  remotePeerId : PeerId
  remoteVerifyKey : Block 32

/-! ## Texts -/

def hexValue (byte : UInt8) : Option UInt8 :=
  if 48 ≤ byte ∧ byte ≤ 57 then some (byte - 48)
  else if 97 ≤ byte ∧ byte ≤ 102 then some (byte - 87)
  else if 65 ≤ byte ∧ byte ≤ 70 then some (byte - 55)
  else none

/-- The bytes of pairs of hexadecimal digits. -/
def decodeHexPairs : Bytes → Option Bytes
  | high :: low :: rest => do
    let high ← hexValue high
    let low ← hexValue low
    let rest ← decodeHexPairs rest
    return (high * 16 + low) :: rest
  | _ => some []

def decodeFixedHex (n : ℕ) (value : String) : Except String (Block n) :=
  if (utf8 value).length ≠ n * 2 then .error "paired-PC hex field has invalid length"
  else match decodeHexPairs (utf8 value) with
    | none => .error "paired-PC hex field is invalid"
    | some bytes =>
      if h : bytes.length = n then .ok ⟨bytes, h⟩ else .error "paired-PC hex field is invalid"

def hexDigitOf (n : UInt8) : Char :=
  if n < 10 then Char.ofNat (48 + n.toNat) else Char.ofNat (87 + n.toNat)

def fixedHex (bytes : Bytes) : String :=
  String.ofList (bytes.flatMap fun b => [hexDigitOf (b / 16), hexDigitOf (b % 16)])

/-- `str::strip_prefix`. -/
def stripPrefix (key line : String) : Option String :=
  if key.toList.isPrefixOf line.toList then
    some (String.ofList (line.toList.drop key.toList.length)) else none

/-- `str::strip_suffix`. -/
def stripSuffix (key line : String) : Option String :=
  if key.toList.isSuffixOf line.toList then
    some (String.ofList (line.toList.take (line.toList.length - key.toList.length))) else none

def profileValue (line key : String) : Except String String :=
  okOr ((stripPrefix key line).filter fun value => !value.isEmpty)
    ("paired-PC profile missing " ++ key)

section PcPairs

variable {A : Type} [DecidableEq A] (addresses : SocketAddrs A) (primitives : Primitives)
  (describe : IoError → String) (debug : PcFabricError → String)
  (display : Path → String) (root : Path)

def validatePcSocketAddress (address : A) : Except String A := do
  refuse (¬ addresses.isRoutable address) "paired-PC socket address is not routable"
  return address

/-- An address in a text, which can be reached. -/
def parsePcSocketAddress (text : String) : Except String A := do
  let address ← okOr (addresses.parse text) "paired-PC profile address is invalid"
  validatePcSocketAddress addresses address

def checkPinnedIdentity (remotePeerId : PeerId) (remoteVerifyKey : Block 32) :
    Except String Unit := do
  let _ ← (PairingRecord.fromPublic primitives remotePeerId remoteVerifyKey).mapError
    fun error => "paired-PC pinned identity is invalid: " ++ debug error

/-- The profile in the text of a file. -/
def decodePcPairProfile (expectedPeer : String) (bytes : Bytes) :
    Except String (PcPairProfile A) := do
  let text ← okOr (ofUtf8 bytes) "read paired-PC profile: stream did not contain valid UTF-8"
  match lines text with
  | [first, second, third, fourth, fifth, sixth, seventh] => do
    refuse (first ≠ "NTD97_PC_PAIR_V1" ∨ seventh ≠ "END") "paired-PC profile framing is invalid"
    let peer ← profileValue second "peer="
    refuse (peer ≠ expectedPeer ∨ ¬ validPcPeerAlias peer) "paired-PC profile peer alias mismatch"
    let address ← parsePcSocketAddress addresses (← profileValue third "address=")
    let localSeed ← decodeFixedHex 32 (← profileValue fourth "local_seed=")
    let remotePeerId ← decodeFixedHex 16 (← profileValue fifth "remote_peer_id=")
    let remoteVerifyKey ← decodeFixedHex 32 (← profileValue sixth "remote_verify_key=")
    checkPinnedIdentity primitives debug remotePeerId remoteVerifyKey
    return { peer, address, localSeed, remotePeerId, remoteVerifyKey }
  | _ => throw "paired-PC profile framing is invalid"

def pcPairPublicReceipt (profile : PcPairProfile A) : String :=
  let self := PairedIdentity.fromSeed primitives profile.localSeed
  "NTD97_PC_PAIR_RECEIPT_V1\npeer=" ++ profile.peer ++ "\naddress=" ++
    addresses.display profile.address ++ "\nlocal_peer_id=" ++ fixedHex self.peerId.bytes ++
    "\nlocal_verify_key=" ++ fixedHex self.verifyKey.bytes ++ "\nEND\n"

def pcPairBody (peer : String) (address : A) (localSeed : Block 32) (remotePeerId : PeerId)
    (remoteVerifyKey : Block 32) : Bytes :=
  utf8 ("NTD97_PC_PAIR_V1\npeer=" ++ peer ++ "\naddress=" ++ addresses.display address ++
    "\nlocal_seed=" ++ fixedHex localSeed.bytes ++ "\nremote_peer_id=" ++
    fixedHex remotePeerId.bytes ++ "\nremote_verify_key=" ++ fixedHex remoteVerifyKey.bytes ++
    "\nEND\n")

/-! ## The directory -/

/-- Where the profiles are. -/
def pcPairs : Path := root ++ ["pc-pairs"]

/-- The file of a peer. -/
def pcPairFile (peer : String) : Path := pcPairs root ++ [peer ++ ".pcp97"]

/-- The directory of the profiles is a real one, and is made where there is nothing. -/
def ensurePcPairs (pairs : Path) : FileProg String Unit :=
  .call (.metadata pairs) fun metadata => match metadata with
    | .ok .directory => pure ()
    | .ok _ => throw "paired-PC profile directory is not a real directory"
    | .error .notFound => ask describe "create paired-PC profile directory" (.createDir pairs)
    | .error error => throw ("inspect paired-PC profile directory: " ++ describe error)

/-- What is done only to create. -/
def onlyIf (create : Bool) (p : FileProg String Unit) : FileProg String Unit :=
  if create then p else pure ()

def canonicalPcPairDirectory (create : Bool) : FileProg String Path := do
  onlyIf create (root.inits.forM fun part =>
    ask describe "create paired-PC capability root" (.makeDir root part))
  let root : Path ← ask describe "canonicalize paired-PC capability root" (.canonicalize root)
  onlyIf create (ensurePcPairs describe (pcPairs root))
  let pairs : Path ← ask describe "paired-PC profile directory is unavailable"
    (.canonicalize (pcPairs root))
  refuse (¬ root <+: pairs) "paired-PC profile directory escaped capability root"
  return pairs

def isBoundedFile : Kind → Bool
  | .file length => length ≤ 4096
  | _ => false

def loadPcPairProfile (expectedPeer : String) : FileProg String (PcPairProfile A) := do
  refuse (¬ validPcPeerAlias expectedPeer) "paired-PC peer alias is invalid"
  let root : Path ← ask describe "canonicalize paired-PC capability root" (.canonicalize root)
  let pairs : Path ← ask describe "paired-PC profile directory is unavailable"
    (.canonicalize (pcPairs root))
  refuse (¬ root <+: pairs) "paired-PC profile directory escaped capability root"
  let path := pairs ++ [expectedPeer ++ ".pcp97"]
  let metadata : Kind ← ask describe "paired-PC profile is unavailable" (.metadata path)
  refuse (¬ isBoundedFile metadata) "paired-PC profile is not a bounded regular file"
  let canonical : Path ← ask describe "canonicalize paired-PC profile" (.canonicalize path)
  refuse (¬ pairs <+: canonical) "paired-PC profile escaped profile directory"
  let bytes : Bytes ← ask describe "read paired-PC profile" (.read canonical)
  Prog.check (decodePcPairProfile addresses primitives debug expectedPeer bytes)

/-- A name in the directory: it is told if it can be loaded. -/
def listPcPairName (peers : List String) : Option String → FileProg String (List String)
  | none => return peers
  | some peer =>
    if validPcPeerAlias peer then do
      let loaded : Except String (PcPairProfile A) ←
        (loadPcPairProfile addresses primitives describe debug root peer).attempt
      return if loaded.isOk then peers ++ [peer] else peers
    else return peers

def listPcPairEntry (peers : List String) (entry : Except IoError (Option String)) :
    FileProg String (List String) := do
  let name ← Prog.check (entry.mapError fun error => "read paired-PC profile entry: " ++ describe error)
  listPcPairName addresses primitives describe debug root peers (name.bind (stripSuffix ".pcp97"))

/-- The profiles of the directory. -/
def listPcPairDirectory (listing : Except IoError (List (Except IoError (Option String)))) :
    FileProg String (List String) := do
  let _ ← canonicalPcPairDirectory describe root false
  let entries ← Prog.check (listing.mapError fun error =>
    "read paired-PC profile directory: " ++ describe error)
  let peers ← entries.foldlM (listPcPairEntry addresses primitives describe debug root) []
  return (peers.mergeSort (· ≤ ·)).dedup

/-- Nothing is listed where there is nothing. -/
def whereThere (path : Path) (p : FileProg String (List String)) : FileProg String (List String) :=
  .call (.stat path) fun there => match there with
    | .error _ => pure []
    | .ok _ => p

def listPcPairProfiles (listing : Except IoError (List (Except IoError (Option String)))) :
    FileProg String (List String) :=
  whereThere root (whereThere (pcPairs root)
    (listPcPairDirectory addresses primitives describe debug root listing))

/-! ## Provisioning -/

def rollbackPcPairCommit (pairs target : Path) : FileProg String Unit :=
  .call (.remove target) fun removed =>
    let errors := match removed with
      | .ok _ => []
      | .error .notFound => []
      | .error error => ["remove " ++ display target ++ ": " ++ describe error]
    .call (.sync pairs) fun synced =>
      let errors := errors ++ match synced with
        | .ok _ => []
        | .error error => ["sync paired-PC profile directory: " ++ describe error]
      if errors = [] then pure () else throw ("; ".intercalate errors)

/-- An error that is rolled back, told with what went wrong there. -/
def rolledBack {α : Type} (error : String) (pairs target : Path) : FileProg String α := do
  let rollback ← (rollbackPcPairCommit describe display pairs target).attempt
  match rollback with
  | .ok () => throw error
  | .error rollbackError => throw (error ++ "; rollback failed: " ++ rollbackError)

def writePcPairProfile (pairs target : Path) (body : Bytes) : FileProg String Unit := do
  ask describe "create paired-PC profile without replacement" (.createNew target)
  ask describe "write paired-PC profile" (.append target body)
  ask describe "sync paired-PC profile" (.sync target)
  ask describe "sync paired-PC profile directory" (.sync pairs)

/-- There is no profile of a peer yet. -/
def inspectAbsent (target : Path) : FileProg String Unit :=
  .call (.metadata target) fun metadata => match metadata with
    | .ok _ => throw "paired-PC profile already exists; revoke it before replacement"
    | .error .notFound => pure ()
    | .error error => throw ("inspect paired-PC target profile: " ++ describe error)

def provisionPcPairProfile (peer address remotePeerIdHex remoteVerifyKeyHex : String)
    (random : Except IoError (Block 32)) : FileProg String String := do
  refuse (¬ validPcPeerAlias peer) "paired-PC peer alias is invalid"
  let address ← Prog.check (parsePcSocketAddress addresses address)
  let remotePeerId ← Prog.check (decodeFixedHex 16 remotePeerIdHex)
  let remoteVerifyKey ← Prog.check (decodeFixedHex 32 remoteVerifyKeyHex)
  Prog.check (checkPinnedIdentity primitives debug remotePeerId remoteVerifyKey)
  let pairs ← canonicalPcPairDirectory describe root true
  let target := pairs ++ [peer ++ ".pcp97"]
  inspectAbsent describe target
  let localSeed ← Prog.check (random.mapError fun error => "read OS random bytes: " ++ describe error)
  let body := pcPairBody addresses peer address localSeed remotePeerId remoteVerifyKey
  let written ← (writePcPairProfile describe pairs target body).attempt
  match written with
  | .error error => rolledBack describe display error pairs target
  | .ok () => do
    let loaded : Except String (PcPairProfile A) ←
      (loadPcPairProfile addresses primitives describe debug root peer).attempt
    match loaded with
    | .error error =>
      rolledBack describe display ("paired-PC committed profile failed reload: " ++ error) pairs target
    | .ok loaded =>
      if loaded.address ≠ address ∨ loaded.remotePeerId ≠ remotePeerId ∨
          loaded.remoteVerifyKey ≠ remoteVerifyKey ∨ loaded.localSeed ≠ localSeed then
        rolledBack describe display "paired-PC committed profile failed verification" pairs target
      else return pcPairPublicReceipt addresses primitives loaded

/-! ## Calls -/

/-- A call of the application, with what the host answers to it beside the files. -/
inductive PcPairCall where
  | provision (peer address remotePeerIdHex remoteVerifyKeyHex : String)
      (random : Except IoError (Block 32))
  | load (peer : String)
  | list (listing : Except IoError (List (Except IoError (Option String))))

inductive PcPairResult (A : Type) where
  | receipt (receipt : String)
  | profile (profile : PcPairProfile A)
  | peers (peers : List String)

def PcPairCall.program : PcPairCall → FileProg String (PcPairResult A)
  | .provision peer address remotePeerIdHex remoteVerifyKeyHex random => do
    let receipt ← provisionPcPairProfile addresses primitives describe debug display root peer
      address remotePeerIdHex remoteVerifyKeyHex random
    return .receipt receipt
  | .load peer => do
    let profile ← loadPcPairProfile addresses primitives describe debug root peer
    return .profile profile
  | .list listing => do
    let peers ← listPcPairProfiles addresses primitives describe debug root listing
    return .peers peers

end PcPairs

end NTD97
