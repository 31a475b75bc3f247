import Mathlib
import NTD97.Capsule
import NTD97.Lib.Effect
import NTD97.Lib.SortedMap
import NTD97.Lib.Text

/-!
# Portability — sovereign backups

    assets ──insert──▸ sealed objects      manifest ──seal──▸ backup ──restore──▸ assets

Contents are sealed one by one under a nonce that follows from their hash; a backup carries those
objects, unless it is thin, and a sealed manifest that lists the assets in order.
-/

namespace NTD97

open Guard Wire Text Effect SortedMap

/-- Why a backup is not made or not restored. -/
inductive PortabilityError where
  | invalidAsset
  | invalidCapsule (e : CapsuleError)
  | invalidBackup
  | cryptoFailure
  | integrityMismatch
  | missingObject (digest : Digest)
  | duplicateAsset
  | emptyBackup
  | overflow
  deriving DecidableEq

instance : WireError PortabilityError where
  truncated := .invalidBackup
  overflow := .overflow
  invalidUtf8 := .invalidBackup

/-! ## Keys

One key seals every object and the manifest; the associated data keep the two apart. -/

/-- The XChaCha20-Poly1305 of the library underneath: key, nonce, associated data, message. -/
structure XChaCha where
  encrypt : Block 32 → Block 24 → Bytes → Bytes → Option Bytes
  decrypt : Block 32 → Block 24 → Bytes → Bytes → Option Bytes
  /-- Decryption undoes encryption. -/
  decrypt_encrypt : ∀ {key nonce aad message ciphertext},
    encrypt key nonce aad message = some ciphertext →
      decrypt key nonce aad ciphertext = some message

/-- A key of 32 bytes. -/
structure BackupKey where
  bytes : Block 32
  deriving DecidableEq

namespace BackupKey

/-- Sealing under the backup's key. -/
def sealWith (aead : XChaCha) (self : BackupKey) (nonce : Block 24) (aad plaintext : Bytes) :
    Except PortabilityError Bytes :=
  okOr (aead.encrypt self.bytes nonce aad plaintext) .cryptoFailure

/-- Opening what was sealed under the same nonce and associated data. -/
def openWith (aead : XChaCha) (self : BackupKey) (nonce : Block 24) (aad ciphertext : Bytes) :
    Except PortabilityError Bytes :=
  okOr (aead.decrypt self.bytes nonce aad ciphertext) .cryptoFailure

end BackupKey

/-- The nonce of an object follows from its hash, so equal contents are sealed alike. -/
def objectNonce (digest : Digest) : Block 24 :=
  ⟨(sha256 (utf8 "NTD97-PSI-OBJECT-NONCE-v1" ++ digest.bytes)).bytes.take 24, by
    rw [List.length_take, Block.length_eq]
    rfl⟩

/-- An object is bound to its hash and its length. -/
def objectAad (digest : Digest) (logicalLen : UInt64) : Bytes :=
  utf8 "NTD97-PSI-OBJECT-v1" ++ digest.bytes ++ leBytes 8 logicalLen.toNat

/-! ## Digests in order

Objects stand in a backup in the order of their digests, which is that of the numbers they spell. -/

namespace Portability

/-- The number with these digits, the first one leading: arrays compare as their numbers do. -/
def bigEndian {n : ℕ} (b : Block n) : ℕ := ofLe b.bytes.reverse

/-- Two digests of one number are equal. -/
theorem bigEndian_injective {n : ℕ} : Function.Injective (bigEndian (n := n)) := by
  rintro ⟨b, hb⟩ ⟨b', hb'⟩ h
  have hbytes : b.reverse = b'.reverse := by
    rw [← leBytes_ofLe b.reverse, ← leBytes_ofLe b'.reverse, List.length_reverse,
      List.length_reverse, hb, hb', show ofLe b.reverse = ofLe b'.reverse from h]
  obtain rfl := List.reverse_injective hbytes
  rfl

instance : LinearOrder Digest := LinearOrder.lift' bigEndian bigEndian_injective

instance : Std.LawfulEqOrd Digest := ⟨fun h => compare_eq_iff_eq.1 h⟩

instance : Std.TransOrd Digest := inferInstance

end Portability

/-! ## Assets

An asset is a capsule under a class, an id and a version. -/

/-- What a capsule is kept for. -/
inductive AssetClass where
  | model
  | capability
  | memory
  | state
  deriving DecidableEq

/-- An asset with its hash. -/
structure PortableAsset where
  assetClass : AssetClass
  assetId : String
  version : UInt32
  capsule : Bytes
  digest : Digest
  deriving DecidableEq

/-- Assets and manifest entries are told apart, and put in order, by class, id and version. -/
abbrev Identity := ℕ ×ₗ String ×ₗ ℕ

namespace Portability

/-- The byte of a class, which also puts the classes in order. -/
def classByte : AssetClass → UInt8
  | .model => 1
  | .capability => 2
  | .memory => 3
  | .state => 4

/-- The class of a byte. -/
def classOf : UInt8 → Except PortabilityError AssetClass
  | 1 => .ok .model
  | 2 => .ok .capability
  | 3 => .ok .memory
  | 4 => .ok .state
  | _ => .error .invalidAsset

/-- What tells assets apart. -/
def identity (assetClass : AssetClass) (assetId : String) (version : UInt32) : Identity :=
  toLex ((classByte assetClass).toNat, toLex (assetId, version.toNat))

/-- The kinds of capsule that may hold assets of a class. -/
def Carries : AssetClass → CapsuleKind → Prop
  | .model, kind | .capability, kind => kind = .full ∨ kind = .thin
  | .memory, kind | .state, kind => kind = .state

instance : (assetClass : AssetClass) → (kind : CapsuleKind) → Decidable (Carries assetClass kind)
  | .model, _ => inferInstanceAs (Decidable (_ ∨ _))
  | .capability, _ => inferInstanceAs (Decidable (_ ∨ _))
  | .memory, _ => inferInstanceAs (Decidable (_ = _))
  | .state, _ => inferInstanceAs (Decidable (_ = _))

end Portability

open Portability

namespace PortableAsset

/-- The identity of an asset. -/
def identity (self : PortableAsset) : Identity :=
  Portability.identity self.assetClass self.assetId self.version

/-- `from_capsule`: the id is trimmed, and the capsule must be of a kind that fits the class. -/
def fromCapsule (assetClass : AssetClass) (assetId : String) (version : UInt32) (capsule : Bytes) :
    Except PortabilityError PortableAsset := do
  let assetId := trim assetId
  refuse (assetId = "" ∨ version = 0 ∨ capsule = []) .invalidAsset
  let view ← (CapsuleView.read capsule).mapError .invalidCapsule
  refuse (¬ Carries assetClass view.kind) .invalidAsset
  return { assetClass, assetId, version, digest := sha256 capsule, capsule }

/-- Whether a state backup takes the asset. -/
def isStateful (self : PortableAsset) : Bool :=
  self.assetClass = .memory ∨ self.assetClass = .state

end PortableAsset

/-- The assets of a backup that was restored. -/
structure RestoredSet where
  assets : List PortableAsset
  deriving DecidableEq

/-! ## The object store

Contents by their hash, sealed; whoever looks one up checks the hash again. -/

/-- Sealed contents under their hash and length. -/
structure EncryptedObject where
  digest : Digest
  logicalLen : UInt64
  ciphertext : Bytes
  deriving DecidableEq

/-- A store and its key. -/
structure SovereignObjectStore where
  key : BackupKey
  objects : BTreeMap Digest EncryptedObject

namespace SovereignObjectStore

/-- A call on a store. -/
abbrev Act := Eff SovereignObjectStore PortabilityError

/-- An empty store. -/
def new (key : BackupKey) : SovereignObjectStore where
  key := key
  objects := ∅

/-- Contents that are those of the hash they stand under. -/
def decryptRecord (aead : XChaCha) (self : SovereignObjectStore) (object : EncryptedObject) :
    Except PortabilityError Bytes := do
  let plaintext ← self.key.openWith aead (objectNonce object.digest)
    (objectAad object.digest object.logicalLen) object.ciphertext
  refuse (sha256 plaintext ≠ object.digest) .integrityMismatch
  return plaintext

/-- The contents of a hash. -/
def get (aead : XChaCha) (self : SovereignObjectStore) (digest : Digest) :
    Except PortabilityError Bytes := do
  let object ← okOr self.objects[digest]? (.missingObject digest)
  self.decryptRecord aead object

/-- The sealed contents of a hash. -/
def record (self : SovereignObjectStore) (digest : Digest) : Except PortabilityError EncryptedObject :=
  okOr self.objects[digest]? (.missingObject digest)

/-- The store with one more object, and the digest of its contents. -/
def inserted (aead : XChaCha) (self : SovereignObjectStore) (bytes : Bytes) :
    Except PortabilityError (Digest × SovereignObjectStore) := do
  let digest := sha256 bytes
  let logicalLen ← lenU64 bytes.length
  if digest ∈ self.objects then do
    let restored ← self.get aead digest
    refuse (restored ≠ bytes) .integrityMismatch
    return (digest, self)
  else do
    let ciphertext ← self.key.sealWith aead (objectNonce digest) (objectAad digest logicalLen) bytes
    return (digest, { self with
      objects := self.objects.insert digest { digest, logicalLen, ciphertext } })

/-- The store with an object from elsewhere. -/
def imported (aead : XChaCha) (self : SovereignObjectStore) (object : EncryptedObject) :
    Except PortabilityError SovereignObjectStore := do
  let plaintext ← self.decryptRecord aead object
  refuse (sha256 plaintext ≠ object.digest) .integrityMismatch
  let logicalLen ← lenU64 plaintext.length
  refuse (logicalLen ≠ object.logicalLen) .integrityMismatch
  match self.objects[object.digest]? with
  | some existing => do
    let existingPlaintext ← self.decryptRecord aead existing
    refuse (existingPlaintext ≠ plaintext) .integrityMismatch
    return self
  | none => return { self with objects := self.objects.insert object.digest object }

/-- `insert`: contents that are known already are compared, not sealed again. -/
def insert (aead : XChaCha) (bytes : Bytes) : Act Digest := do
  let self ← MonadState.get
  let (digest, store) ← check id (self.inserted aead bytes)
  modify fun _ => store
  return digest

/-- `import`: an object sealed elsewhere under the same key. -/
def «import» (aead : XChaCha) (object : EncryptedObject) : Act Unit := do
  let self ← MonadState.get
  let store ← check id (self.imported aead object)
  modify fun _ => store

end SovereignObjectStore

/-! ## Backups

A backup is made from a list of assets and a store, and restored into a store. -/

/-- With all objects, without them, or of memory and state only. -/
inductive BackupKind where
  | full
  | thin
  | state
  deriving DecidableEq

/-- A backup as it stands in a file. -/
structure PortableBackup where
  backupId : Block 16
  kind : BackupKind
  manifestNonce : Block 24
  encryptedManifest : Bytes
  objects : List EncryptedObject
  deriving DecidableEq

/-- What the manifest says of an asset. -/
structure ManifestAsset where
  assetClass : AssetClass
  assetId : String
  version : UInt32
  logicalLen : UInt64
  digest : Digest
  deriving DecidableEq

/-- The identity of the asset it stands for. -/
def ManifestAsset.identity (self : ManifestAsset) : Identity :=
  Portability.identity self.assetClass self.assetId self.version

namespace Portability

/-- Writing a part of a backup. -/
abbrev Encoder := Put PortabilityError Unit

/-- Reading a part of a backup. -/
abbrev Decoder := Get PortabilityError

/-- The letters `PSB97` and a zero byte. -/
def backupMagic : Bytes := [80, 83, 66, 57, 55, 0]
/-- The letters `PSM97` and a zero byte. -/
def manifestMagic : Bytes := [80, 83, 77, 57, 55, 0]
/-- The version `0.1` of both. -/
def backupMajor : UInt16 := 0
def backupMinor : UInt16 := 1

/-- The byte of a kind. -/
def backupKindByte : BackupKind → UInt8
  | .full => 1
  | .thin => 2
  | .state => 3

/-- The kind of a byte. -/
def backupKindOf : UInt8 → Except PortabilityError BackupKind
  | 1 => .ok .full
  | 2 => .ok .thin
  | 3 => .ok .state
  | _ => .error .invalidBackup

/-- A magic and a version that can be read. -/
def magic (expected : Bytes) : Decoder Unit := do
  let found ← take 6
  refuse (found ≠ expected) .invalidBackup
  let major ← u16
  refuse (major ≠ backupMajor) .invalidBackup
  let minor ← u16
  refuse (backupMinor < minor) .invalidBackup

/-- A byte that names a kind. -/
def backupKind : Decoder BackupKind := do
  let raw ← u8
  backupKindOf raw

/-- A byte that names a class. -/
def assetClass : Decoder AssetClass := do
  let raw ← u8
  classOf raw

/-- A sealed object, its length in front. -/
def putObject (object : EncryptedObject) : Encoder := do
  tell object.digest.bytes
  pushU64 object.logicalLen
  pushUsize object.ciphertext.length
  tell object.ciphertext

/-- The objects after the one with the digest `previous`. -/
def object (previous : Option Digest) : Decoder EncryptedObject := do
  let digest ← block 32
  refuse (∃ value ∈ previous, digest ≤ value) .invalidBackup
  let logicalLen ← u64
  let cipherLen ← usize
  let ciphertext ← take cipherLen
  return { digest, logicalLen, ciphertext }

/-- Read `n` elements one after the other, each given the key of the one before it. -/
def getChain {α κ : Type} (get : Option κ → Decoder α) (key : α → κ) :
    ℕ → Option κ → Decoder (List α)
  | 0, _ => return []
  | n + 1, previous => do
    let a ← get previous
    let l ← getChain get key n (some (key a))
    return a :: l

/-- The file: a fixed part, the sealed manifest, the objects. -/
def putBackup (backup : PortableBackup) : Encoder := do
  tell backupMagic
  pushU16 backupMajor
  pushU16 backupMinor
  pushU8 (backupKindByte backup.kind)
  pushU8 0
  tell backup.backupId.bytes
  tell backup.manifestNonce.bytes
  pushUsize backup.encryptedManifest.length
  pushCount backup.objects.length
  tell backup.encryptedManifest
  backup.objects.forM putObject

/-- The objects must come with increasing digests, so none comes twice. -/
def backup : Decoder PortableBackup := do
  magic backupMagic
  let kind ← backupKind
  let reserved ← u8
  refuse (reserved ≠ 0) .invalidBackup
  let backupId ← block 16
  let manifestNonce ← block 24
  let manifestLen ← usize
  let objectCount ← count
  let encryptedManifest ← take manifestLen
  let objects ← getChain object EncryptedObject.digest objectCount none
  refuse (encryptedManifest = []) .invalidBackup
  return { backupId, kind, manifestNonce, encryptedManifest, objects }

end Portability

namespace PortableBackup

/-- A backup without a manifest is none. -/
def encode (self : PortableBackup) : Except PortabilityError Bytes := do
  refuse (self.encryptedManifest = []) .invalidBackup
  written (putBackup self)

/-- All bytes are used up. -/
def decode (bytes : Bytes) : Except PortabilityError PortableBackup :=
  readAll backup .invalidBackup bytes

end PortableBackup

namespace Portability

/-- An entry of the manifest. -/
def putEntry (asset : ManifestAsset) : Encoder := do
  pushU8 (classByte asset.assetClass)
  pushU32 asset.version
  pushString asset.assetId
  pushU64 asset.logicalLen
  tell asset.digest.bytes

/-- The entry after the one of the identity `previous`. -/
def entry (previous : Option Identity) : Decoder ManifestAsset := do
  let assetClass ← assetClass
  let version ← u32
  let assetId ← string
  refuse (version = 0 ∨ isBlank assetId) .invalidBackup
  refuse (∃ value ∈ previous, identity assetClass assetId version ≤ value) .invalidBackup
  let logicalLen ← u64
  let digest ← block 32
  return { assetClass, assetId, version, logicalLen, digest }

/-- The manifest repeats the kind and the id of the backup it belongs to. -/
def putManifest (kind : BackupKind) (backupId : Block 16) (assets : List ManifestAsset) :
    Encoder := do
  tell manifestMagic
  pushU16 backupMajor
  pushU16 backupMinor
  pushU8 (backupKindByte kind)
  pushU8 0
  tell backupId.bytes
  pushList putEntry assets

/-- The bytes that are sealed. -/
def encodeManifest (kind : BackupKind) (backupId : Block 16) (assets : List ManifestAsset) :
    Except PortabilityError Bytes :=
  written (putManifest kind backupId assets)

/-- A manifest of this backup, which lists an asset at least. -/
def manifest (expectedKind : BackupKind) (expectedId : Block 16) : Decoder (List ManifestAsset) := do
  magic manifestMagic
  let kind ← backupKind
  refuse (kind ≠ expectedKind) .invalidBackup
  let reserved ← u8
  refuse (reserved ≠ 0) .invalidBackup
  let backupId ← block 16
  refuse (backupId ≠ expectedId) .invalidBackup
  let count ← count
  let assets ← getChain entry ManifestAsset.identity count none
  refuse (assets = []) .invalidBackup
  return assets

/-- All bytes are used up. -/
def decodeManifest (bytes : Bytes) (expectedKind : BackupKind) (expectedId : Block 16) :
    Except PortabilityError (List ManifestAsset) :=
  readAll (manifest expectedKind expectedId) .invalidBackup bytes

/-- The manifest is bound to the kind and the id of its backup. -/
def manifestAad (kind : BackupKind) (backupId : Block 16) : Bytes :=
  utf8 "NTD97-PSI-MANIFEST-v1" ++ leBytes 1 (backupKindByte kind).toNat ++ backupId.bytes

end Portability

namespace PortableBackupBuilder

open SovereignObjectStore

/-- The assets a backup of a kind is about. -/
def selected (kind : BackupKind) (assets : List PortableAsset) : List PortableAsset :=
  assets.filter fun asset => kind ≠ .state ∨ asset.isStateful

/-- The entries of assets, after those of the identities `seen`; their contents are inserted. -/
def gather (aead : XChaCha) : List Identity → List PortableAsset → Act (List ManifestAsset)
  | _, [] => return []
  | seen, asset :: assets => do
    refuse (asset.identity ∈ seen) .duplicateAsset
    let digest ← insert aead asset.capsule
    refuse (digest ≠ asset.digest) .integrityMismatch
    let logicalLen ← check id (lenU64 (ε := PortabilityError) asset.capsule.length)
    let entries ← gather aead (asset.identity :: seen) assets
    return {
      assetClass := asset.assetClass
      assetId := asset.assetId
      version := asset.version
      logicalLen, digest } :: entries

/-- The order of a manifest. -/
def entryLe (a b : ManifestAsset) : Bool := a.identity ≤ b.identity

/-- `create`: the objects of a backup that is not thin stand in it once each, in order. -/
def create (aead : XChaCha) (kind : BackupKind) (backupId : Block 16) (manifestNonce : Block 24)
    (assets : List PortableAsset) : Act PortableBackup := do
  refuse (selected kind assets = []) .emptyBackup
  let entries ← gather aead [] (selected kind assets)
  let manifestAssets := entries.mergeSort entryLe
  let manifest ← check id (encodeManifest kind backupId manifestAssets)
  let store ← MonadState.get
  let encryptedManifest ← check id (store.key.sealWith aead manifestNonce (manifestAad kind backupId)
    manifest)
  let objects ← check id (if kind = .thin then pure []
    else (sortDedup (manifestAssets.map ManifestAsset.digest)).mapM store.record)
  return { backupId, kind, manifestNonce, encryptedManifest, objects }

end PortableBackupBuilder

namespace Portability

open SovereignObjectStore

/-- An entry whose contents are in the store, and are what it says. -/
def restoreEntry (aead : XChaCha) (staged : SovereignObjectStore) (entry : ManifestAsset) :
    Except PortabilityError PortableAsset := do
  let capsule ← staged.get aead entry.digest
  let logicalLen ← lenU64 capsule.length
  refuse (logicalLen ≠ entry.logicalLen) .integrityMismatch
  let asset ← PortableAsset.fromCapsule entry.assetClass entry.assetId entry.version capsule
  refuse (asset.digest ≠ entry.digest) .integrityMismatch
  return asset

/-- The assets of a backup, and the store with its objects. -/
def staged (aead : XChaCha) (backup : PortableBackup) (store : SovereignObjectStore) :
    Except PortabilityError (List PortableAsset × SovereignObjectStore) := do
  let staged ← backup.objects.foldlM (imported aead) store
  let manifest ← staged.key.openWith aead backup.manifestNonce
    (manifestAad backup.kind backup.backupId) backup.encryptedManifest
  let entries ← decodeManifest manifest backup.kind backup.backupId
  let assets ← entries.mapM (restoreEntry aead staged)
  return (assets, staged)

end Portability

/-- `restore`: the store changes only when every asset was restored. -/
def restoreBackup (aead : XChaCha) (backup : PortableBackup) : SovereignObjectStore.Act RestoredSet :=
  do
    let store ← MonadState.get
    let (assets, staged) ← check id (Portability.staged aead backup store)
    modify fun _ => staged
    return { assets }

end NTD97
