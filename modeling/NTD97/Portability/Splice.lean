import Mathlib
import NTD97.Portability.Restore
import NTD97.Lib.Lockstep

/-!
# Portability/Splice — a restore cannot be spliced together

    any backup ──open──▸ a sealed manifest, a sealed object each time ──restore──▸ one created backup

If only what calls sealed under the key can be opened, then the manifest that a restore opens is that
of one created backup, and each object it takes in is one that a call sealed.
-/

namespace NTD97

open Guard Wire Text Effect SortedMap Lockstep

namespace Portability

/-! ## A manifest is written in one way -/

section Codecs

variable {kind : BackupKind} {backupId : Block 16} {entries assets : List ManifestAsset} {b : Bytes}

theorem putEntry_cancel {a a' : ManifestAsset} {b' rest rest' : Bytes} (h : Emits (putEntry a) b)
    (h' : Emits (putEntry a') b') (heq : b ++ rest = b' ++ rest') : a = a' ∧ rest = rest' := by
  obtain ⟨assetClass, assetId, version, logicalLen, digest⟩ := a
  obtain ⟨assetClass', assetId', version', logicalLen', digest'⟩ := a'
  simp only [putEntry, emits_bind] at h h'
  obtain ⟨b₁, h₁, _, ⟨b₂, h₂, _, ⟨b₃, h₃, _, ⟨b₄, h₄, b₅, h₅, rfl⟩, rfl⟩, rfl⟩, rfl⟩ := h
  obtain ⟨c₁, k₁, _, ⟨c₂, k₂, _, ⟨c₃, k₃, _, ⟨c₄, k₄, c₅, k₅, rfl⟩, rfl⟩, rfl⟩, rfl⟩ := h'
  simp only [List.append_assoc] at heq
  obtain ⟨rfl, heq⟩ := codec_assetClass.cancel trivial trivial h₁ k₁ heq
  obtain ⟨rfl, heq⟩ := inverse_u32.cancel trivial trivial h₂ k₂ heq
  obtain ⟨rfl, heq⟩ := inverse_string.cancel trivial trivial h₃ k₃ heq
  obtain ⟨rfl, heq⟩ := inverse_u64.cancel trivial trivial h₄ k₄ heq
  obtain ⟨rfl, heq⟩ := (inverse_block 32).cancel trivial trivial h₅ k₅ heq
  exact ⟨rfl, heq⟩

theorem putEntries_cancel : ∀ {l l' : List ManifestAsset} {b b' rest rest' : Bytes},
    l.length = l'.length → Emits (l.forM putEntry) b → Emits (l'.forM putEntry) b' →
      b ++ rest = b' ++ rest' → l = l'
  | [], [], _, _, _, _, _, _, _, _ => rfl
  | a :: l, a' :: l', b, b', rest, rest', hlen, h, h', heq => by
      obtain ⟨b₁, h₁, b₂, h₂, rfl⟩ := emits_bind.1 h
      obtain ⟨c₁, k₁, c₂, k₂, rfl⟩ := emits_bind.1 h'
      rw [List.append_assoc, List.append_assoc] at heq
      obtain ⟨rfl, heq⟩ := putEntry_cancel h₁ k₁ heq
      rw [putEntries_cancel (Nat.succ.inj hlen) h₂ k₂ heq]

/-- What is read of a written manifest is what was written. -/
theorem eq_of_decodeManifest (hencode : encodeManifest kind backupId assets = .ok b)
    (hdecode : decodeManifest b kind backupId = .ok entries) : entries = assets := by
  rw [encodeManifest, written_eq_ok] at hencode
  rw [decodeManifest, readAll_eq_ok] at hdecode
  simp only [putManifest, emits_bind, pushList, emits_lift_bind] at hencode
  obtain ⟨b₁, h₁, _, ⟨b₂, h₂, _, ⟨b₃, h₃, _, ⟨b₄, h₄, _, ⟨b₅, h₅, _, ⟨b₆, h₆, _, ⟨n, hn, b₇, h₇, b₈, h₈,
    rfl⟩, rfl⟩, rfl⟩, rfl⟩, rfl⟩, rfl⟩, rfl⟩ := hencode
  have hcount : Emits (pushCount assets.length : Encoder) b₇ := emits_lift_bind.2 ⟨n, hn, h₇⟩
  have hmagic {bs rest : Bytes} {u : Unit} := @reads_magic manifestMagic bs rest u rfl
  simp only [manifest, reads_bind, reads_refuse, hmagic,
    codec_backupKind.reads_iff, inverse_u8.reads_iff, (inverse_block _).reads_iff,
    inverse_count.reads_iff, reads_getChain reads_entry, reads_pure, true_and, not_not,
    emits_bind] at hdecode
  obtain ⟨_, _, ⟨minor, -, _, ⟨c₁, k₁, _, ⟨c₂, k₂, c₃, k₃, rfl⟩, rfl⟩, heq⟩, kind', _, ⟨c₄, k₄, rfl⟩, _, _,
    ⟨-, rfl⟩, _, _, ⟨c₅, k₅, rfl⟩, _, _, ⟨-, rfl⟩, _, _, ⟨c₆, k₆, rfl⟩, _, _, ⟨-, rfl⟩, count, _, ⟨c₇, k₇,
    rfl⟩, l, _, ⟨hlen, -, -, c₈, k₈, rfl⟩, _, _, ⟨-, rfl⟩, rfl, -⟩ := hdecode
  rw [emits_tell] at h₁ k₁
  simp only [List.append_assoc, ← h₁, ← k₁, List.append_cancel_left_eq] at heq
  obtain ⟨-, heq⟩ := inverse_u16.cancel trivial trivial h₂ k₂ heq
  obtain ⟨-, heq⟩ := inverse_u16.cancel trivial trivial h₃ k₃ heq
  obtain ⟨-, heq⟩ := codec_backupKind.cancel trivial trivial h₄ k₄ heq
  obtain ⟨-, heq⟩ := inverse_u8.cancel trivial trivial h₅ k₅ heq
  obtain ⟨-, heq⟩ := (inverse_block 16).cancel trivial trivial h₆ k₆ heq
  obtain ⟨rfl, heq⟩ := inverse_count.cancel trivial trivial hcount k₇ heq
  rw [← List.append_nil b₈] at heq
  exact (putEntries_cancel hlen.symm h₈ k₈ heq).symm

/-- What a manifest is bound to says its kind and its backup. -/
theorem manifestAad_injective {kind' : BackupKind} {backupId' : Block 16}
    (h : manifestAad kind backupId = manifestAad kind' backupId') :
    kind = kind' ∧ backupId = backupId' := by
  simp only [manifestAad, List.append_assoc, List.append_cancel_left_eq] at h
  obtain ⟨hkind, hid⟩ := List.append_inj h (by rw [length_leBytes, length_leBytes])
  have hbyte : backupKindByte kind = backupKindByte kind' :=
    UInt8.toNat_inj.1 (leBytes_inj (UInt8.toNat_lt _) (UInt8.toNat_lt _) hkind)
  refine ⟨?_, block_ext hid⟩
  cases kind <;> cases kind' <;> first | rfl | exact nomatch hbyte

/-- What an object is bound to says its digest and its length. -/
theorem objectAad_injective {digest digest' : Digest} {len len' : UInt64}
    (h : objectAad digest len = objectAad digest' len') : digest = digest' ∧ len = len' := by
  simp only [objectAad, List.append_assoc, List.append_cancel_left_eq] at h
  obtain ⟨hdigest, hlen⟩ := List.append_inj h (by rw [Block.length_eq, Block.length_eq])
  exact ⟨block_ext hdigest, UInt64.toNat_inj.1 (leBytes_inj (UInt64.toNat_lt _) (UInt64.toNat_lt _) hlen)⟩

/-- Objects and manifests are bound to different things. -/
theorem objectAad_ne_manifestAad {digest : Digest} {len : UInt64} :
    objectAad digest len ≠ manifestAad kind backupId := by
  intro h
  have hlen := congrArg List.length h
  simp only [objectAad, manifestAad, List.length_append, length_leBytes, Block.length_eq] at hlen
  exact absurd hlen (by decide +kernel)

end Codecs

/-! ## What is sealed under a key -/

section Calls

open SovereignObjectStore PortableBackupBuilder

/-- A call that may seal, on the store it finds. -/
inductive Call where
  | insert (store : SovereignObjectStore) (bytes : Bytes)
  | create (store : SovereignObjectStore) (kind : BackupKind) (backupId : Block 16)
      (manifestNonce : Block 24) (assets : List PortableAsset)

namespace Call

def before : Call → SovereignObjectStore
  | insert store _ => store
  | create store .. => store

/-- The store that a call leaves. -/
def after (aead : XChaCha) : Call → SovereignObjectStore
  | insert store bytes => (exec (SovereignObjectStore.insert aead bytes) store).2
  | create store kind backupId manifestNonce assets =>
    (exec (PortableBackupBuilder.create aead kind backupId manifestNonce assets) store).2

/-- The call sealed an object: it is in the store since then. -/
def Seals (aead : XChaCha) (call : Call) (o : EncryptedObject) : Prop :=
  (call.after aead).objects[o.digest]? = some o ∧ o.digest ∉ call.before.objects

/-- The call created a backup, of these assets. -/
def Creates (aead : XChaCha) (call : Call) (assets : List PortableAsset) (backup : PortableBackup) :
    Prop :=
  ∃ store kind backupId manifestNonce, call = create store kind backupId manifestNonce assets ∧
    (exec (PortableBackupBuilder.create aead kind backupId manifestNonce assets) store).1 = .ok backup

end Call

/-- **The ideal cipher under a key**: what can be opened is an object that a call sealed or the
manifest of a backup that a call created. -/
def Ideal (aead : XChaCha) (key : BackupKey) (calls : Set Call) : Prop :=
  ∀ nonce aad ciphertext plaintext, aead.decrypt key.bytes nonce aad ciphertext = some plaintext →
    ∃ call ∈ calls,
      (∃ o, call.Seals aead o ∧ nonce = objectNonce o.digest ∧
        aad = objectAad o.digest o.logicalLen ∧ ciphertext = o.ciphertext) ∨
      (∃ assets backup, call.Creates aead assets backup ∧ nonce = backup.manifestNonce ∧
        aad = manifestAad backup.kind backup.backupId ∧ ciphertext = backup.encryptedManifest)

variable {aead : XChaCha} {key : BackupKey} {calls : Set Call} {call : Call}
  {store store' : SovereignObjectStore} {o : EncryptedObject} {bytes : Bytes}
  {assets restored : List PortableAsset} {backup : PortableBackup}

/-- A call on a reachable store leaves a reachable store. -/
theorem reachable_after (h : Reachable aead key call.before) : Reachable aead key (call.after aead) := by
  cases call with
  | insert store bytes => exact .insert bytes h
  | create store kind backupId manifestNonce assets => exact .create kind backupId manifestNonce assets h

/-- **What can be opened as an object, a call sealed**, and its contents are in the store it left. -/
theorem sealed_of_decryptRecord (hideal : Ideal aead key calls)
    (hcalls : ∀ call ∈ calls, Reachable aead key call.before) (hkey : store.key = key)
    (h : store.decryptRecord aead o = .ok bytes) :
    ∃ call ∈ calls, call.Seals aead o ∧ (call.after aead).get aead o.digest = .ok bytes := by
  have hopen := h
  simp only [decryptRecord, bind_eq_ok, exists_unit, refuse_eq_ok, pure_eq_ok, BackupKey.openWith,
    okOr_eq_ok, hkey] at hopen
  obtain ⟨plaintext, hplain, -, rfl⟩ := hopen
  obtain ⟨call, hcall, ⟨o', hseals, -, haad, hcipher⟩ | ⟨_, _, -, -, haad, -⟩⟩ := hideal _ _ _ _ hplain
  · obtain ⟨hdigest, hlen⟩ := objectAad_injective haad
    have heq : o = o' := by
      cases o
      cases o'
      cases hdigest
      cases hlen
      cases hcipher
      rfl
    subst heq
    refine ⟨call, hcall, hseals, get_eq_ok.2 ⟨o, hseals.1, ?_⟩⟩
    rw [← h]
    exact decryptRecord_congr ((reachable_sound (reachable_after (hcalls call hcall))).2.trans hkey.symm)
  · exact absurd haad objectAad_ne_manifestAad

/-- **What can be opened as a manifest is that of a created backup** of the same kind and id. -/
theorem created_of_openWith (hideal : Ideal aead key calls) {manifest : Bytes}
    (h : key.openWith aead backup.manifestNonce (manifestAad backup.kind backup.backupId)
      backup.encryptedManifest = .ok manifest) :
    ∃ call ∈ calls, ∃ assets created, call.Creates aead assets created ∧
      created.kind = backup.kind ∧ created.backupId = backup.backupId ∧
      created.manifestNonce = backup.manifestNonce ∧
      created.encryptedManifest = backup.encryptedManifest := by
  rw [BackupKey.openWith, okOr_eq_ok] at h
  obtain ⟨call, hcall, ⟨_, -, -, haad, -⟩ | ⟨assets, created, hcreates, hnonce, haad, hcipher⟩⟩ :=
    hideal _ _ _ _ h
  · exact absurd haad.symm objectAad_ne_manifestAad
  · obtain ⟨hkind, hid⟩ := manifestAad_injective haad
    exact ⟨call, hcall, assets, created, hcreates, hkind.symm, hid.symm, hnonce.symm, hcipher.symm⟩

theorem created_of_exec {kind : BackupKind} {backupId : Block 16} {nonce : Block 24}
    (hsound : Sound aead store)
    (h : (exec (create aead kind backupId nonce assets) store).1 = .ok backup) :
    Created aead (exec (create aead kind backupId nonce assets) store).2 kind backupId nonce assets
      backup :=
  (Triple.ok_of (create_triple (lasting_grows store) assets) ⟨hsound, .refl _⟩ (Prod.ext h rfl)).2

/-- What the calls of a backup's making say about it. -/
theorem created_of_creates (hcalls : ∀ call ∈ calls, Reachable aead key call.before)
    (hcall : call ∈ calls) (h : call.Creates aead assets backup) :
    Created aead (call.after aead) backup.kind backup.backupId backup.manifestNonce assets backup := by
  obtain ⟨store, kind, backupId, manifestNonce, rfl, h⟩ := h
  have hcreated := created_of_exec (reachable_sound (hcalls _ hcall)).1 h
  have hkind := hcreated.kind
  have hid := hcreated.backupId
  have hnonce := hcreated.nonce
  subst hkind hid hnonce
  exact hcreated

/-- Every object that a restore takes in, a call sealed. -/
theorem foldlM_sealed (hideal : Ideal aead key calls)
    (hcalls : ∀ call ∈ calls, Reachable aead key call.before) :
    ∀ {objects : List EncryptedObject} {store store' : SovereignObjectStore},
      SoundWith aead (fun s => s.key = key) store →
      objects.foldlM (imported aead) store = .ok store' →
      ∀ (digest : Digest) (o : EncryptedObject), store'.objects[digest]? = some o →
        store.objects[digest]? = some o ∨ ∃ call ∈ calls, call.Seals aead o
  | [], store, store', _, hfold, digest, o, ho => by
      rw [List.foldlM_nil, pure_eq_ok] at hfold
      exact .inl (hfold ▸ ho)
  | x :: objects, store, store', hstore, hfold, digest, o, ho => by
      rw [List.foldlM_cons, bind_eq_ok] at hfold
      obtain ⟨mid, himported, hfold⟩ := hfold
      obtain ⟨hmid, hgrows⟩ := imported_sound hstore.1 himported
      rcases foldlM_sealed hideal hcalls ⟨hmid, hgrows.key.trans hstore.2⟩ hfold digest o ho with
        hold | hsealed
      · obtain ⟨bytes, hrecord, -, ⟨rfl, -⟩ | ⟨-, rfl⟩⟩ := (imported_eq_ok hstore.1).1 himported
        · exact .inl hold
        rcases getElem?_insert_eq_some.1 hold with ⟨-, rfl⟩ | ⟨-, hold⟩
        · obtain ⟨call, hcall, hseals, -⟩ := sealed_of_decryptRecord hideal hcalls hstore.2 hrecord
          exact .inr ⟨call, hcall, hseals⟩
        · exact .inl hold
      · exact .inr hsealed

/-- The asset under the name that `fromCapsule` gives it. -/
def named (a : PortableAsset) : PortableAsset := { a with assetId := trim a.assetId }

theorem named_of_made {a : PortableAsset} (h : Made a) : named a = a := by
  have hself := fromCapsule_self h
  simp only [PortableAsset.fromCapsule, bind_eq_ok, exists_unit, pure_eq_ok] at hself
  obtain ⟨-, _, -, -, hself⟩ := hself
  have hid : trim a.assetId = a.assetId := congrArg PortableAsset.assetId hself
  rw [named, hid]

/-- What is restored for an entry holds the contents found under its digest. -/
theorem restoreEntry_entryOf {a a' : PortableAsset}
    (h : restoreEntry aead store (entryOf a) = .ok a') :
    ∃ contents, store.get aead a.digest = .ok contents ∧ sha256 contents = a.digest ∧
      a' = { named a with capsule := contents } := by
  simp only [restoreEntry, bind_eq_ok, exists_unit, refuse_eq_ok, pure_eq_ok, not_not,
    PortableAsset.fromCapsule] at h
  obtain ⟨contents, hget, _, -, -, _, ⟨-, _, -, -, rfl⟩, hdigest, rfl⟩ := h
  replace hdigest : sha256 contents = a.digest := hdigest
  refine ⟨contents, hget, hdigest, ?_⟩
  rw [hdigest]
  rfl

/-- **A restore cannot be spliced.**  Whatever a backup is put together from, a restore from it fails
and leaves the store as it is, or answers the assets of one created backup of the same kind and id —
as they were, if they were made from capsules — and every object it adds is one that a call sealed. -/
theorem restore_unspliced (hideal : Ideal aead key calls)
    (hcalls : ∀ call ∈ calls, Reachable aead key call.before)
    (hagree : ∀ call ∈ calls, ∀ call' ∈ calls, Agree aead (call.after aead) (call'.after aead))
    (hstore : Reachable aead key store) :
    (∃ e, exec (restoreBackup aead backup) store = (.error e, store)) ∨
      ∃ restored store', exec (restoreBackup aead backup) store = (.ok ⟨restored⟩, store') ∧
        (∃ call ∈ calls, ∃ assets created, call.Creates aead assets created ∧
          created.kind = backup.kind ∧ created.backupId = backup.backupId ∧
          restored = ((selected backup.kind assets).mergeSort assetLe).map named ∧
          ((∀ a ∈ assets, Made a) → restored = (selected backup.kind assets).mergeSort assetLe)) ∧
        ∀ (digest : Digest) (o : EncryptedObject), store'.objects[digest]? = some o →
          store.objects[digest]? = some o ∨ ∃ call ∈ calls, call.Seals aead o := by
  rw [restoreBackup, exec_get_bind]
  cases hstaged : staged aead backup store with
  | error e => exact .inl ⟨e, by rw [exec_check_error_bind]; rfl⟩
  | ok result =>
    obtain ⟨restored, store'⟩ := result
    refine .inr ⟨restored, store', by rw [exec_check_ok_bind]; rfl, ?_⟩
    have hsound := reachable_sound hstore
    simp only [staged, bind_eq_ok, pure_eq_ok, Prod.mk.injEq] at hstaged
    obtain ⟨after, hfold, manifest, hopen, entries, hdecode, found, hassets, rfl, rfl⟩ := hstaged
    obtain ⟨hsound', hgrows⟩ := foldlM_imported hsound.1 hfold
    have hkey := hgrows.key.trans hsound.2
    refine ⟨?_, foldlM_sealed hideal hcalls hsound hfold⟩
    rw [hkey] at hopen
    obtain ⟨call, hcall, assets, created, hcreates, hkind, hid, hnonce, hcipher⟩ :=
      created_of_openWith hideal hopen
    have hcreated := created_of_creates hcalls hcall hcreates
    obtain ⟨manifest', hencode, hseal⟩ := hcreated.manifest
    -- the manifest that is opened is the one that was sealed
    have hmanifest : manifest = manifest' := by
      have hcallKey := (reachable_sound (reachable_after (hcalls call hcall))).2
      rw [BackupKey.sealWith, okOr_eq_ok, hcallKey] at hseal
      rw [BackupKey.openWith, okOr_eq_ok, ← hnonce, ← hkind, ← hid, ← hcipher,
        aead.decrypt_encrypt hseal] at hopen
      exact (Option.some.inj hopen).symm
    subst hmanifest
    rw [hkind, hid, mergeSort_map_entryOf] at hencode
    obtain rfl := eq_of_decodeManifest hencode hdecode
    have hentry : ∀ a ∈ (selected backup.kind assets).mergeSort assetLe,
        restoreEntry aead after (entryOf a) = .ok (named a) := by
      intro a ha
      obtain ⟨a', ha'⟩ := exists_of_mapM hassets _ (List.mem_map_of_mem ha)
      obtain ⟨contents, hget, hsha, rfl⟩ := restoreEntry_entryOf ha'
      obtain ⟨o, ho, hrecord⟩ := get_eq_ok.1 hget
      obtain ⟨call', hcall', -, hholds⟩ := sealed_of_decryptRecord hideal hcalls hkey hrecord
      have hsaved := hcreated.saved a (hkind ▸ List.mem_mergeSort.1 ha)
      have heq : a.capsule = contents :=
        hagree call hcall call' hcall' _ _ ⟨_, hsaved.get⟩ ⟨_, hholds⟩ (hsaved.digest.symm.trans hsha.symm)
      rw [ha', ← heq]
      rfl
    have hrestored : found = ((selected backup.kind assets).mergeSort assetLe).map named := by
      refine Except.ok.inj (hassets.symm.trans ?_)
      rw [mapM_eq_ok, List.forall₂_map_left_iff, List.forall₂_map_right_iff, List.forall₂_same]
      exact hentry
    refine ⟨call, hcall, assets, created, hcreates, hkind, hid, hrestored, fun hmade => ?_⟩
    have hnamed : ∀ a ∈ (selected backup.kind assets).mergeSort assetLe, named a = a := fun a ha =>
      named_of_made (hmade a (List.mem_of_mem_filter (List.mem_mergeSort.1 ha)))
    rw [hrestored]
    exact (List.map_congr_left hnamed).trans (List.map_id' _)

theorem Sound.agree_self (h : Sound aead store) : Agree aead store store := by
  intro x y hx hy hxy
  have hget := h.get_sha256 hx
  rw [hxy, h.get_sha256 hy] at hget
  exact (Except.ok.inj hget).symm



end Calls

/-! ## One backup, and a cipher that knows nothing else -/

section Strict

open SovereignObjectStore PortableBackupBuilder

namespace SpliceSample

open BackupSample

/-- An asset, and the manifest and the backup it is saved in. -/
def whole : PortableAsset := asset "m" 1

def manifest : Bytes := (encodeManifest .full backupId [entryOf whole]).toOption.getD []

def savedBackup : PortableBackup := ⟨backupId, .full, manifestNonce, manifest, [sealedObject 1]⟩

theorem lengths : (contents 1).length = 225 ∧
    (encodeManifest .full backupId [entryOf whole]).toOption.isSome := by
  decide +kernel

/-- The object and the manifest, each under its nonce and with its data. -/
def known : List (Block 24 × Bytes × Bytes) := [
  (objectNonce (sealedObject 1).digest,
    objectAad (sealedObject 1).digest (sealedObject 1).logicalLen, contents 1),
  (manifestNonce, manifestAad .full backupId, manifest)]

/-- A cipher that knows these two only. -/
def strict : XChaCha where
  encrypt _ nonce aad message := if (nonce, aad, message) ∈ known then some message else none
  decrypt _ nonce aad ciphertext := if (nonce, aad, ciphertext) ∈ known then some ciphertext else none
  decrypt_encrypt := by
    intro _ nonce aad message ciphertext h
    split at h
    · next hmem =>
      obtain rfl := Option.some.inj h
      rw [if_pos hmem]
    · exact nomatch h

theorem strict_decrypt {nonce : Block 24} {aad ciphertext : Bytes}
    (h : (nonce, aad, ciphertext) ∈ known) :
    strict.decrypt key.bytes nonce aad ciphertext = some ciphertext :=
  if_pos h

def creating : Call := .create (new key) .full backupId manifestNonce [whole]

theorem strict_encrypt {nonce : Block 24} {aad message : Bytes}
    (h : (nonce, aad, message) ∈ known) :
    key.sealWith strict nonce aad message = .ok message := by
  have hencrypt : strict.encrypt key.bytes nonce aad message = some message := if_pos h
  rw [BackupKey.sealWith, hencrypt]
  rfl

theorem exec_creating : exec (create strict .full backupId manifestNonce [whole]) (new key) =
    (.ok savedBackup, holding key (sealedObject 1)) := by
  obtain ⟨hlength, hsome⟩ := lengths
  have hlen : lenU64 whole.capsule.length =
      (.ok (sealedObject 1).logicalLen : Except PortabilityError UInt64) :=
    lenU64_eq_ok.2 hlength.symm
  have hmanifest : encodeManifest .full backupId [entryOf whole] = .ok manifest :=
    Guard.eq_ok_getD hsome []
  have hdigest : whole.digest = sha256 whole.capsule := by simp only [whole, asset]
  have ho : (sealedObject 1).digest = whole.digest := by simp only [sealedObject, whole, asset]
  have hobject := strict_encrypt (List.mem_cons_self ..)
  exact exec_create_one hdigest hlen ho hobject hmanifest
    (strict_encrypt (List.mem_cons_of_mem _ (List.mem_singleton_self _)))

theorem ideal_strict : Ideal strict key {creating} := by
  intro nonce aad ciphertext plaintext h
  refine ⟨creating, rfl, ?_⟩
  have hmem : (nonce, aad, ciphertext) ∈ known := by
    by_contra hmem
    have hnone : strict.decrypt key.bytes nonce aad ciphertext = none := if_neg hmem
    rw [hnone] at h
    cases h
  rw [known, List.mem_cons, List.mem_singleton] at hmem
  obtain hmem | hmem := hmem <;> cases hmem
  · refine .inl ⟨sealedObject 1, ⟨?_, ?_⟩, rfl, rfl, rfl⟩
    · rw [creating, Call.after, exec_creating]
      exact Std.ExtTreeMap.getElem?_insert_self
    · simp [creating, Call.before, SovereignObjectStore.new]
  · exact .inr ⟨[whole], savedBackup, ⟨_, _, _, _, rfl, congrArg Prod.fst exec_creating⟩, rfl, rfl, rfl⟩

end SpliceSample

open BackupSample SpliceSample in
/-- Under another kind, the manifest of a backup does not open. -/
theorem restore_relabelled : ∃ created, creating.Creates strict [whole] created ∧
    ∃ e, exec (restoreBackup strict { created with kind := .thin }) (new key) = (.error e, new key) := by
  have hknown : (manifestNonce, manifestAad .full backupId, SpliceSample.manifest) ∈ known :=
    List.mem_cons_of_mem _ (List.mem_singleton_self _)
  obtain ⟨call, hcall, ⟨_, -, -, haad, -⟩ | ⟨assets, created, hcreates, -, haad, -⟩⟩ :=
    ideal_strict _ _ _ _ (strict_decrypt hknown)
  · exact absurd haad.symm objectAad_ne_manifestAad
  obtain rfl := Set.mem_singleton_iff.1 hcall
  have hcalls : ∀ call ∈ ({creating} : Set Call), Reachable strict key call.before := by
    rintro _ rfl
    exact .new
  have hagree : ∀ call ∈ ({creating} : Set Call), ∀ call' ∈ ({creating} : Set Call),
      Agree strict (call.after strict) (call'.after strict) := by
    rintro _ rfl _ rfl
    exact (reachable_sound (reachable_after (hcalls _ rfl))).1.agree_self
  have hkind : ∀ {assets backup}, creating.Creates strict assets backup →
      assets = [whole] ∧ backup.kind = .full := by
    rintro assets backup ⟨store, kind, backupId, manifestNonce, heq, hok⟩
    cases heq
    exact ⟨rfl, (created_of_exec (reachable_sound .new).1 hok).kind⟩
  obtain ⟨rfl, hfull⟩ := hkind hcreates
  refine ⟨created, hcreates, ?_⟩
  rcases @restore_unspliced strict key {creating} (new key) { created with kind := .thin } ideal_strict
    hcalls hagree .new with herror | ⟨_, _, -, ⟨_, hcall', _, _, hcreates', hthin, -⟩, -⟩
  · exact herror
  · obtain rfl := Set.mem_singleton_iff.1 hcall'
    cases (hkind hcreates').2.symm.trans hthin

end Strict

end Portability

end NTD97
