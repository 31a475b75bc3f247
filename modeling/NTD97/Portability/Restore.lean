import Mathlib
import NTD97.Capsule.Canonical
import NTD97.Portability

/-!
# Portability/Restore — a backup restores what was saved

    source ──create──▸ backup ──encode──▸ bytes ──decode──▸ backup ──restore──▸ assets, in order

Every store that is reached holds, under each digest, contents with that digest (`Sound`); so what a
restore finds under a digest is what was saved, unless two contents collide.
-/

namespace NTD97

open Guard Wire Text Effect SortedMap

namespace Portability

/-! ## Reading the layouts back -/

section Codecs

variable {α κ : Type} [LinearOrder κ] {key : α → κ} {P : α → Prop} {put : α → Encoder}
  {get : Option κ → Decoder α}

/-- Each element's key comes after the one before it, the first one's after `previous`. -/
def Rising (key : α → κ) : Option κ → List α → Prop
  | _, [] => True
  | previous, a :: l => (∀ k ∈ previous, k < key a) ∧ Rising key (some (key a)) l

theorem rising_of_pairwise : ∀ {l : List α} {previous : Option κ},
    (l.map key).Pairwise (· < ·) → (∀ k ∈ previous, ∀ a ∈ l, k < key a) → Rising key previous l
  | [], _, _, _ => trivial
  | a :: l, previous, h, hprevious => by
      rw [List.map_cons, List.pairwise_cons] at h
      refine ⟨fun k hk => hprevious k hk a (.head _), rising_of_pairwise h.2 ?_⟩
      rintro k hk a' ha'
      obtain rfl := Option.some.inj hk
      exact h.1 _ (List.mem_map_of_mem ha')

/-- **A chain is read back**: the elements of a layout with rising keys. -/
theorem reads_getChain (h : ∀ {previous bs a rest}, Reads (get previous) bs a rest ↔
      (P a ∧ ∀ k ∈ previous, k < key a) ∧ ∃ b, Emits (put a) b ∧ bs = b ++ rest) :
    ∀ {n : ℕ} {previous : Option κ} {bs : Bytes} {l : List α} {rest : Bytes},
      Reads (getChain get key n previous) bs l rest ↔
        l.length = n ∧ (∀ a ∈ l, P a) ∧ Rising key previous l ∧
          ∃ b, Emits (l.forM put) b ∧ bs = b ++ rest
  | 0, previous, bs, l, rest => by
      rw [getChain, reads_pure]
      constructor
      · rintro ⟨rfl, rfl⟩
        exact ⟨rfl, fun _ h => (nomatch h), trivial, [], emits_pure.2 rfl, rfl⟩
      · rintro ⟨hlen, -, -, b, hb, rfl⟩
        obtain rfl := List.length_eq_zero_iff.1 hlen
        rw [emits_pure.1 hb]
        exact ⟨rfl, rfl⟩
  | n + 1, previous, bs, l, rest => by
      simp only [getChain, reads_bind, h, reads_getChain h, reads_pure]
      constructor
      · rintro ⟨a, _, ⟨⟨ha, hprevious⟩, b, hb, rfl⟩, l, _, ⟨rfl, hl, hrising, b', hb', rfl⟩, rfl, rfl⟩
        exact ⟨rfl, List.forall_mem_cons.2 ⟨ha, hl⟩, ⟨hprevious, hrising⟩, b ++ b',
          emits_bind.2 ⟨b, hb, b', hb', rfl⟩, (List.append_assoc ..).symm⟩
      · rintro ⟨hlen, hl, hrising, b, hb, rfl⟩
        cases l with
        | nil => exact nomatch hlen
        | cons a l =>
          obtain ⟨ha, hl⟩ := List.forall_mem_cons.1 hl
          obtain ⟨b₁, hb₁, b₂, hb₂, rfl⟩ := emits_bind.1 hb
          rw [List.append_assoc]
          exact ⟨a, _, ⟨⟨ha, hrising.1⟩, b₁, hb₁, rfl⟩, l, _, ⟨Nat.succ.inj hlen, hl, hrising.2, b₂, hb₂,
            rfl⟩, rfl, rfl⟩

/-- An object of a backup is read back, if the digests rise. -/
theorem reads_object {previous : Option Digest} {bs rest : Bytes} {o : EncryptedObject} :
    Reads (object previous) bs o rest ↔ (True ∧ ∀ k ∈ previous, k < o.digest) ∧
      ∃ b, Emits (putObject o) b ∧ bs = b ++ rest := by
  obtain ⟨digest, logicalLen, ciphertext⟩ := o
  simp only [object, reads_bind, reads_refuse, (inverse_block 32).reads_iff, inverse_u64.reads_iff,
    inverse_usize.reads_iff, (inverse_take _).reads_iff, reads_pure, true_and, not_exists, not_and,
    not_le, EncryptedObject.mk.injEq]
  constructor
  · rintro ⟨_, _, ⟨b₁, h₁, rfl⟩, _, _, ⟨hrising, rfl⟩, _, _, ⟨b₂, h₂, rfl⟩, _, _, ⟨b₃, h₃, rfl⟩,
      _, _, ⟨rfl, b₄, h₄, rfl⟩, ⟨rfl, rfl, rfl⟩, rfl⟩
    refine ⟨hrising, b₁ ++ (b₂ ++ (b₃ ++ b₄)), ?_, by simp only [List.append_assoc]⟩
    exact emits_bind.2 ⟨b₁, h₁, _, emits_bind.2 ⟨b₂, h₂, _, emits_bind.2 ⟨b₃, h₃, b₄, h₄, rfl⟩,
      rfl⟩, rfl⟩
  · rintro ⟨hrising, _, hb, rfl⟩
    simp only [putObject, emits_bind] at hb
    obtain ⟨b₁, h₁, _, ⟨b₂, h₂, _, ⟨b₃, h₃, b₄, h₄, rfl⟩, rfl⟩, rfl⟩ := hb
    simp only [List.append_assoc]
    exact ⟨_, _, ⟨b₁, h₁, rfl⟩, (), _, ⟨hrising, rfl⟩, _, _, ⟨b₂, h₂, rfl⟩, _, _, ⟨b₃, h₃, rfl⟩,
      _, _, ⟨rfl, b₄, h₄, rfl⟩, ⟨rfl, rfl, rfl⟩, rfl⟩

theorem codec_backupKind : Codec (fun k => (pushU8 (backupKindByte k) : Encoder)) backupKind := by
  refine inverse_coded fun byte k => ?_
  constructor
  · intro h
    unfold backupKindOf at h
    split at h <;> cases h <;> rfl
  · rintro rfl
    cases k <;> rfl

theorem codec_assetClass : Codec (fun c => (pushU8 (classByte c) : Encoder)) assetClass := by
  refine inverse_coded fun byte c => ?_
  constructor
  · intro h
    unfold classOf at h
    split at h <;> cases h <;> rfl
  · rintro rfl
    cases c <;> rfl

theorem reads_magic {expected bs rest : Bytes} {u : Unit} (hlen : expected.length = 6) :
    Reads (magic expected) bs u rest ↔ ∃ minor, ¬ backupMinor < minor ∧ ∃ b,
      Emits (do tell expected; pushU16 backupMajor; pushU16 minor : Encoder) b ∧ bs = b ++ rest := by
  simp only [magic, reads_bind, reads_refuse, (inverse_take 6).reads_iff, inverse_u16.reads_iff,
    true_and, not_not]
  constructor
  · rintro ⟨_, _, ⟨-, b₁, h₁, rfl⟩, _, _, ⟨rfl, rfl⟩, _, _, ⟨b₂, h₂, rfl⟩, _, _, ⟨rfl, rfl⟩, minor, _,
      ⟨b₃, h₃, rfl⟩, hminor, rfl⟩
    exact ⟨minor, hminor, b₁ ++ (b₂ ++ b₃), emits_bind.2 ⟨b₁, h₁, _, emits_bind.2 ⟨b₂, h₂, b₃, h₃,
      rfl⟩, rfl⟩, by simp only [List.append_assoc]⟩
  · rintro ⟨minor, hminor, _, hb, rfl⟩
    obtain ⟨b₁, h₁, _, hversion, rfl⟩ := emits_bind.1 hb
    obtain ⟨b₂, h₂, b₃, h₃, rfl⟩ := emits_bind.1 hversion
    simp only [List.append_assoc]
    exact ⟨expected, _, ⟨hlen, b₁, h₁, rfl⟩, (), _, ⟨rfl, rfl⟩, _, _, ⟨b₂, h₂, rfl⟩, (), _, ⟨rfl, rfl⟩,
      minor, _, ⟨b₃, h₃, rfl⟩, hminor, rfl⟩

/-- **A written backup is read back**, if its objects are in order. -/
theorem decode_of_encode {backup : PortableBackup} {b : Bytes}
    (horder : (backup.objects.map EncryptedObject.digest).Pairwise (· < ·))
    (h : backup.encode = .ok b) : PortableBackup.decode b = .ok backup := by
  simp only [PortableBackup.encode, bind_eq_ok, exists_unit, refuse_eq_ok, written_eq_ok] at h
  obtain ⟨hmanifest, hb⟩ := h
  rw [PortableBackup.decode, readAll_eq_ok]
  obtain ⟨backupId, kind, manifestNonce, encryptedManifest, objects⟩ := backup
  simp only [putBackup, emits_bind] at hb
  obtain ⟨b₁, h₁, _, ⟨b₂, h₂, _, ⟨b₃, h₃, _, ⟨b₄, h₄, _, ⟨b₅, h₅, _, ⟨b₆, h₆, _, ⟨b₇, h₇, _,
    ⟨b₈, h₈, _, ⟨b₉, h₉, _, ⟨b₁₀, h₁₀, b₁₁, h₁₁, rfl⟩, rfl⟩, rfl⟩, rfl⟩, rfl⟩, rfl⟩, rfl⟩, rfl⟩,
    rfl⟩, rfl⟩ := hb
  have hmagic : Reads (magic backupMagic) (b₁ ++ (b₂ ++ (b₃ ++ (b₄ ++ (b₅ ++ (b₆ ++ (b₇ ++ (b₈ ++
      (b₉ ++ (b₁₀ ++ b₁₁)))))))))) () (b₄ ++ (b₅ ++ (b₆ ++ (b₇ ++ (b₈ ++ (b₉ ++ (b₁₀ ++ b₁₁))))))) :=
    (reads_magic rfl).2 ⟨backupMinor, UInt16.lt_irrefl _, b₁ ++ (b₂ ++ b₃), emits_bind.2 ⟨b₁, h₁, _,
      emits_bind.2 ⟨b₂, h₂, b₃, h₃, rfl⟩, rfl⟩, by simp only [List.append_assoc]⟩
  refine reads_bind.2 ⟨(), _, hmagic, ?_⟩
  simp only [reads_bind, reads_refuse, codec_backupKind.reads_iff, inverse_u8.reads_iff,
    (inverse_block _).reads_iff, inverse_usize.reads_iff, inverse_count.reads_iff,
    (inverse_take _).reads_iff, reads_getChain reads_object, reads_pure, true_and, not_not]
  exact ⟨kind, _, ⟨b₄, h₄, rfl⟩, _, _, ⟨b₅, h₅, rfl⟩, (), _, ⟨rfl, rfl⟩, backupId, _, ⟨b₆, h₆, rfl⟩,
    manifestNonce, _, ⟨b₇, h₇, rfl⟩, _, _, ⟨b₈, h₈, rfl⟩, _, _, ⟨b₉, h₉, rfl⟩, encryptedManifest, _,
    ⟨rfl, b₁₀, h₁₀, rfl⟩, objects, [], ⟨rfl, fun _ _ => trivial,
      rising_of_pairwise horder (fun _ h => by cases h), b₁₁, h₁₁, (List.append_nil _).symm⟩,
    (), [], ⟨hmanifest, rfl⟩, rfl, rfl⟩

/-- An entry that a manifest may list. -/
def Listable (asset : ManifestAsset) : Prop := ¬ (asset.version = 0 ∨ isBlank asset.assetId)

/-- An entry of a manifest is read back, if the identities rise. -/
theorem reads_entry {previous : Option Identity} {bs rest : Bytes} {a : ManifestAsset} :
    Reads (entry previous) bs a rest ↔ (Listable a ∧ ∀ k ∈ previous, k < a.identity) ∧
      ∃ b, Emits (putEntry a) b ∧ bs = b ++ rest := by
  obtain ⟨assetClass, assetId, version, logicalLen, digest⟩ := a
  simp only [entry, reads_bind, reads_refuse, codec_assetClass.reads_iff, inverse_u32.reads_iff,
    inverse_string.reads_iff, inverse_u64.reads_iff, (inverse_block 32).reads_iff, reads_pure,
    true_and, not_exists, not_and, not_le, ManifestAsset.mk.injEq]
  constructor
  · rintro ⟨_, _, ⟨b₁, h₁, rfl⟩, _, _, ⟨b₂, h₂, rfl⟩, _, _, ⟨b₃, h₃, rfl⟩, _, _, ⟨hlistable, rfl⟩, _, _,
      ⟨hrising, rfl⟩, _, _, ⟨b₄, h₄, rfl⟩, _, _, ⟨b₅, h₅, rfl⟩, ⟨rfl, rfl, rfl, rfl, rfl⟩, rfl⟩
    refine ⟨⟨hlistable, hrising⟩, b₁ ++ (b₂ ++ (b₃ ++ (b₄ ++ b₅))), ?_, by
      simp only [List.append_assoc]⟩
    exact emits_bind.2 ⟨b₁, h₁, _, emits_bind.2 ⟨b₂, h₂, _, emits_bind.2 ⟨b₃, h₃, _, emits_bind.2 ⟨b₄,
      h₄, b₅, h₅, rfl⟩, rfl⟩, rfl⟩, rfl⟩
  · rintro ⟨⟨hlistable, hrising⟩, _, hb, rfl⟩
    simp only [putEntry, emits_bind] at hb
    obtain ⟨b₁, h₁, _, ⟨b₂, h₂, _, ⟨b₃, h₃, _, ⟨b₄, h₄, b₅, h₅, rfl⟩, rfl⟩, rfl⟩, rfl⟩ := hb
    simp only [List.append_assoc]
    exact ⟨_, _, ⟨b₁, h₁, rfl⟩, _, _, ⟨b₂, h₂, rfl⟩, _, _, ⟨b₃, h₃, rfl⟩, (), _, ⟨hlistable, rfl⟩, (),
      _, ⟨hrising, rfl⟩, _, _, ⟨b₄, h₄, rfl⟩, _, _, ⟨b₅, h₅, rfl⟩, ⟨rfl, rfl, rfl, rfl, rfl⟩, rfl⟩

/-- **A written manifest is read back**, if its entries are listable and in order. -/
theorem decodeManifest_of_encode {kind : BackupKind} {backupId : Block 16}
    {assets : List ManifestAsset} {b : Bytes} (hne : assets ≠ []) (hlistable : ∀ a ∈ assets, Listable a)
    (horder : (assets.map ManifestAsset.identity).Pairwise (· < ·))
    (h : encodeManifest kind backupId assets = .ok b) : decodeManifest b kind backupId = .ok assets := by
  rw [encodeManifest, written_eq_ok] at h
  rw [decodeManifest, readAll_eq_ok]
  simp only [putManifest, emits_bind, pushList, emits_lift_bind] at h
  obtain ⟨b₁, h₁, _, ⟨b₂, h₂, _, ⟨b₃, h₃, _, ⟨b₄, h₄, _, ⟨b₅, h₅, _, ⟨b₆, h₆, _, ⟨n, hn, b₇, h₇, b₈, h₈,
    rfl⟩, rfl⟩, rfl⟩, rfl⟩, rfl⟩, rfl⟩, rfl⟩ := h
  have hmagic : Reads (magic manifestMagic) (b₁ ++ (b₂ ++ (b₃ ++ (b₄ ++ (b₅ ++ (b₆ ++ (b₇ ++ b₈)))))))
      () (b₄ ++ (b₅ ++ (b₆ ++ (b₇ ++ b₈)))) :=
    (reads_magic rfl).2 ⟨backupMinor, UInt16.lt_irrefl _, b₁ ++ (b₂ ++ b₃), emits_bind.2 ⟨b₁, h₁, _,
      emits_bind.2 ⟨b₂, h₂, b₃, h₃, rfl⟩, rfl⟩, by simp only [List.append_assoc]⟩
  refine reads_bind.2 ⟨(), _, hmagic, ?_⟩
  have hcount : Emits (pushCount assets.length : Encoder) b₇ := emits_lift_bind.2 ⟨n, hn, h₇⟩
  simp only [reads_bind, reads_refuse, codec_backupKind.reads_iff, inverse_u8.reads_iff,
    (inverse_block _).reads_iff, inverse_count.reads_iff, reads_getChain reads_entry, reads_pure,
    true_and, not_not]
  exact ⟨kind, _, ⟨b₄, h₄, rfl⟩, (), _, ⟨rfl, rfl⟩, _, _, ⟨b₅, h₅, rfl⟩, (), _, ⟨rfl, rfl⟩, backupId, _,
    ⟨b₆, h₆, rfl⟩, (), _, ⟨rfl, rfl⟩, _, _, ⟨b₇, hcount, rfl⟩, assets, [], ⟨rfl, hlistable,
      rising_of_pairwise horder (fun _ h => by cases h), b₈, h₈, (List.append_nil _).symm⟩, (), [],
    ⟨hne, rfl⟩, rfl, rfl⟩

end Codecs

/-! ## Sound stores -/

section Stores

open SovereignObjectStore

variable {aead : XChaCha} {store store' : SovereignObjectStore} {digest : Digest} {bytes : Bytes}
  {o : EncryptedObject}

/-- **A store in order**: each object stands under its digest, and holds contents of that digest and
of its length. -/
def Sound (aead : XChaCha) (store : SovereignObjectStore) : Prop :=
  ∀ (digest : Digest) (o : EncryptedObject), store.objects[digest]? = some o → o.digest = digest ∧
    ∃ bytes, store.decryptRecord aead o = .ok bytes ∧ o.logicalLen.toNat = bytes.length

/-- The contents of a store. -/
def Holds (aead : XChaCha) (store : SovereignObjectStore) (bytes : Bytes) : Prop :=
  ∃ digest, store.get aead digest = .ok bytes

/-- **What every call keeps**: the key, and every object that there was. -/
structure Grows (store store' : SovereignObjectStore) : Prop where
  key : store'.key = store.key
  kept : ∀ (digest : Digest) (o : EncryptedObject), store.objects[digest]? = some o →
    store'.objects[digest]? = some o

/-- A store has grown from itself. -/
theorem Grows.refl (store : SovereignObjectStore) : Grows store store := ⟨rfl, fun _ _ h => h⟩

/-- Growth adds up. -/
theorem Grows.trans {store'' : SovereignObjectStore} (h : Grows store store')
    (h' : Grows store' store'') : Grows store store'' :=
  ⟨h'.key.trans h.key, fun d o ho => h'.kept d o (h.kept d o ho)⟩

theorem decryptRecord_congr (hkey : store'.key = store.key) :
    store'.decryptRecord aead o = store.decryptRecord aead o := by
  rw [decryptRecord, decryptRecord, hkey]

/-- What a store gives is what is sealed there. -/
theorem get_eq_ok : store.get aead digest = .ok bytes ↔
    ∃ o, store.objects[digest]? = some o ∧ store.decryptRecord aead o = .ok bytes := by
  simp only [SovereignObjectStore.get, bind_eq_ok, okOr_eq_ok]

/-- What a record holds has its digest. -/
theorem sha256_of_decryptRecord (h : store.decryptRecord aead o = .ok bytes) :
    sha256 bytes = o.digest := by
  simp only [decryptRecord, bind_eq_ok, exists_unit, refuse_eq_ok, pure_eq_ok, not_not] at h
  obtain ⟨_, -, hdigest, rfl⟩ := h
  exact hdigest

/-- What a store gave, it gives after it has grown. -/
theorem Grows.get (h : Grows store store') (hget : store.get aead digest = .ok bytes) :
    store'.get aead digest = .ok bytes := by
  obtain ⟨o, ho, hrecord⟩ := get_eq_ok.1 hget
  exact get_eq_ok.2 ⟨o, h.kept _ _ ho, (decryptRecord_congr h.key).trans hrecord⟩

/-- What a store gives under a digest has the digest. -/
theorem Sound.sha256_of_get (h : Sound aead store) (hget : store.get aead digest = .ok bytes) :
    sha256 bytes = digest := by
  obtain ⟨o, ho, hrecord⟩ := get_eq_ok.1 hget
  exact (sha256_of_decryptRecord hrecord).trans (h _ _ ho).1

/-- A sound store with one more sound object. -/
theorem Sound.insert (h : Sound aead store) (hrecord : store.decryptRecord aead o = .ok bytes)
    (hlen : o.logicalLen.toNat = bytes.length) :
    Sound aead { store with objects := store.objects.insert o.digest o } := by
  intro d x hx
  rcases getElem?_insert_eq_some.1 hx with ⟨rfl, rfl⟩ | ⟨-, hx⟩
  · exact ⟨rfl, bytes, (decryptRecord_congr rfl).trans hrecord, hlen⟩
  · obtain ⟨hdigest, contents, hcontents, hlength⟩ := h d x hx
    exact ⟨hdigest, contents, (decryptRecord_congr rfl).trans hcontents, hlength⟩

/-- A store grows by an object that is new. -/
theorem grows_insert (hfresh : o.digest ∉ store.objects) :
    Grows store { store with objects := store.objects.insert o.digest o } := by
  refine ⟨rfl, fun d x hx => getElem?_insert_eq_some.2 (.inr ⟨?_, hx⟩)⟩
  rintro rfl
  exact hfresh (Std.ExtTreeMap.mem_iff_isSome_getElem?.2 (hx ▸ rfl))

/-- Contents are inserted soundly, and given back from then on. -/
theorem inserted_sound (h : Sound aead store)
    (hinserted : store.inserted aead bytes = .ok (digest, store')) :
    Sound aead store' ∧ Grows store store' ∧ digest = sha256 bytes ∧
      store'.get aead digest = .ok bytes ∧ bytes.length < 2 ^ 64 := by
  simp only [inserted, bind_eq_ok, lenU64_eq_ok] at hinserted
  obtain ⟨len, hlen, hinserted⟩ := hinserted
  have hlt : bytes.length < 2 ^ 64 := hlen ▸ len.toNat_lt
  split at hinserted
  · simp only [bind_eq_ok, exists_unit, refuse_eq_ok, pure_eq_ok, not_not, Prod.mk.injEq] at hinserted
    obtain ⟨_, hget, rfl, rfl, rfl⟩ := hinserted
    exact ⟨h, .refl _, rfl, hget, hlt⟩
  · next hfresh =>
    simp only [bind_eq_ok, pure_eq_ok, Prod.mk.injEq] at hinserted
    obtain ⟨ciphertext, hcipher, rfl, rfl⟩ := hinserted
    have hrecord : store.decryptRecord aead ⟨sha256 bytes, len, ciphertext⟩ = .ok bytes := by
      rw [BackupKey.sealWith, okOr_eq_ok] at hcipher
      rw [decryptRecord, BackupKey.openWith, aead.decrypt_encrypt hcipher]
      simp [okOr, refuse]
    have hgrows := @grows_insert store ⟨sha256 bytes, len, ciphertext⟩ hfresh
    refine ⟨h.insert hrecord hlen, hgrows, rfl, get_eq_ok.2 ⟨_,
      Std.ExtTreeMap.getElem?_insert_self, (decryptRecord_congr rfl).trans hrecord⟩, hlt⟩

/-- When a sealed object is imported, and what it adds. -/
theorem imported_eq_ok (h : Sound aead store) : store.imported aead o = .ok store' ↔
    ∃ bytes, store.decryptRecord aead o = .ok bytes ∧ o.logicalLen.toNat = bytes.length ∧
      ((store' = store ∧ ∃ existing, store.objects[o.digest]? = some existing ∧
          store.decryptRecord aead existing = .ok bytes) ∨
        (o.digest ∉ store.objects ∧
          store' = { store with objects := store.objects.insert o.digest o })) := by
  simp only [imported, bind_eq_ok, exists_unit, refuse_eq_ok, not_not, lenU64_eq_ok]
  refine exists_congr fun bytes => and_congr_right fun hrecord => ?_
  have hsha := sha256_of_decryptRecord hrecord
  have hmem : o.digest ∉ store.objects ↔ store.objects[o.digest]? = none := by
    rw [Std.ExtTreeMap.mem_iff_isSome_getElem?, Option.not_isSome_iff_eq_none]
  rw [hmem]
  constructor
  · rintro ⟨-, len, hlen, rfl, hstore⟩
    refine ⟨hlen, ?_⟩
    cases hfound : store.objects[o.digest]? with
    | none =>
      rw [hfound] at hstore
      exact .inr ⟨rfl, (pure_eq_ok.1 hstore).symm⟩
    | some existing =>
      rw [hfound] at hstore
      simp only [bind_eq_ok, exists_unit, refuse_eq_ok, pure_eq_ok, not_not] at hstore
      obtain ⟨_, hexisting, rfl, rfl⟩ := hstore
      exact .inl ⟨rfl, existing, rfl, hexisting⟩
  · rintro ⟨hlen, ⟨rfl, existing, hfound, hexisting⟩ | ⟨hfound, rfl⟩⟩
    · refine ⟨hsha, o.logicalLen, hlen, rfl, ?_⟩
      rw [hfound]
      simp only [bind_eq_ok, exists_unit, refuse_eq_ok, pure_eq_ok, not_not, and_true]
      exact ⟨bytes, hexisting, rfl⟩
    · refine ⟨hsha, o.logicalLen, hlen, rfl, ?_⟩
      rw [hfound]
      rfl

/-- An import is sound, and only adds. -/
theorem imported_sound (h : Sound aead store) (himported : store.imported aead o = .ok store') :
    Sound aead store' ∧ Grows store store' := by
  obtain ⟨bytes, hrecord, hlen, ⟨rfl, -⟩ | ⟨hfresh, rfl⟩⟩ := (imported_eq_ok h).1 himported
  · exact ⟨h, .refl _⟩
  · exact ⟨h.insert hrecord hlen, grows_insert hfresh⟩

end Stores

/-! ## What the calls keep -/

section Calls

open SovereignObjectStore PortableBackupBuilder

variable {aead : XChaCha} {kind : BackupKind} {backupId : Block 16} {nonce : Block 24}
  {I : SovereignObjectStore → Prop}

/-- A fact about a store that lasts while the store grows. -/
def Lasting (I : SovereignObjectStore → Prop) : Prop := ∀ s t, I s → Grows s t → I t

theorem lasting_grows (store : SovereignObjectStore) : Lasting (Grows store) :=
  fun _ _ h h' => h.trans h'

/-- Two things that last, last together. -/
theorem Lasting.and {J : SovereignObjectStore → Prop} (hI : Lasting I) (hJ : Lasting J) :
    Lasting fun s => I s ∧ J s :=
  fun s t h h' => ⟨hI s t h.1 h', hJ s t h.2 h'⟩

/-- A store in order of which a fact is known. -/
def SoundWith (aead : XChaCha) (I : SovereignObjectStore → Prop) (store : SovereignObjectStore) :
    Prop :=
  Sound aead store ∧ I store

/-- An insert keeps what lasts, whether or not it goes through. -/
theorem insert_triple (hI : Lasting I) (bytes : Bytes) : Triple (SoundWith aead I) (insert aead bytes)
    (fun digest s => SoundWith aead I s ∧ digest = sha256 bytes ∧ s.get aead digest = .ok bytes ∧
      bytes.length < 2 ^ 64) fun _ => SoundWith aead I := by
  refine Triple.read_bind fun s hs => Triple.check_bind ?_ fun _ _ t ht => ht ▸ hs
  rintro ⟨digest, store⟩ hinserted
  obtain ⟨hsound, hgrows, hdigest, hget, hlen⟩ := inserted_sound hs.1 hinserted
  exact Triple.write_bind (J := (· = store)) (Triple.ret fun t ht => ht ▸ ⟨⟨hsound,
    hI _ _ hs.2 hgrows⟩, hdigest, hget, hlen⟩) fun _ _ => rfl

/-- So does an import. -/
theorem import_triple (hI : Lasting I) (o : EncryptedObject) : Triple (SoundWith aead I)
    («import» aead o) (fun _ => SoundWith aead I) fun _ => SoundWith aead I := by
  refine Triple.read_bind fun s hs => Triple.check_bind ?_ fun _ _ t ht => ht ▸ hs
  intro store himported
  obtain ⟨hsound, hgrows⟩ := imported_sound hs.1 himported
  exact Triple.write fun t ht => ⟨hsound, hI _ _ hs.2 hgrows⟩

/-- The store holds an asset under its digest. -/
structure Saved (aead : XChaCha) (store : SovereignObjectStore) (a : PortableAsset) : Prop where
  digest : a.digest = sha256 a.capsule
  get : store.get aead a.digest = .ok a.capsule
  length : a.capsule.length < 2 ^ 64

theorem lasting_saved (aead : XChaCha) (a : PortableAsset) : Lasting fun s => Saved aead s a :=
  fun _ _ h hgrows => ⟨h.digest, hgrows.get h.get, h.length⟩

/-- The entry of a manifest for an asset. -/
def entryOf (a : PortableAsset) : ManifestAsset where
  assetClass := a.assetClass
  assetId := a.assetId
  version := a.version
  logicalLen := UInt64.ofNat a.capsule.length
  digest := a.digest

/-- What gathering the entries of assets says about them. -/
structure Gathered (aead : XChaCha) (seen : List Identity) (assets : List PortableAsset)
    (entries : List ManifestAsset) (store : SovereignObjectStore) : Prop where
  entries : entries = assets.map entryOf
  fresh : ∀ a ∈ assets, a.identity ∉ seen
  nodup : (assets.map PortableAsset.identity).Nodup
  saved : ∀ a ∈ assets, Saved aead store a

/-- **Gathering** saves every asset, and keeps what lasts. -/
theorem gather_triple : ∀ {assets : List PortableAsset} {seen : List Identity}
    {I : SovereignObjectStore → Prop}, Lasting I → Triple (SoundWith aead I) (gather aead seen assets)
      (fun entries s => SoundWith aead I s ∧ Gathered aead seen assets entries s)
      fun _ => SoundWith aead I
  | [], seen, I, _ => Triple.ret fun s hs => ⟨hs, rfl, fun _ h => (nomatch h), .nil,
      fun _ h => nomatch h⟩
  | a :: assets, seen, I, hI => by
      refine Triple.refuse_bind (fun hfresh => ?_) fun _ _ hs => hs
      refine (insert_triple hI a.capsule).bind fun digest => ?_
      refine Triple.refuse_bind (fun hdigest => ?_) fun _ _ hs => hs.1
      obtain rfl : digest = a.digest := by simpa using hdigest
      refine Triple.check_bind (fun len hlen => ?_) fun _ _ _ hs => hs.1
      rw [lenU64_eq_ok] at hlen
      -- from here on the store holds this asset too
      refine Triple.bind ((gather_triple (hI.and (lasting_saved aead a))).conseq ?_ (fun _ _ h => h)
        fun _ _ h => ⟨h.1, h.2.1⟩) fun entries => Triple.ret ?_
      · exact fun s hs => ⟨hs.1.1, hs.1.2, hs.2.1, hs.2.2.1, hs.2.2.2⟩
      rintro s ⟨⟨hsound, hI, hsaved⟩, hentries, hrest, hnodup, hall⟩
      have hlen' : len = UInt64.ofNat a.capsule.length := by rw [← hlen, UInt64.ofNat_toNat]
      refine ⟨⟨hsound, hI⟩, by rw [hentries, hlen']; rfl, List.forall_mem_cons.2 ⟨hfresh, fun x hx hmem =>
        hrest x hx (.tail _ hmem)⟩, List.nodup_cons.2 ⟨fun hmem => ?_, hnodup⟩,
        List.forall_mem_cons.2 ⟨hsaved, hall⟩⟩
      obtain ⟨x, hx, hxa⟩ := List.mem_map.1 hmem
      exact hrest x hx (hxa ▸ .head _)

/-- **What a created backup is**, given the store that its making left. -/
structure Created (aead : XChaCha) (store : SovereignObjectStore) (kind : BackupKind)
    (backupId : Block 16) (nonce : Block 24) (assets : List PortableAsset) (backup : PortableBackup) :
    Prop where
  nonempty : selected kind assets ≠ []
  nodup : ((selected kind assets).map PortableAsset.identity).Nodup
  saved : ∀ a ∈ selected kind assets, Saved aead store a
  manifest : ∃ manifest,
    encodeManifest kind backupId (((selected kind assets).map entryOf).mergeSort entryLe) =
      .ok manifest ∧
    store.key.sealWith aead nonce (manifestAad kind backupId) manifest = .ok backup.encryptedManifest
  objects : (if kind = .thin then pure [] else (sortDedup ((((selected kind assets).map
    entryOf).mergeSort entryLe).map ManifestAsset.digest)).mapM store.record) = .ok backup.objects
  backupId : backup.backupId = backupId
  kind : backup.kind = kind
  nonce : backup.manifestNonce = nonce

/-- **Creating a backup** saves every asset, and keeps what lasts. -/
theorem create_triple (hI : Lasting I) (assets : List PortableAsset) :
    Triple (SoundWith aead I) (create aead kind backupId nonce assets)
      (fun backup s => SoundWith aead I s ∧ Created aead s kind backupId nonce assets backup)
      fun _ => SoundWith aead I := by
  refine Triple.refuse_bind (fun hnonempty => ?_) fun _ _ hs => hs
  refine (gather_triple hI).bind fun entries => ?_
  refine Triple.check_bind (fun manifest hmanifest => ?_) fun _ _ _ hs => hs.1
  refine Triple.read_bind fun s ⟨hs, hentries, _, hnodup, hsaved⟩ => ?_
  subst hentries
  refine Triple.check_bind (fun sealed hsealed => ?_) fun _ _ t ht => ht ▸ hs
  refine Triple.check_bind (fun objects hobjects => ?_) fun _ _ t ht => ht ▸ hs
  exact Triple.ret fun t ht => ht ▸ ⟨hs, hnonempty, hnodup, hsaved, ⟨manifest, hmanifest, hsealed⟩,
    hobjects, rfl, rfl, rfl⟩

/-- Imports one after the other are sound, and only add. -/
theorem foldlM_imported : ∀ {objects : List EncryptedObject} {store store' : SovereignObjectStore},
    Sound aead store → objects.foldlM (imported aead) store = .ok store' →
      Sound aead store' ∧ Grows store store'
  | [], store, store', h, hfold => by
      rw [List.foldlM_nil, pure_eq_ok] at hfold
      exact hfold ▸ ⟨h, .refl _⟩
  | o :: objects, store, store', h, hfold => by
      rw [List.foldlM_cons, bind_eq_ok] at hfold
      obtain ⟨mid, himported, hfold⟩ := hfold
      obtain ⟨hmid, hgrows⟩ := imported_sound h himported
      obtain ⟨hsound, hrest⟩ := foldlM_imported hmid hfold
      exact ⟨hsound, hgrows.trans hrest⟩

/-- **A restore** keeps what lasts, whether or not it goes through. -/
theorem restoreBackup_triple (hI : Lasting I) (backup : PortableBackup) : Triple (SoundWith aead I)
    (restoreBackup aead backup) (fun _ => SoundWith aead I) fun _ => SoundWith aead I := by
  refine Triple.read_bind fun s hs => Triple.check_bind ?_ fun _ _ t ht => ht ▸ hs
  rintro ⟨assets, store⟩ hstaged
  simp only [staged, bind_eq_ok, pure_eq_ok, Prod.mk.injEq] at hstaged
  obtain ⟨_, hfold, _, -, _, -, _, -, -, rfl⟩ := hstaged
  obtain ⟨hsound, hgrows⟩ := foldlM_imported hs.1 hfold
  exact Triple.write_bind (J := (· = _)) (Triple.ret fun t ht => ht ▸ ⟨hsound, hI _ _ hs.2 hgrows⟩)
    fun _ _ => rfl

/-- **The stores under a key that calls can reach**, whether they succeed or not. -/
inductive Reachable (aead : XChaCha) (key : BackupKey) : SovereignObjectStore → Prop
  | new : Reachable aead key (new key)
  | insert {store} (bytes : Bytes) : Reachable aead key store →
      Reachable aead key (exec (insert aead bytes) store).2
  | «import» {store} (o : EncryptedObject) : Reachable aead key store →
      Reachable aead key (exec («import» aead o) store).2
  | create {store} (kind : BackupKind) (backupId : Block 16) (nonce : Block 24)
      (assets : List PortableAsset) : Reachable aead key store →
      Reachable aead key (exec (create aead kind backupId nonce assets) store).2
  | restore {store} (backup : PortableBackup) : Reachable aead key store →
      Reachable aead key (exec (restoreBackup aead backup) store).2

/-- **Every reachable store is in order.** -/
theorem reachable_sound {key : BackupKey} {store : SovereignObjectStore}
    (h : Reachable aead key store) : SoundWith aead (fun s => s.key = key) store := by
  have hI : Lasting fun s => s.key = key := fun _ _ h hgrows => hgrows.key.trans h
  induction h with
  | new => exact ⟨fun d o ho => by simp [SovereignObjectStore.new] at ho, rfl⟩
  | insert bytes _ ih =>
    exact ((insert_triple hI bytes).conseq (fun _ h => h) (fun _ _ h => h.1) fun _ _ h => h).final ih
  | «import» o _ ih => exact (import_triple hI o).final ih
  | create kind backupId nonce assets _ ih =>
    exact ((create_triple hI assets).conseq (fun _ h => h) (fun _ _ h => h.1) fun _ _ h => h).final ih
  | restore backup _ ih => exact (restoreBackup_triple hI backup).final ih

end Calls

/-! ## Restoring -/

section Restoring

open SovereignObjectStore PortableBackupBuilder

variable {aead : XChaCha} {source store store' : SovereignObjectStore} {o : EncryptedObject}
  {a : PortableAsset} {assets : List PortableAsset} {kind : BackupKind} {backupId : Block 16}
  {nonce : Block 24} {backup : PortableBackup}

/-- No contents of one store collide with contents of the other. -/
def Agree (aead : XChaCha) (source store : SovereignObjectStore) : Prop :=
  ∀ x y : Bytes, Holds aead source x → Holds aead store y → sha256 x = sha256 y → x = y

theorem Sound.get_sha256 (h : Sound aead store) {bytes : Bytes} (hholds : Holds aead store bytes) :
    store.get aead (sha256 bytes) = .ok bytes := by
  obtain ⟨digest, hget⟩ := hholds
  rw [h.sha256_of_get hget]
  exact hget

/-- **A store takes the objects of another one** under the same key, if their contents agree. -/
theorem imported_of_agree (hsource : Sound aead source) (hstore : Sound aead store)
    (hkey : source.key = store.key) (hagree : Agree aead source store)
    (ho : source.objects[o.digest]? = some o) : ∃ store', store.imported aead o = .ok store' ∧
      Sound aead store' ∧ Grows store store' ∧ Agree aead source store' ∧ o.digest ∈ store'.objects := by
  obtain ⟨-, bytes, hrecord, hlen⟩ := hsource _ _ ho
  have hget : source.get aead o.digest = .ok bytes := get_eq_ok.2 ⟨o, ho, hrecord⟩
  have hsha := sha256_of_decryptRecord hrecord
  rw [decryptRecord_congr hkey] at hrecord
  cases hfound : store.objects[o.digest]? with
  | some existing =>
    obtain ⟨hdigest, contents, hcontents, -⟩ := hstore _ _ hfound
    have heq : bytes = contents := by
      refine hagree _ _ ⟨_, hget⟩ ⟨_, get_eq_ok.2 ⟨existing, hfound, hcontents⟩⟩ ?_
      rw [hsha, sha256_of_decryptRecord hcontents, hdigest]
    exact ⟨store, (imported_eq_ok hstore).2 ⟨bytes, hrecord, hlen, .inl ⟨rfl, existing, hfound,
      heq ▸ hcontents⟩⟩, hstore, .refl _, hagree,
      Std.ExtTreeMap.mem_iff_isSome_getElem?.2 (hfound ▸ rfl)⟩
  | none =>
    have hfresh : o.digest ∉ store.objects := by
      rw [Std.ExtTreeMap.mem_iff_isSome_getElem?, hfound]
      exact Bool.false_ne_true
    have himported := (imported_eq_ok hstore).2 ⟨bytes, hrecord, hlen, .inr ⟨hfresh, rfl⟩⟩
    obtain ⟨hsound, hgrows⟩ := imported_sound hstore himported
    refine ⟨_, himported, hsound, hgrows, ?_, Std.ExtTreeMap.mem_insert_self⟩
    rintro x y hx ⟨digest, hyget⟩ hxy
    obtain ⟨found, hfound, hy⟩ := get_eq_ok.1 hyget
    rw [decryptRecord_congr hgrows.key] at hy
    rcases getElem?_insert_eq_some.1 hfound with ⟨-, rfl⟩ | ⟨-, hold⟩
    · obtain rfl : bytes = y := Except.ok.inj (hrecord.symm.trans hy)
      have hxget := hsource.get_sha256 hx
      rw [hxy, hsha] at hxget
      exact Except.ok.inj (hxget.symm.trans hget)
    · exact hagree x y hx ⟨digest, get_eq_ok.2 ⟨found, hold, hy⟩⟩ hxy

/-- Objects of an agreeing store are all imported. -/
theorem foldlM_of_agree (hsource : Sound aead source) : ∀ {objects : List EncryptedObject}
    {store : SovereignObjectStore}, Sound aead store → source.key = store.key →
      Agree aead source store → (∀ o ∈ objects, source.objects[o.digest]? = some o) →
      ∃ store', objects.foldlM (imported aead) store = .ok store' ∧ Sound aead store' ∧
        Grows store store' ∧ Agree aead source store' ∧ ∀ o ∈ objects, o.digest ∈ store'.objects
  | [], store, hstore, _, hagree, _ => ⟨store, rfl, hstore, .refl _, hagree, fun _ h => nomatch h⟩
  | o :: objects, store, hstore, hkey, hagree, hall => by
      obtain ⟨ho, hobjects⟩ := List.forall_mem_cons.1 hall
      obtain ⟨mid, himported, hmid, hgrows, hagree, hmem⟩ :=
        imported_of_agree hsource hstore hkey hagree ho
      obtain ⟨store', hfold, hstore', hrest, hagree, hmems⟩ :=
        foldlM_of_agree hsource hmid (hkey.trans hgrows.key.symm) hagree hobjects
      refine ⟨store', ?_, hstore', hgrows.trans hrest, hagree, List.forall_mem_cons.2 ⟨?_, hmems⟩⟩
      · rw [List.foldlM_cons, himported]
        exact hfold
      · rw [Std.ExtTreeMap.mem_iff_isSome_getElem?, Option.isSome_iff_exists] at hmem ⊢
        exact hmem.imp fun x hx => hrest.kept _ _ hx

/-- The order of the assets of a restored set. -/
def assetLe (a b : PortableAsset) : Bool := a.identity ≤ b.identity

/-- The asset was made from its capsule. -/
def Made (a : PortableAsset) : Prop :=
  ∃ assetId, PortableAsset.fromCapsule a.assetClass assetId a.version a.capsule = .ok a

/-- An asset is made from its own fields. -/
theorem fromCapsule_self (h : Made a) :
    PortableAsset.fromCapsule a.assetClass a.assetId a.version a.capsule = .ok a := by
  obtain ⟨assetId, h⟩ := h
  have htrim : trim a.assetId = trim assetId := by
    simp only [PortableAsset.fromCapsule, bind_eq_ok, exists_unit, refuse_eq_ok, pure_eq_ok] at h
    obtain ⟨-, _, -, -, h⟩ := h
    rw [← h, trim_trim]
  rw [← h, PortableAsset.fromCapsule, PortableAsset.fromCapsule, htrim]

theorem listable_entryOf (h : Made a) : Listable (entryOf a) := by
  have h := fromCapsule_self h
  simp only [PortableAsset.fromCapsule, bind_eq_ok, exists_unit, refuse_eq_ok, not_or] at h
  obtain ⟨⟨hid, hversion, -⟩, -⟩ := h
  rintro (hzero | hblank)
  · exact hversion hzero
  · exact hid (String.isEmpty_iff.1 hblank)

/-- An asset that is saved is restored. -/
theorem restoreEntry_of_saved (hmade : Made a) (hsaved : Saved aead store a) :
    restoreEntry aead store (entryOf a) = .ok a := by
  simp only [restoreEntry, bind_eq_ok, exists_unit, refuse_eq_ok, pure_eq_ok, not_not, lenU64_eq_ok]
  exact ⟨a.capsule, hsaved.get, _, UInt64.toNat_ofNat_of_lt' hsaved.length, rfl, a,
    fromCapsule_self hmade, rfl, rfl⟩

theorem mergeSort_map_entryOf (l : List PortableAsset) :
    (l.map entryOf).mergeSort entryLe = (l.mergeSort assetLe).map entryOf :=
  (List.map_mergeSort (f := entryOf) (r := assetLe) (s := entryLe) fun _ _ _ _ => rfl).symm

/-- Assets that differ in their identities are put in strict order. -/
theorem pairwise_identity {l : List PortableAsset} (h : (l.map PortableAsset.identity).Nodup) :
    ((l.mergeSort assetLe).map PortableAsset.identity).Pairwise (· < ·) := by
  have hle : (l.mergeSort assetLe).Pairwise fun a b => assetLe a b = true := by
    refine List.pairwise_mergeSort (fun a b c hab hbc => ?_) (fun a b => ?_) l
    · exact decide_eq_true ((of_decide_eq_true hab).trans (of_decide_eq_true hbc))
    · rw [Bool.or_eq_true]
      exact (le_total a.identity b.identity).imp decide_eq_true decide_eq_true
  have hne : (l.mergeSort assetLe).Pairwise fun a b => a.identity ≠ b.identity :=
    List.pairwise_map.1 (((List.mergeSort_perm l assetLe).map _).nodup_iff.2 h)
  exact List.pairwise_map.2 ((hle.and hne).imp fun h => (of_decide_eq_true h.1).lt_of_ne h.2)

/-- The manifest of a created backup is read back. -/
theorem Created.decodeManifest (h : Created aead store kind backupId nonce assets backup)
    (hmade : ∀ a ∈ assets, Made a) : ∃ manifest,
      store.key.openWith aead backup.manifestNonce (manifestAad backup.kind backup.backupId)
        backup.encryptedManifest = .ok manifest ∧
      Portability.decodeManifest manifest backup.kind backup.backupId =
        .ok (((selected kind assets).mergeSort assetLe).map entryOf) := by
  obtain ⟨manifest, hencode, hseal⟩ := h.manifest
  rw [h.nonce, h.kind, h.backupId]
  rw [mergeSort_map_entryOf] at hencode
  rw [BackupKey.sealWith, okOr_eq_ok] at hseal
  refine ⟨manifest, ?_, decodeManifest_of_encode ?_ ?_ ?_ hencode⟩
  · rw [BackupKey.openWith, aead.decrypt_encrypt hseal]
    rfl
  · intro hnil
    have hlen := (List.mergeSort_perm (selected kind assets) assetLe).length_eq
    rw [List.map_eq_nil_iff.1 hnil] at hlen
    exact h.nonempty (List.length_eq_zero_iff.1 hlen.symm)
  · intro e he
    obtain ⟨a, ha, rfl⟩ := List.mem_map.1 he
    exact listable_entryOf (hmade a (List.mem_of_mem_filter (List.mem_mergeSort.1 ha)))
  · rw [List.map_map]
    exact pairwise_identity h.nodup

/-- The objects of a created backup are those of the store, each digest once. -/
theorem Created.objects_spec (hstore : Sound aead store)
    (h : Created aead store kind backupId nonce assets backup) :
    (∀ o ∈ backup.objects, store.objects[o.digest]? = some o) ∧
      (backup.objects.map EncryptedObject.digest).Pairwise (· < ·) ∧
      (kind ≠ .thin → ∀ a ∈ selected kind assets,
        a.digest ∈ backup.objects.map EncryptedObject.digest) := by
  have hobjects := h.objects
  split at hobjects
  · next hthin =>
    rw [← pure_eq_ok.1 hobjects]
    exact ⟨fun _ h => (nomatch h), .nil, fun hne => absurd hthin hne⟩
  · rw [mapM_eq_ok] at hobjects
    have hrecord : ∀ {d o}, store.record d = .ok o → store.objects[d]? = some o ∧ d = o.digest := by
      intro d o h
      rw [record, okOr_eq_ok] at h
      exact ⟨h, (hstore _ _ h).1.symm⟩
    have hmap : sortDedup ((((selected kind assets).map entryOf).mergeSort entryLe).map
        ManifestAsset.digest) = backup.objects.map EncryptedObject.digest := by
      rw [← List.forall₂_eq_eq_eq, List.forall₂_map_right_iff]
      exact hobjects.imp fun _ _ h => (hrecord h).2
    rw [hmap, List.forall₂_map_left_iff, List.forall₂_same] at hobjects
    rw [← hmap]
    refine ⟨fun o ho => (hrecord (hobjects o ho)).1, sortedLT_sortDedup _, fun _ a ha => ?_⟩
    · rw [mem_sortDedup, mergeSort_map_entryOf, List.map_map]
      exact List.mem_map.2 ⟨a, List.mem_mergeSort.2 ha, rfl⟩

/-- **What a restore does**, once the objects are in and the manifest is read. -/
theorem exec_restoreBackup {dest dest' : SovereignObjectStore} {manifest : Bytes}
    {entries : List ManifestAsset} (hfold : backup.objects.foldlM (imported aead) dest = .ok dest')
    (hopen : dest'.key.openWith aead backup.manifestNonce (manifestAad backup.kind backup.backupId)
      backup.encryptedManifest = .ok manifest)
    (hdecode : Portability.decodeManifest manifest backup.kind backup.backupId = .ok entries)
    (hassets : entries.mapM (restoreEntry aead dest') = .ok assets) :
    exec (restoreBackup aead backup) dest = (.ok ⟨assets⟩, dest') := by
  have hstaged : staged aead backup dest = .ok (assets, dest') := by
    simp only [staged, bind_eq_ok, pure_eq_ok]
    exact ⟨_, hfold, _, hopen, _, hdecode, _, hassets, rfl⟩
  rw [restoreBackup, exec_get_bind, hstaged]
  rfl

/-- **A backup restores exactly what was saved.**  What `create` made and `encode` wrote is decoded
as it was, and any store under the same key restores the selected assets from it, in order, and keeps
all its objects. -/
theorem backup_restores {key : BackupKey} {source' dest : SovereignObjectStore} {b : Bytes}
    (hmade : ∀ a ∈ assets, Made a) (hsource : Reachable aead key source)
    (hdest : Reachable aead key dest)
    (hcreate : exec (create aead kind backupId nonce assets) source = (.ok backup, source'))
    (hencode : backup.encode = .ok b)
    (hthin : kind = .thin → ∀ a ∈ selected kind assets, a.digest ∈ dest.objects)
    (hagree : Agree aead source' dest) :
    PortableBackup.decode b = .ok backup ∧ ∃ dest', exec (restoreBackup aead backup) dest =
        (.ok ⟨(selected kind assets).mergeSort assetLe⟩, dest') ∧
      ∀ (digest : Digest) (o : EncryptedObject), dest.objects[digest]? = some o →
        dest'.objects[digest]? = some o := by
  have hlasting : Lasting fun s => s.key = key := fun _ _ h hgrows => hgrows.key.trans h
  obtain ⟨⟨hsound, hkey⟩, hcreated⟩ :=
    (create_triple hlasting assets).ok_of (reachable_sound hsource) hcreate
  obtain ⟨hdestSound, hdestKey⟩ := reachable_sound hdest
  obtain ⟨hobjects, horder, hcomplete⟩ := hcreated.objects_spec hsound
  refine ⟨decode_of_encode horder hencode, ?_⟩
  obtain ⟨dest', hfold, hsound', hgrows, hagree, hmem⟩ :=
    foldlM_of_agree hsound hdestSound (hkey.trans hdestKey.symm) hagree hobjects
  obtain ⟨manifest, hopen, hdecode⟩ := hcreated.decodeManifest hmade
  rw [hkey, ← hdestKey, ← hgrows.key] at hopen
  refine ⟨dest', exec_restoreBackup hfold hopen hdecode ?_, hgrows.kept⟩
  rw [mapM_eq_ok, List.forall₂_map_left_iff, List.forall₂_same]
  intro a ha
  rw [List.mem_mergeSort] at ha
  have hsaved := hcreated.saved a ha
  refine restoreEntry_of_saved (hmade a (List.mem_of_mem_filter ha)) ⟨hsaved.digest, ?_, hsaved.length⟩
  -- the digest is there, and what is found under it does not collide with the capsule
  have hthere : a.digest ∈ dest'.objects := by
    by_cases hkind : kind = .thin
    · have h := hthin hkind a ha
      rw [Std.ExtTreeMap.mem_iff_isSome_getElem?, Option.isSome_iff_exists] at h ⊢
      exact h.imp fun o ho => hgrows.kept _ _ ho
    · obtain ⟨o, ho, hdigest⟩ := List.mem_map.1 (hcomplete hkind a ha)
      exact hdigest ▸ hmem o ho
  rw [Std.ExtTreeMap.mem_iff_isSome_getElem?, Option.isSome_iff_exists] at hthere
  obtain ⟨o, ho⟩ := hthere
  obtain ⟨hdigest, contents, hcontents, -⟩ := hsound' _ _ ho
  have hget : dest'.get aead a.digest = .ok contents := get_eq_ok.2 ⟨o, ho, hcontents⟩
  have heq : a.capsule = contents := by
    refine hagree _ _ ⟨_, hsaved.get⟩ ⟨_, hget⟩ ?_
    rw [← hsaved.digest, sha256_of_decryptRecord hcontents, hdigest]
  rw [hget, heq]

end Restoring

/-! ## One asset -/

section Saving

open SovereignObjectStore PortableBackupBuilder

section One

variable {aead : XChaCha} {key : BackupKey} {asset : PortableAsset} {o : EncryptedObject}
  {backupId : Block 16} {nonce : Block 24} {manifest sealed : Bytes}

/-- The store with one object. -/
def holding (key : BackupKey) (o : EncryptedObject) : SovereignObjectStore where
  key := key
  objects := (∅ : BTreeMap _ _).insert o.digest o

/-- **A call that creates a backup**, step by step. -/
theorem exec_create_of_gather {kind : BackupKind} {assets : List PortableAsset}
    {entries : List ManifestAsset} {objects : List EncryptedObject} {s t : SovereignObjectStore}
    (hne : selected kind assets ≠ [])
    (hgather : exec (gather aead [] (selected kind assets)) s = (.ok entries, t))
    (hmanifest : encodeManifest kind backupId (entries.mergeSort entryLe) = .ok manifest)
    (hsealed : t.key.sealWith aead nonce (manifestAad kind backupId) manifest = .ok sealed)
    (hobjects : (if kind = .thin then pure [] else (sortDedup ((entries.mergeSort entryLe).map
      ManifestAsset.digest)).mapM t.record) = .ok objects) :
    exec (create aead kind backupId nonce assets) s =
      (.ok ⟨backupId, kind, nonce, sealed, objects⟩, t) := by
  simp only [create, exec_refuse_of_neg hne, exec_bind_ok hgather, hmanifest, exec_check_ok_bind,
    exec_get_bind, hsealed, hobjects]
  rfl

/-- One asset more. -/
theorem exec_gather_cons {assets : List PortableAsset} {entries : List ManifestAsset}
    {seen : List Identity} {s t u : SovereignObjectStore} (hfresh : asset.identity ∉ seen)
    (hinserted : s.inserted aead asset.capsule = .ok (asset.digest, t))
    (hlen : asset.capsule.length < 2 ^ 64)
    (hgather : exec (gather aead (asset.identity :: seen) assets) t = (.ok entries, u)) :
    exec (gather aead seen (asset :: assets)) s = (.ok (entryOf asset :: entries), u) := by
  have hinsert : exec (SovereignObjectStore.insert aead asset.capsule) s = (.ok asset.digest, t) := by
    rw [SovereignObjectStore.insert, exec_get_bind, hinserted, exec_check_ok_bind, exec_modify_bind]
    rfl
  have hlen64 : lenU64 (ε := PortabilityError) asset.capsule.length =
      .ok (UInt64.ofNat asset.capsule.length) := lenU64_eq_ok.2 (UInt64.toNat_ofNat_of_lt' hlen)
  rw [gather, exec_refuse_of_neg hfresh, exec_bind_ok hinsert, exec_refuse_of_neg (not_not.2 rfl),
    hlen64, exec_check_ok_bind, exec_bind_ok hgather]
  rfl

/-- Contents that are new to the store. -/
theorem inserted_new {s : SovereignObjectStore} (hnew : o.digest ∉ s.objects)
    (hlen : lenU64 asset.capsule.length = (.ok o.logicalLen : Except PortabilityError UInt64))
    (ho : o.digest = sha256 asset.capsule)
    (hobject : s.key.sealWith aead (objectNonce o.digest) (objectAad o.digest o.logicalLen)
      asset.capsule = .ok o.ciphertext) :
    s.inserted aead asset.capsule =
      .ok (o.digest, { s with objects := s.objects.insert o.digest o }) := by
  rw [inserted, ← ho]
  refine bind_eq_ok.2 ⟨o.logicalLen, hlen, ?_⟩
  rw [if_neg hnew]
  exact bind_eq_ok.2 ⟨_, hobject, rfl⟩

/-- Contents that are there already. -/
theorem inserted_there {s : SovereignObjectStore} (hdigest : asset.digest = sha256 asset.capsule)
    (hlen : asset.capsule.length < 2 ^ 64) (hget : s.get aead asset.digest = .ok asset.capsule) :
    s.inserted aead asset.capsule = .ok (asset.digest, s) := by
  have hmem : asset.digest ∈ s.objects := by
    obtain ⟨o, ho, -⟩ := get_eq_ok.1 hget
    exact Std.ExtTreeMap.mem_iff_isSome_getElem?.2 (by rw [ho]; rfl)
  rw [inserted, ← hdigest]
  refine bind_eq_ok.2 ⟨_, lenU64_eq_ok.2 (UInt64.toNat_ofNat_of_lt' hlen), ?_⟩
  rw [if_pos hmem]
  exact bind_eq_ok.2 ⟨_, hget, bind_eq_ok.2 ⟨(), refuse_eq_ok.2 (not_not.2 rfl), rfl⟩⟩

/-- **One asset saved in a new store**: a backup with one object. -/
theorem exec_create_one (hdigest : asset.digest = sha256 asset.capsule)
    (hlen : lenU64 asset.capsule.length = (.ok o.logicalLen : Except PortabilityError UInt64))
    (ho : o.digest = asset.digest)
    (hobject : key.sealWith aead (objectNonce o.digest) (objectAad o.digest o.logicalLen)
      asset.capsule = .ok o.ciphertext)
    (hmanifest : encodeManifest .full backupId [entryOf asset] = .ok manifest)
    (hsealed : key.sealWith aead nonce (manifestAad .full backupId) manifest = .ok sealed) :
    exec (create aead .full backupId nonce [asset]) (new key) =
      (.ok ⟨backupId, .full, nonce, sealed, [o]⟩, holding key o) := by
  have hselected : selected .full [asset] = [asset] := by simp [selected]
  have hinserted : (new key).inserted aead asset.capsule = .ok (asset.digest, holding key o) := by
    rw [← ho]
    exact inserted_new Std.ExtTreeMap.not_mem_empty hlen (ho.trans hdigest) hobject
  have hlength : asset.capsule.length < 2 ^ 64 := lenU64_eq_ok.1 hlen ▸ UInt64.toNat_lt _
  have hgather : exec (gather aead [] (selected .full [asset])) (new key) =
      (.ok [entryOf asset], holding key o) := by
    rw [hselected]
    exact exec_gather_cons List.not_mem_nil hinserted hlength rfl
  have hrecord : (sortDedup ([entryOf asset].map ManifestAsset.digest)).mapM (holding key o).record =
      .ok [o] := by
    have hsort : sortDedup [asset.digest] = [asset.digest] :=
      sortDedup_of_sortedLT (List.pairwise_singleton ..)
    have hfound : (holding key o).record asset.digest = .ok o := by
      rw [record, holding, ← ho, Std.ExtTreeMap.getElem?_insert_self]
      rfl
    rw [List.map_singleton, entryOf, hsort, List.mapM_cons, hfound]
    rfl
  refine exec_create_of_gather (hselected ▸ List.cons_ne_nil asset []) hgather
    (by rwa [List.mergeSort_singleton]) hsealed ?_
  rw [if_neg (by decide), List.mergeSort_singleton, hrecord]

end One

namespace BackupSample

/-- A cipher that hides nothing. -/
def plain : XChaCha where
  encrypt _ _ _ message := some message
  decrypt _ _ _ ciphertext := some ciphertext
  decrypt_encrypt h := h.symm

theorem length_zeros : (List.replicate 32 (0 : UInt8)).length = 32 := rfl

def key : BackupKey := ⟨⟨List.replicate 32 0, length_zeros⟩⟩

theorem length_sevens : (List.replicate 16 (7 : UInt8)).length = 16 := rfl

/-- A capsule with one payload of one byte. -/
def capsule (payload : UInt8) : Except CapsuleError Bytes :=
  CapsuleBuilder.write {
    kind := .full
    capsuleId := ⟨List.replicate 16 7, length_sevens⟩
    baseRoot := none
    chunks := [⟨.graph, .embedded [payload]⟩] }

@[irreducible] def contents (payload : UInt8) : Bytes := (capsule payload).toOption.getD []

def backupId : Block 16 := ⟨List.replicate 16 1, rfl⟩

def manifestNonce : Block 24 := ⟨List.replicate 24 2, rfl⟩

/-- The call that saves assets in a backup. -/
def saving (assets : List PortableAsset) : Act PortableBackup :=
  create plain .full backupId manifestNonce assets

/-- An asset of such a capsule, and the object that holds it. -/
def asset (assetId : String) (payload : UInt8) : PortableAsset where
  assetClass := .model
  assetId := assetId
  version := 1
  capsule := contents payload
  digest := sha256 (contents payload)

def sealedObject (payload : UInt8) : EncryptedObject where
  digest := sha256 (contents payload)
  logicalLen := 225
  ciphertext := contents payload

/-- Three assets, not in order; the first and the last have the same capsule. -/
def unsorted : List PortableAsset := [asset "b" 2, asset "a" 1, asset "c" 2]

/-- The store with the object of the first asset, and with both objects. -/
def stocked : SovereignObjectStore := holding key (sealedObject 2)

def filled : SovereignObjectStore :=
  { stocked with objects := stocked.objects.insert (sealedObject 1).digest (sealedObject 1) }

/-- The entries of the manifest, in order. -/
def entries : List ManifestAsset := [asset "a" 1, asset "b" 2, asset "c" 2].map entryOf

def manifest : Bytes := (encodeManifest .full backupId entries).toOption.getD []

def objects : List EncryptedObject :=
  ((sortDedup (entries.map ManifestAsset.digest)).mapM filled.record).toOption.getD []

def savedBackup : PortableBackup := ⟨backupId, .full, manifestNonce, manifest, objects⟩

theorem written : ((capsule 1).toOption.isSome ∧ (contents 1).length = 225) ∧
    ((capsule 2).toOption.isSome ∧ (contents 2).length = 225) ∧
    sha256 (contents 2) ≠ sha256 (contents 1) ∧
    (encodeManifest .full backupId entries).toOption.isSome ∧
    ((sortDedup (entries.map ManifestAsset.digest)).mapM filled.record).toOption.isSome ∧
    savedBackup.encode.toOption.isSome := by
  decide +kernel

section Payload

variable {payload : UInt8} {assetId : String}
  (hwritten : (capsule payload).toOption.isSome ∧ (contents payload).length = 225)
include hwritten

theorem length_contents : (contents payload).length < 2 ^ 64 := hwritten.2 ▸ by decide

/-- What the builder writes is an asset. -/
theorem made_asset (htrim : trim assetId = assetId) (hid : assetId ≠ "") :
    Made (asset assetId payload) := by
  have hcapsule : capsule payload = .ok (contents payload) := by
    rw [contents]
    exact Guard.eq_ok_getD hwritten.1 []
  obtain ⟨header, manifest, index, body, hsealed⟩ := Capsule.exists_sealed_of_write hcapsule
  have hne : contents payload ≠ [] := List.ne_nil_of_length_pos (hwritten.2 ▸ by decide)
  have hfit : ¬ (assetId = "" ∨ (1 : UInt32) = 0 ∨ contents payload = []) := by simp [hid, hne]
  have hcarries : Carries .model .full := by decide
  refine ⟨assetId, ?_⟩
  simp only [asset, PortableAsset.fromCapsule, bind_eq_ok, exists_unit, refuse_eq_ok, htrim]
  exact ⟨hfit, _, congrArg (Except.mapError _) hsealed.read, refuse_eq_ok.2 (not_not.2 hcarries), rfl⟩

/-- A capsule is kept as it is. -/
theorem inserted_asset {s : SovereignObjectStore} (hnew : sha256 (contents payload) ∉ s.objects) :
    s.inserted plain (asset assetId payload).capsule = .ok ((asset assetId payload).digest,
      { s with objects := s.objects.insert (sealedObject payload).digest (sealedObject payload) }) :=
  inserted_new (o := sealedObject payload) hnew (lenU64_eq_ok.2 hwritten.2.symm) rfl rfl

end Payload

theorem get_filled : filled.get plain (sha256 (contents 2)) = .ok (contents 2) := by
  obtain ⟨-, -, hne, -⟩ := written
  refine get_eq_ok.2 ⟨sealedObject 2, ?_, bind_eq_ok.2 ⟨contents 2, rfl, bind_eq_ok.2 ⟨(),
    refuse_eq_ok.2 (not_not.2 rfl), rfl⟩⟩⟩
  have hdigest : ¬ compare (sealedObject 1).digest (sha256 (contents 2)) = .eq := fun h =>
    hne (Std.compare_eq_iff_eq.1 h).symm
  rw [filled, Std.ExtTreeMap.getElem?_insert, if_neg hdigest]
  exact Std.ExtTreeMap.getElem?_insert_self

/-- The capsule that two assets share is sealed once. -/
theorem exec_gather_unsorted : exec (gather plain [] unsorted) (new key) =
    (.ok (unsorted.map entryOf), filled) := by
  obtain ⟨hone, htwo, hne, -⟩ := written
  have hnew : sha256 (contents 1) ∉ stocked.objects := by
    rw [stocked, holding, Std.ExtTreeMap.mem_insert, Std.compare_eq_iff_eq, not_or]
    exact ⟨hne, Std.ExtTreeMap.not_mem_empty⟩
  have hb : (new key).inserted plain (asset "b" 2).capsule = .ok ((asset "b" 2).digest, stocked) :=
    inserted_asset htwo Std.ExtTreeMap.not_mem_empty
  have ha : stocked.inserted plain (asset "a" 1).capsule = .ok ((asset "a" 1).digest, filled) :=
    inserted_asset hone hnew
  have hc : filled.inserted plain (asset "c" 2).capsule = .ok ((asset "c" 2).digest, filled) :=
    inserted_there (by simp only [asset]) (length_contents htwo) get_filled
  have hab : (asset "a" 1).identity ∉ [(asset "b" 2).identity] := by decide +kernel
  have hcab : (asset "c" 2).identity ∉ [(asset "a" 1).identity, (asset "b" 2).identity] := by
    decide +kernel
  rw [unsorted, List.map_cons, List.map_cons, List.map_cons, List.map_nil]
  refine exec_gather_cons List.not_mem_nil hb (length_contents htwo) ?_
  refine exec_gather_cons hab ha (length_contents hone) ?_
  exact exec_gather_cons hcab hc (length_contents htwo) rfl

theorem mergeSort_unsorted :
    unsorted.mergeSort assetLe = [asset "a" 1, asset "b" 2, asset "c" 2] := by
  have hba : assetLe (asset "b" 2) (asset "a" 1) = false := by decide +kernel
  have hac : assetLe (asset "a" 1) (asset "c" 2) = true := by decide +kernel
  have hbc : assetLe (asset "b" 2) (asset "c" 2) = true := by decide +kernel
  simp [unsorted, List.mergeSort, List.MergeSort.Internal.splitInTwo, hba, hac, hbc]

theorem made_unsorted : ∀ a ∈ unsorted, Made a := by
  obtain ⟨hone, htwo, -⟩ := written
  simp only [unsorted, List.forall_mem_cons]
  exact ⟨made_asset htwo (by decide +kernel) (by decide), made_asset hone (by decide +kernel)
    (by decide), made_asset htwo (by decide +kernel) (by decide), fun _ h => (nomatch h)⟩

/-- The three assets are saved. -/
theorem exec_saving : exec (saving unsorted) (new key) = (.ok savedBackup, filled) := by
  obtain ⟨-, -, -, hmanifest, hobjects, -⟩ := written
  have hselected : selected .full unsorted = unsorted := by simp [selected]
  have hsorted : (unsorted.map entryOf).mergeSort entryLe = entries := by
    rw [mergeSort_map_entryOf, mergeSort_unsorted, entries]
  have hgather := exec_gather_unsorted
  rw [← hselected] at hgather
  have hencode : encodeManifest .full backupId ((unsorted.map entryOf).mergeSort entryLe) =
      .ok manifest := by
    rw [hsorted]
    exact Guard.eq_ok_getD hmanifest []
  refine exec_create_of_gather (hselected ▸ List.cons_ne_nil _ _) hgather (hselected ▸ hencode) rfl ?_
  rw [hselected, hsorted, if_neg (by decide)]
  exact Guard.eq_ok_getD hobjects []

end BackupSample

open BackupSample in
/-- Three assets come back in order, though two of them share a capsule. -/
theorem backup_restores_unsorted : ∃ backup b source' dest',
    exec (saving unsorted) (new key) = (.ok backup, source') ∧
    PortableBackup.encode backup = .ok b ∧ PortableBackup.decode b = .ok backup ∧
    exec (restoreBackup plain backup) (new key) =
      (.ok ⟨[asset "a" 1, asset "b" 2, asset "c" 2]⟩, dest') := by
  obtain ⟨-, -, -, -, -, hsome⟩ := BackupSample.written
  obtain ⟨b, hencode⟩ := Guard.exists_eq_ok hsome
  have hagree : Agree plain filled (new key) := by
    rintro x y - ⟨digest, hy⟩ -
    obtain ⟨o, ho, -⟩ := get_eq_ok.1 hy
    simp [SovereignObjectStore.new] at ho
  have hfull : BackupKind.full ≠ .thin := by decide
  obtain ⟨hdecode, dest', hrestore, -⟩ := backup_restores made_unsorted .new .new exec_saving hencode
    (fun h => absurd h hfull) hagree
  have hselected : selected .full unsorted = unsorted := by simp [selected]
  rw [hselected, mergeSort_unsorted] at hrestore
  exact ⟨savedBackup, b, filled, dest', exec_saving, hencode, hdecode, hrestore⟩

end Saving

end Portability

end NTD97
