import Mathlib
import NTD97.Lib.Effect
import NTD97.Lib.SortedMap
import NTD97.Package

/-!
# AssetStore — the versions of every native asset

    commit:  verify ▪ above every version so far ▪ file and activate      rollback:  verify ▪ activate

A store files packages by id and version and has one active version for each id.  Commits only add,
rollbacks only choose; `assetStore_history` says so for every sequence of calls.
-/

namespace NTD97

open Guard Effect Wire Package

structure CommitReceipt where
  assetId : String
  version : UInt32
  kind : AssetKind
  deriving DecidableEq

abbrev Versions := BTreeMap String (BTreeMap UInt32 NativePackage)

structure NativeAssetStore where
  trustedVerifyKey : Block 32
  versions : Versions
  active : BTreeMap String UInt32

/-- The package filed under an id and a version. -/
def Versions.find (self : Versions) (assetId : String) (version : UInt32) : Option NativePackage :=
  (self[assetId]?).bind fun versions => versions[version]?

namespace NativeAssetStore

/-- A verification under a trusted key. -/
abbrev Verifier := Block 32 → NativePackage → Except AssimilationError Unit

/-- The staged copies of a store's maps, and the receipts so far. -/
structure Staged where
  versions : Versions
  active : BTreeMap String UInt32
  receipts : List CommitReceipt

def new (trustedVerifyKey : Block 32) : NativeAssetStore where
  trustedVerifyKey := trustedVerifyKey
  versions := ∅
  active := ∅

def receipt (package : NativePackage) : CommitReceipt where
  assetId := package.assetId
  version := package.version
  kind := package.kind

/-- One package of a batch, after those that are staged. -/
def stage (verify : NativePackage → Except AssimilationError Unit) (staged : Staged)
    (package : NativePackage) : Except AssimilationError Staged := do
  verify package
  let versions := (staged.versions[package.assetId]?).getD ∅
  refuse (package.version ∈ versions ∨ ∃ latest ∈ versions.maxKey?, package.version ≤ latest)
    .versionConflict
  return {
    versions := staged.versions.insert package.assetId (versions.insert package.version package)
    active := staged.active.insert package.assetId package.version
    receipts := staged.receipts ++ [receipt package] }

def commitWith (verify : Verifier) (packages : List NativePackage) :
    Eff NativeAssetStore AssimilationError (List CommitReceipt) := do
  refuse (packages = []) .invalidPackage
  let self ← get
  let staged ← check id (packages.foldlM (stage (verify self.trustedVerifyKey)) {
    versions := self.versions, active := self.active, receipts := [] })
  modify fun self => { self with versions := staged.versions, active := staged.active }
  return staged.receipts

def commitBatch (ed : Ed25519) (packages : List NativePackage) :
    Eff NativeAssetStore AssimilationError (List CommitReceipt) :=
  commitWith (fun key package => verifyNativePackage ed package key) packages

def commitBatchWithShards (ed : Ed25519) (packages : List NativePackage)
    (shardStore : FileTensorShardStore) :
    Eff NativeAssetStore AssimilationError (List CommitReceipt) :=
  commitWith (fun key package => verifyNativePackageWithShards ed package key shardStore) packages

def version (self : NativeAssetStore) (assetId : String) (version : UInt32) :
    Except AssimilationError NativePackage :=
  okOr (self.versions.find assetId version) (.missingVersion assetId version)

def activePackage (self : NativeAssetStore) (assetId : String) :
    Except AssimilationError NativePackage := do
  let version ← okOr self.active[assetId]? (.missingAsset assetId)
  self.version assetId version

def rollbackWith (verify : Verifier) (assetId : String) (version : UInt32) :
    Eff NativeAssetStore AssimilationError CommitReceipt := do
  let self ← get
  let package ← check id (self.version assetId version)
  check id (verify self.trustedVerifyKey package)
  modify fun self => { self with active := self.active.insert assetId version }
  return { assetId, version, kind := package.kind }

def rollback (ed : Ed25519) (assetId : String) (version : UInt32) :
    Eff NativeAssetStore AssimilationError CommitReceipt :=
  rollbackWith (fun key package => verifyNativePackage ed package key) assetId version

def rollbackWithShards (ed : Ed25519) (assetId : String) (version : UInt32)
    (shardStore : FileTensorShardStore) : Eff NativeAssetStore AssimilationError CommitReceipt :=
  rollbackWith (fun key package => verifyNativePackageWithShards ed package key shardStore) assetId
    version

/-! ## Calls -/

inductive Call where
  | commitBatch (packages : List NativePackage)
  | commitBatchWithShards (packages : List NativePackage) (shardStore : FileTensorShardStore)
  | rollback (assetId : String) (version : UInt32)
  | rollbackWithShards (assetId : String) (version : UInt32) (shardStore : FileTensorShardStore)

namespace Call

/-- What a call answers, and the store it leaves. -/
def outcome (ed : Ed25519) (self : NativeAssetStore) : Call →
    Except AssimilationError (List CommitReceipt) × NativeAssetStore
  | commitBatch packages => exec (NativeAssetStore.commitBatch ed packages) self
  | commitBatchWithShards packages shardStore =>
    exec (NativeAssetStore.commitBatchWithShards ed packages shardStore) self
  | rollback assetId version =>
    exec (do return [← NativeAssetStore.rollback ed assetId version]) self
  | rollbackWithShards assetId version shardStore =>
    exec (do return [← NativeAssetStore.rollbackWithShards ed assetId version shardStore]) self

/-- The packages a call commits. -/
def packages : Call → List NativePackage
  | commitBatch packages | commitBatchWithShards packages _ => packages
  | rollback .. | rollbackWithShards .. => []

/-- The version a call rolls back to. -/
def target : Call → Option (String × UInt32)
  | commitBatch .. | commitBatchWithShards .. => none
  | rollback assetId version | rollbackWithShards assetId version _ => some (assetId, version)

end Call

/-- The store after a sequence of calls. -/
def after (ed : Ed25519) (self : NativeAssetStore) (calls : List Call) : NativeAssetStore :=
  calls.foldl (fun store call => (call.outcome ed store).2) self

end NativeAssetStore

/-! ## Staging -/

theorem Versions.find_eq (versions : Versions) (id : String) (v : UInt32) :
    versions.find id v = ((versions[id]?).getD ∅)[v]? := by
  rw [find]
  cases versions[id]? <;> simp

theorem Versions.find_insert {versions : Versions} {package p : NativePackage} {id : String}
    {v : UInt32} :
    Versions.find (versions.insert package.assetId (((versions[package.assetId]?).getD ∅).insert
      package.version package)) id v = some p ↔
      (package.assetId = id ∧ package.version = v ∧ package = p) ∨
        (¬ (package.assetId = id ∧ package.version = v) ∧ versions.find id v = some p) := by
  rw [find, Std.ExtTreeMap.getElem?_insert]
  by_cases hid : package.assetId = id
  · subst hid
    rw [if_pos Std.ReflCmp.compare_self, Option.bind_some, Std.ExtTreeMap.getElem?_insert]
    by_cases hv : package.version = v
    · subst hv
      rw [if_pos Std.ReflCmp.compare_self]
      simp
    · rw [if_neg (mt Std.compare_eq_iff_eq.1 hv), find_eq]
      simp [hv]
  · rw [if_neg (mt Std.compare_eq_iff_eq.1 hid)]
    simp [hid, find]

namespace NativeAssetStore

section Staging

variable {verify : NativePackage → Except AssimilationError Unit} {staged staged' : Staged}
  {package : NativePackage} {packages : List NativePackage}

theorem stage_eq_ok : stage verify staged package = .ok staged' ↔ verify package = .ok () ∧
    (∀ v p, staged.versions.find package.assetId v = some p → v < package.version) ∧
    staged' = {
      versions := staged.versions.insert package.assetId
        (((staged.versions[package.assetId]?).getD ∅).insert package.version package)
      active := staged.active.insert package.assetId package.version
      receipts := staged.receipts ++ [receipt package] } := by
  have hfresh (m : BTreeMap UInt32 NativePackage) (v : UInt32) :
      ¬ (v ∈ m ∨ ∃ latest ∈ m.maxKey?, v ≤ latest) ↔ ∀ w p, m[w]? = some p → w < v := by
    constructor
    · intro h w p hw
      have hmem : w ∈ m := Std.ExtTreeMap.mem_iff_isSome_getElem?.2 (hw ▸ rfl)
      obtain ⟨latest, hlatest⟩ :=
        Option.isSome_iff_exists.1 (Std.ExtTreeMap.isSome_maxKey?_of_mem hmem)
      have hle := (Std.ExtTreeMap.maxKey?_eq_some_iff_mem_and_forall.1 hlatest).2 w hmem
      rw [not_or, not_exists] at h
      have hlt := h.2 latest
      rw [not_and, UInt32.not_le] at hlt
      exact UInt32.lt_of_le_of_lt (Std.isLE_compare.1 hle) (hlt hlatest)
    · rintro h (hmem | ⟨latest, hlatest, hle⟩)
      · obtain ⟨p, hp⟩ := Option.isSome_iff_exists.1 (Std.ExtTreeMap.mem_iff_isSome_getElem?.1 hmem)
        exact UInt32.lt_irrefl _ (h v p hp)
      · have hmem := Std.ExtTreeMap.maxKey?_mem hlatest
        obtain ⟨p, hp⟩ := Option.isSome_iff_exists.1 (Std.ExtTreeMap.mem_iff_isSome_getElem?.1 hmem)
        exact UInt32.not_lt.2 hle (h latest p hp)
  simp only [stage, bind_eq_ok, exists_unit, refuse_eq_ok, pure_eq_ok, hfresh, Versions.find_eq]
  simp only [eq_comm]

/-- **What a batch stages**: its packages and no others, each above the versions before it. -/
structure Stages (verify : NativePackage → Except AssimilationError Unit) (staged : Staged)
    (packages : List NativePackage) (staged' : Staged) : Prop where
  verified : ∀ p ∈ packages, verify p = .ok ()
  find : ∀ id v p, staged'.versions.find id v = some p ↔ staged.versions.find id v = some p ∨
    (p ∈ packages ∧ p.assetId = id ∧ p.version = v)
  above : ∀ p ∈ packages, ∀ v q, staged.versions.find p.assetId v = some q → v < p.version
  ascending : packages.Pairwise fun p q => p.assetId = q.assetId → p.version < q.version
  active : ∀ id v, staged'.active[id]? = some v →
    (staged.active[id]? = some v ∧ ∀ p ∈ packages, p.assetId ≠ id) ∨
      ∃ p ∈ packages, p.assetId = id ∧ p.version = v
  activated : ∀ id, (staged.active[id]?).isSome ∨ (∃ p ∈ packages, p.assetId = id) →
    (staged'.active[id]?).isSome
  receipts : staged'.receipts = staged.receipts ++ packages.map receipt

theorem Stages.nil : Stages verify staged [] staged where
  verified _ h := nomatch h
  find _ _ _ := by simp
  above _ h := nomatch h
  ascending := .nil
  active _ _ h := .inl ⟨h, fun _ h => nomatch h⟩
  activated _ h := h.resolve_right fun ⟨_, h, _⟩ => nomatch h
  receipts := by simp

/-- A package staged in front of a batch. -/
theorem Stages.cons {middle : Staged} (h : stage verify staged package = .ok middle)
    (hrest : Stages verify middle packages staged') :
    Stages verify staged (package :: packages) staged' := by
  obtain ⟨hverify, habove, rfl⟩ := stage_eq_ok.1 h
  have hpackage : Versions.find (staged.versions.insert package.assetId
      (((staged.versions[package.assetId]?).getD ∅).insert package.version package))
      package.assetId package.version = some package :=
    Versions.find_insert.2 (.inl ⟨rfl, rfl, rfl⟩)
  have hkept : ∀ id v p, staged.versions.find id v = some p → Versions.find
      (staged.versions.insert package.assetId (((staged.versions[package.assetId]?).getD ∅).insert
        package.version package)) id v = some p := by
    intro id v p hp
    refine Versions.find_insert.2 (.inr ⟨?_, hp⟩)
    rintro ⟨rfl, rfl⟩
    exact UInt32.lt_irrefl _ (habove _ _ hp)
  have hlater : ∀ p ∈ packages, package.assetId = p.assetId → package.version < p.version :=
    fun p hp hid => hrest.above p hp _ package (by rw [← hid]; exact hpackage)
  refine ⟨?_, fun id v p => ?_, ?_, List.pairwise_cons.2 ⟨hlater, hrest.ascending⟩,
    fun id v hv => ?_, fun id hid => hrest.activated id ?_, ?_⟩
  · exact List.forall_mem_cons.2 ⟨hverify, hrest.verified⟩
  · rw [hrest.find, Versions.find_insert, List.mem_cons]
    constructor
    · rintro ((⟨hid, hv, rfl⟩ | ⟨-, hp⟩) | ⟨hp, hid, hv⟩)
      · exact .inr ⟨.inl rfl, hid, hv⟩
      · exact .inl hp
      · exact .inr ⟨.inr hp, hid, hv⟩
    · rintro (hp | ⟨rfl | hp, hid, hv⟩)
      · exact .inl (Versions.find_insert.1 (hkept id v p hp))
      · exact .inl (.inl ⟨hid, hv, rfl⟩)
      · exact .inr ⟨hp, hid, hv⟩
  · exact List.forall_mem_cons.2 ⟨habove, fun p hp v q hq => hrest.above p hp v q (hkept _ _ _ hq)⟩
  · rcases hrest.active id v hv with ⟨hactive, hother⟩ | ⟨p, hp, hid, hversion⟩
    · rw [Std.ExtTreeMap.getElem?_insert] at hactive
      by_cases hid : package.assetId = id
      · rw [if_pos (Std.compare_eq_iff_eq.2 hid)] at hactive
        exact .inr ⟨package, .head _, hid, Option.some.inj hactive⟩
      · rw [if_neg (mt Std.compare_eq_iff_eq.1 hid)] at hactive
        exact .inl ⟨hactive, List.forall_mem_cons.2 ⟨hid, hother⟩⟩
    · exact .inr ⟨p, .tail _ hp, hid, hversion⟩
  · rw [Std.ExtTreeMap.getElem?_insert]
    rcases hid with hactive | ⟨p, hp, rfl⟩
    · refine .inl ?_
      split
      · rfl
      · exact hactive
    · rcases List.mem_cons.1 hp with rfl | hp
      · exact .inl (by rw [if_pos Std.ReflCmp.compare_self]; rfl)
      · exact .inr ⟨p, hp, rfl⟩
  · rw [hrest.receipts, List.append_assoc, List.map_cons]
    rfl

theorem stages_of_foldlM : ∀ {packages : List NativePackage} {staged : Staged},
    packages.foldlM (stage verify) staged = .ok staged' → Stages verify staged packages staged'
  | [], staged, h => by
      obtain rfl := Except.ok.inj h
      exact .nil
  | package :: packages, staged, h => by
      rw [List.foldlM_cons, bind_eq_ok] at h
      obtain ⟨middle, hstage, hrest⟩ := h
      exact .cons hstage (stages_of_foldlM hrest)

end Staging

/-! ## What a call does -/

section Calls

variable {ed : Ed25519} {store : NativeAssetStore} {r : Except AssimilationError (List CommitReceipt)}
  {store' : NativeAssetStore}

/-- **What a call that answers does**: its packages are filed, each above the versions of its id so
far, and a version becomes active only if it was committed or asked for. -/
structure Done (ed : Ed25519) (store : NativeAssetStore) (call : Call)
    (store' : NativeAssetStore) : Prop where
  trusted : store'.trustedVerifyKey = store.trustedVerifyKey
  verified : ∀ p ∈ call.packages, Verified ed store.trustedVerifyKey p
  find : ∀ id v p, store'.versions.find id v = some p ↔ store.versions.find id v = some p ∨
    (p ∈ call.packages ∧ p.assetId = id ∧ p.version = v)
  above : ∀ p ∈ call.packages, ∀ v q, store.versions.find p.assetId v = some q → v < p.version
  ascending : call.packages.Pairwise fun p q => p.assetId = q.assetId → p.version < q.version
  active : ∀ id v, store'.active[id]? = some v → store.active[id]? = some v ∨
    (∃ p ∈ call.packages, p.assetId = id ∧ p.version = v) ∨ call.target = some (id, v)
  activated : ∀ id, (store.active[id]?).isSome ∨ (∃ p ∈ call.packages, p.assetId = id) →
    (store'.active[id]?).isSome
  found : ∀ id v, call.target = some (id, v) → ∃ p, store.versions.find id v = some p

theorem exec_commitWith {verify : Verifier} {packages : List NativePackage}
    (h : exec (commitWith verify packages) store = (r, store')) :
    (∃ e, r = .error e ∧ store' = store) ∨ ∃ staged,
      Stages (verify store.trustedVerifyKey) ⟨store.versions, store.active, []⟩ packages staged ∧
      r = .ok staged.receipts ∧
      store' = { store with versions := staged.versions, active := staged.active } := by
  rw [commitWith] at h
  by_cases hempty : packages = []
  · rw [exec_refuse_of_pos hempty] at h
    exact .inl ⟨_, (Prod.mk.inj h).1.symm, (Prod.mk.inj h).2.symm⟩
  · rw [exec_refuse_of_neg hempty, exec_get_bind] at h
    cases hfold : packages.foldlM (stage (verify store.trustedVerifyKey))
        ⟨store.versions, store.active, []⟩ with
    | error e =>
      rw [hfold, exec_check_error_bind] at h
      exact .inl ⟨_, (Prod.mk.inj h).1.symm, (Prod.mk.inj h).2.symm⟩
    | ok staged =>
      rw [hfold, exec_check_ok_bind, exec_modify_bind, exec_pure] at h
      exact .inr ⟨staged, stages_of_foldlM hfold, (Prod.mk.inj h).1.symm, (Prod.mk.inj h).2.symm⟩

theorem done_commitWith {verify : Verifier} {packages : List NativePackage} {call : Call}
    (hpackages : call.packages = packages) (htarget : call.target = none)
    (hverify : ∀ key p, verify key p = .ok () → Verified ed key p)
    (h : exec (commitWith verify packages) store = (r, store')) :
    (∃ e, r = .error e ∧ store' = store) ∨ ∃ receipts, r = .ok receipts ∧
      Done ed store call store' := by
  subst hpackages
  refine (exec_commitWith h).imp_right ?_
  rintro ⟨staged, hstages, rfl, rfl⟩
  exact ⟨_, rfl, {
    trusted := rfl
    verified := fun p hp => hverify _ p (hstages.verified p hp)
    find := hstages.find
    above := hstages.above
    ascending := hstages.ascending
    active := fun id v hv => (hstages.active id v hv).imp And.left .inl
    activated := hstages.activated
    found := fun id v hv => nomatch htarget.symm.trans hv }⟩

theorem done_rollbackWith {verify : Verifier} {id : String} {v : UInt32} {call : Call}
    (hpackages : call.packages = []) (htarget : call.target = some (id, v))
    (h : exec (do return [← rollbackWith verify id v]) store = (r, store')) :
    (∃ e, r = .error e ∧ store' = store) ∨ ∃ receipts, r = .ok receipts ∧
      Done ed store call store' := by
  simp only [rollbackWith, bind_assoc, exec_get_bind, version] at h
  cases hfind : store.versions.find id v with
  | none =>
    rw [hfind] at h
    exact .inl ⟨_, (Prod.mk.inj h).1.symm, (Prod.mk.inj h).2.symm⟩
  | some p =>
    have hok : okOr (some p) (AssimilationError.missingVersion id v) =
        (.ok p : Except AssimilationError NativePackage) := rfl
    rw [hfind, hok, exec_check_ok_bind] at h
    cases hverify : verify store.trustedVerifyKey p with
    | error e =>
      rw [hverify, exec_check_error_bind] at h
      exact .inl ⟨_, (Prod.mk.inj h).1.symm, (Prod.mk.inj h).2.symm⟩
    | ok =>
      rw [hverify, exec_check_ok_bind, exec_modify_bind, exec_pure_bind, exec_pure] at h
      obtain ⟨rfl, rfl⟩ := Prod.mk.inj h
      have hnone (q : NativePackage) : q ∉ call.packages := by
        rw [hpackages]
        exact List.not_mem_nil
      refine .inr ⟨_, rfl, rfl, fun q hq => absurd hq (hnone q), fun id' v' q => ?_,
        fun q hq => absurd hq (hnone q), hpackages ▸ .nil, fun id' v' hv => ?_,
        fun id' hactive => ?_, fun id' v' hv => ?_⟩
      · exact ⟨.inl, fun hq => hq.resolve_right fun hq => hnone q hq.1⟩
      · rw [Std.ExtTreeMap.getElem?_insert] at hv
        by_cases hid : id = id'
        · rw [if_pos (Std.compare_eq_iff_eq.2 hid)] at hv
          exact .inr (.inr (by rw [htarget, hid, Option.some.inj hv]))
        · rw [if_neg (mt Std.compare_eq_iff_eq.1 hid)] at hv
          exact .inl hv
      · rw [Std.ExtTreeMap.getElem?_insert]
        split
        · rfl
        · exact hactive.resolve_right fun ⟨q, hq, _⟩ => hnone q hq
      · obtain ⟨rfl, rfl⟩ := Prod.mk.inj (Option.some.inj (htarget.symm.trans hv))
        exact ⟨p, hfind⟩

/-- **One call**: an error leaves the store as it was, and an answer does what was asked. -/
theorem outcome_cases (call : Call) :
    (∃ e, (call.outcome ed store).1 = .error e ∧ (call.outcome ed store).2 = store) ∨
      ∃ receipts, (call.outcome ed store).1 = .ok receipts ∧
        Done ed store call (call.outcome ed store).2 := by
  cases call with
  | commitBatch packages =>
    rw [Call.outcome, commitBatch]
    exact done_commitWith rfl rfl (fun key p hp => .inl hp) Prod.mk.eta.symm
  | commitBatchWithShards packages shardStore =>
    rw [Call.outcome, commitBatchWithShards]
    exact done_commitWith rfl rfl (fun key p hp => .inr ⟨shardStore, hp⟩) Prod.mk.eta.symm
  | rollback assetId version =>
    rw [Call.outcome, rollback]
    exact done_rollbackWith rfl rfl Prod.mk.eta.symm
  | rollbackWithShards assetId version shardStore =>
    rw [Call.outcome, rollbackWithShards]
    exact done_rollbackWith rfl rfl Prod.mk.eta.symm

/-! ## Whole histories -/

/-- **A store in order**: every package was accepted and is filed under its own id and version, and
the active versions are versions there are, one for each id. -/
structure Ordered (ed : Ed25519) (key : Block 32) (store : NativeAssetStore) : Prop where
  trusted : store.trustedVerifyKey = key
  filed : ∀ id v p, store.versions.find id v = some p →
    Verified ed key p ∧ p.assetId = id ∧ p.version = v
  activated : ∀ id v p, store.versions.find id v = some p → (store.active[id]?).isSome
  active : ∀ id v, store.active[id]? = some v → ∃ p, store.versions.find id v = some p

theorem Ordered.new (key : Block 32) : Ordered ed key (new key) where
  trusted := rfl
  filed _ _ _ h := by simp [NativeAssetStore.new, Versions.find] at h
  activated _ _ _ h := by simp [NativeAssetStore.new, Versions.find] at h
  active _ _ h := by simp [NativeAssetStore.new] at h

theorem Ordered.done {key : Block 32} {call : Call}
    (h : Ordered ed key store) (hdone : Done ed store call store') : Ordered ed key store' where
  trusted := hdone.trusted.trans h.trusted
  filed id v p hp := by
    rcases (hdone.find id v p).1 hp with hp | ⟨hp, hid, hv⟩
    · exact h.filed id v p hp
    · exact ⟨h.trusted ▸ hdone.verified p hp, hid, hv⟩
  activated id v p hp := by
    rcases (hdone.find id v p).1 hp with hp | ⟨hp, hid, -⟩
    · exact hdone.activated id (.inl (h.activated id v p hp))
    · exact hdone.activated id (.inr ⟨p, hp, hid⟩)
  active id v hv := by
    rcases hdone.active id v hv with hold | ⟨p, hp, hid, hversion⟩ | htarget
    · obtain ⟨p, hp⟩ := h.active id v hold
      exact ⟨p, (hdone.find id v p).2 (.inl hp)⟩
    · exact ⟨p, (hdone.find id v p).2 (.inr ⟨hp, hid, hversion⟩)⟩
    · obtain ⟨p, hp⟩ := hdone.found id v htarget
      exact ⟨p, (hdone.find id v p).2 (.inl hp)⟩

/-- What every call keeps, every sequence of calls keeps. -/
theorem after_induction {P : NativeAssetStore → Prop}
    (hstep : ∀ {store store' call}, P store → Done ed store call store' → P store') :
    ∀ {calls : List Call} {store : NativeAssetStore}, P store → P (after ed store calls)
  | [], _, h => h
  | call :: calls, store, h => by
      rw [after, List.foldl_cons, ← after]
      refine after_induction hstep ?_
      rcases outcome_cases call with ⟨e, -, hstore⟩ | ⟨receipts, -, hdone⟩
      · rw [hstore]
        exact h
      · exact hstep h hdone

end Calls

/-- **The history of a store** is append-only and every call is atomic: in every store reached, each
package was accepted under the trusted key and stands under its own id and version, each id has an
active version that it has, nothing filed is lost later; and a further call changes nothing or files
its packages, each above all versions of its id before it, and activates only what it was given. -/
theorem assetStore_history (ed : Ed25519) (key : Block 32) (calls : List Call) :
    (∀ id v p, (after ed (new key) calls).versions.find id v = some p →
      Verified ed key p ∧ p.assetId = id ∧ p.version = v) ∧
    (∀ id v p, (after ed (new key) calls).versions.find id v = some p →
      ∃ w q, (after ed (new key) calls).active[id]? = some w ∧
        (after ed (new key) calls).versions.find id w = some q ∧
        (after ed (new key) calls).activePackage id = .ok q) ∧
    (∀ later id v p, (after ed (new key) calls).versions.find id v = some p →
      (after ed (new key) (calls ++ later)).versions.find id v = some p) ∧
    ∀ call : Call,
      (∃ e, (call.outcome ed (after ed (new key) calls)).1 = .error e ∧
        (call.outcome ed (after ed (new key) calls)).2 = after ed (new key) calls) ∨
      ∃ receipts, (call.outcome ed (after ed (new key) calls)).1 = .ok receipts ∧
        Done ed (after ed (new key) calls) call
          (call.outcome ed (after ed (new key) calls)).2 := by
  have hordered : Ordered ed key (after ed (new key) calls) :=
    after_induction (fun h hdone => h.done hdone) (.new key)
  refine ⟨hordered.filed, fun id v p hp => ?_, fun later id v p hp => ?_, outcome_cases⟩
  · obtain ⟨w, hw⟩ := Option.isSome_iff_exists.1 (hordered.activated id v p hp)
    obtain ⟨q, hq⟩ := hordered.active id w hw
    refine ⟨w, q, hw, hq, ?_⟩
    rw [activePackage, hw]
    change okOr _ _ = _
    rw [hq]
    rfl
  · rw [after, List.foldl_append, ← after, ← after]
    exact after_induction (P := fun store => store.versions.find id v = some p)
      (fun h hdone => (hdone.find id v p).2 (.inl h)) hp

end NativeAssetStore

end NTD97
