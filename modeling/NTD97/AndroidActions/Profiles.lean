import Mathlib
import NTD97.AndroidFiles.Secrecy
import NTD97.PcPairs

/-!
# AndroidActions/Profiles — the pairing identities among the app-private files

    <root>/pc-pairs/<peer>.pcp97  =  NTD97_PC_PAIR_V1 … local_seed=<64 digits> … END

The file and download adapters share their root with the pairing profiles, and nothing keeps them
from the directory of these.  Profiles that differ only in their seed are versions of one file; none
of the adapters' own files is a profile.
-/

namespace NTD97

open Guard Effect Secrecy Text Wire Files

/-! ## The directory -/

/-- A path below the directory of the pairing profiles. -/
def InPcPairs (path : Path) : Prop := path.head? = some "pc-pairs" ∧ 1 < path.length

instance : DecidablePred InPcPairs := fun _ => inferInstanceAs (Decidable (_ ∧ _))

/-- **The pairing identities**: the files below the directory of the profiles. -/
def identities {N : Type} (w : AppWorld N) (path : Path) : Option Bytes :=
  if InPcPairs path then w.tree.file path else none

section Directory

variable {N : Type} {w w' : AppWorld N} {id : ActionId} {target : Path}

/-- What changes no file below the directory changes no identity. -/
theorem identities_congr (h : ∀ p, InPcPairs p → w'.tree.file p = w.tree.file p) :
    identities w' = identities w := by
  funext p
  unfold identities
  split
  · next hp => exact h p hp
  · rfl

theorem identities_of_file_eq (h : w'.tree.file = w.tree.file) : identities w' = identities w :=
  identities_congr fun p _ => congrFun h p

theorem file_eq_of_identities_eq (h : identities w' = identities w) {p : Path} (hp : InPcPairs p) :
    w'.tree.file p = w.tree.file p := by
  have hat := congrFun h p
  rwa [identities, identities, if_pos hp, if_pos hp] at hat

/-- The temporary file of a write is below the directory exactly if its target is. -/
theorem inPcPairs_tempOf (hne : target ≠ []) :
    InPcPairs (Stepwise.tempOf id target) ↔ InPcPairs target := by
  obtain ⟨init, name, rfl⟩ : ∃ init name, target = init ++ [name] :=
    ⟨_, _, (List.dropLast_append_getLast hne).symm⟩
  rw [Stepwise.tempOf, List.dropLast_concat, InPcPairs, InPcPairs, List.length_append,
    List.length_append]
  cases init with
  | nil => simp
  | cons first rest => exact Iff.rfl

/-- A staged file is not below it. -/
theorem not_inPcPairs_stageOf : ¬ InPcPairs (Stepwise.stageOf id) := fun h =>
  absurd (Option.some.inj h.1) (by decide)

/-- **The files of two worlds below the directory** are the same if the write left them so. -/
theorem identities_written_iff {refuses : Path → Option IoError} {bytes : Bytes} (hne : target ≠ [])
    (hin : InPcPairs target) (h : w'.tree.file = filesWritten refuses w.tree.file id bytes target) :
    identities w' = identities w ↔
      if refuses target = none then
        w.tree.file (Stepwise.tempOf id target) = none ∧ w.tree.file target = some bytes
      else w.tree.file (Stepwise.tempOf id target) = some bytes := by
  have htemp : InPcPairs (Stepwise.tempOf id target) := (inPcPairs_tempOf hne).2 hin
  have hneq : Stepwise.tempOf id target ≠ target := Stepwise.tempOf_ne hne
  constructor
  · intro heq
    have hat (p : Path) (hp : InPcPairs p) :
        filesWritten refuses w.tree.file id bytes target p = w.tree.file p :=
      h ▸ file_eq_of_identities_eq heq hp
    have hattemp := hat _ htemp
    have hattarget := hat _ hin
    unfold filesWritten at hattemp hattarget
    split at hattemp
    · next haccepted =>
      rw [if_pos haccepted, Function.update_self] at hattarget
      rw [Function.update_of_ne hneq, Function.update_self] at hattemp
      rw [if_pos haccepted]
      exact ⟨hattemp.symm, hattarget.symm⟩
    · next haccepted =>
      rw [Function.update_self] at hattemp
      rw [if_neg haccepted]
      exact hattemp.symm
  · intro hfiles
    refine identities_of_file_eq (h.trans ?_)
    unfold filesWritten
    split at hfiles
    · next haccepted =>
      rw [if_pos haccepted, ← hfiles.1, Function.update_eq_self, ← hfiles.2, Function.update_eq_self]
    · next haccepted => rw [if_neg haccepted, ← hfiles, Function.update_eq_self]

/-- A commit leaves the identities alone exactly if its target holds the bytes already. -/
theorem identities_committed_iff {staged : Bytes} (hin : InPcPairs target)
    (h : w'.tree.file = filesCommitted w.tree.file id target staged) :
    identities w' = identities w ↔ w.tree.file target = some staged := by
  have hstage {p : Path} (hp : InPcPairs p) : p ≠ Stepwise.stageOf id :=
    fun heq => not_inPcPairs_stageOf (heq ▸ hp)
  constructor
  · intro heq
    have hat := file_eq_of_identities_eq heq hin
    rw [h, filesCommitted, Function.update_self] at hat
    exact hat.symm
  · intro hfile
    refine identities_congr fun p hp => ?_
    rw [h, filesCommitted]
    by_cases heq : p = target
    · rw [heq, Function.update_self, hfile]
    · rw [Function.update_of_ne heq, Function.update_of_ne (hstage hp)]

end Directory

/-! ## The profiles -/

/-- A stored profile, as `provision_pc_pair_profile` writes it. -/
def pcPairProfile (peer address localSeed remotePeerId remoteVerifyKey : String) : Bytes :=
  utf8 ("NTD97_PC_PAIR_V1\npeer=" ++ peer ++ "\naddress=" ++ address ++ "\nlocal_seed=" ++ localSeed ++
    "\nremote_peer_id=" ++ remotePeerId ++ "\nremote_verify_key=" ++ remoteVerifyKey ++ "\nEND\n")

/-- A text that a profile holds for its seed. -/
def IsSeed (text : String) : Prop := (decodeFixedHex 32 text).isOk = true

instance : DecidablePred IsSeed := fun _ => inferInstanceAs (Decidable (_ = true))

/-- **Versions of a profile**: the same but for the seed. -/
def SeedVersions (path : Path) (v v' : Bytes) : Prop :=
  ∃ peer address seed seed' peerId key, path = ["pc-pairs", peer ++ ".pcp97"] ∧ IsSeed seed ∧
    IsSeed seed' ∧ v = pcPairProfile peer address seed peerId key ∧
      v' = pcPairProfile peer address seed' peerId key

/-- **A profile is stored at the path.** -/
def StoredProfile (t : Tree) (path : Path) : Prop := ∃ v v', SeedVersions path v v' ∧ t.file path = some v

section Profiles

variable {path : Path} {v v' : Bytes} {peer address seed seed' peerId key : String} {t t' : Tree}

theorem IsSeed.length (h : IsSeed seed) : (utf8 seed).length = 64 := by
  by_contra hne
  rw [IsSeed, decodeFixedHex, if_pos hne] at h
  exact nomatch h

theorem pcPairProfile_eq : pcPairProfile peer address seed peerId key =
    utf8 ("NTD97_PC_PAIR_V1\npeer=" ++ peer ++ "\naddress=" ++ address ++ "\nlocal_seed=") ++
      (utf8 seed ++ utf8 ("\nremote_peer_id=" ++ peerId ++ "\nremote_verify_key=" ++ key ++
        "\nEND\n")) := by
  rw [pcPairProfile, ← utf8_append, ← utf8_append]
  simp only [String.append_assoc]

/-- Versions of a profile are of one length. -/
theorem SeedVersions.length_eq (h : SeedVersions path v v') : v.length = v'.length := by
  obtain ⟨peer, address, seed, seed', peerId, key, -, hseed, hseed', rfl, rfl⟩ := h
  rw [pcPairProfile_eq, pcPairProfile_eq]
  simp only [List.length_append, hseed.length, hseed'.length]

/-- The name of a temporary file ends in a number behind a dash, and is no profile's. -/
theorem tempName_ne_profile {id : ActionId} {name : String} :
    Stepwise.tempName id name ≠ peer ++ ".pcp97" := by
  intro h
  have hdigits : ∀ c ∈ (toString id.val).toList.reverse, c.isDigit = true := by
    intro c hc
    rw [List.mem_reverse] at hc
    have hrepr : (toString id.val).toList = Nat.toDigits 10 id.val.toNat := Nat.toList_repr
    exact Nat.isDigit_of_mem_toDigits (by decide) (by decide) (hrepr ▸ hc)
  have hlast := congrArg (fun s : String => (s.toList.reverse.dropWhile Char.isDigit).head?) h
  simp only [Stepwise.tempName, String.toList_append, List.reverse_append] at hlast
  rw [List.dropWhile_append_of_pos hdigits] at hlast
  exact absurd hlast (by simp)

/-- **The versions of profiles are plain**: no file of the adapters' own is a profile. -/
theorem plain_seedVersions : PlainVersions SeedVersions where
  length_eq _ _ _ h := h.length_eq
  temp id target v v' := by
    rintro ⟨peer, _, _, _, _, _, hpath, -⟩
    have hname := congrArg List.getLast? hpath
    rw [Stepwise.tempOf, List.getLast?_concat] at hname
    exact tempName_ne_profile (Option.some.inj hname)
  stage id v v' := by
    rintro ⟨peer, _, _, _, _, _, hpath, -⟩
    exact absurd (List.cons.inj hpath).1 (by decide)

theorem SeedVersions.inPcPairs (h : SeedVersions path v v') : InPcPairs path := by
  obtain ⟨peer, _, _, _, _, _, rfl, -⟩ := h
  exact ⟨rfl, Nat.lt_add_one 1⟩

theorem StoredProfile.inPcPairs (h : StoredProfile t path) : InPcPairs path := by
  obtain ⟨v, v', hv, -⟩ := h
  exact hv.inPcPairs

/-- There are two seeds at least. -/
theorem exists_seed_ne (seed : String) : ∃ seed', IsSeed seed' ∧ utf8 seed' ≠ utf8 seed := by
  have hzero : IsSeed "0000000000000000000000000000000000000000000000000000000000000000" := by
    decide +kernel
  have hone : IsSeed "1111111111111111111111111111111111111111111111111111111111111111" := by
    decide +kernel
  by_cases h : utf8 "0000000000000000000000000000000000000000000000000000000000000000" = utf8 seed
  · refine ⟨_, hone, fun h' => ?_⟩
    exact absurd (h.trans h'.symm) (by decide +kernel)
  · exact ⟨_, hzero, h⟩

/-- A profile is a text. -/
theorem SeedVersions.exists_text (h : SeedVersions path v v') : ∃ text, utf8 text = v := by
  obtain ⟨_, _, _, _, _, _, -, -, -, rfl, -⟩ := h
  exact ⟨_, rfl⟩

/-- **A stored profile has another version.** -/
theorem StoredProfile.exists_version (h : StoredProfile t path) :
    ∃ v v', SeedVersions path v v' ∧ v ≠ v' ∧ t.file path = some v := by
  obtain ⟨v, -, ⟨peer, address, seed, -, peerId, key, hpath, hseed, -, rfl, -⟩, hfile⟩ := h
  obtain ⟨seed', hseed', hne⟩ := exists_seed_ne seed
  refine ⟨_, _, ⟨peer, address, seed, seed', peerId, key, hpath, hseed, hseed', rfl, rfl⟩,
    fun heq => ?_, hfile⟩
  rw [pcPairProfile_eq, pcPairProfile_eq] at heq
  exact hne (List.append_cancel_right (List.append_cancel_left heq)).symm

theorem SeedVersions.symm (path : Path) (v v' : Bytes) (h : SeedVersions path v v') :
    SeedVersions path v' v := by
  obtain ⟨peer, address, seed, seed', peerId, key, hpath, hseed, hseed', hv, hv'⟩ := h
  exact ⟨peer, address, seed', seed, peerId, key, hpath, hseed', hseed, hv', hv⟩

/-- **Worlds that differ only in the seeds of their profiles.** -/
abbrev Twins {N : Type} (w w' : AppWorld N) : Prop := Apart SeedVersions w w'

theorem Twins.refl {N : Type} (w : AppWorld N) : Twins w w := ⟨.refl _, rfl⟩

theorem Twins.symm {N : Type} {w w' : AppWorld N} (h : Twins w w') : Twins w' w :=
  ⟨h.tree.symm SeedVersions.symm, h.net.symm⟩

/-- A path is not the root if something below `pc-pairs` is there. -/
theorem InPcPairs.ne_nil (h : InPcPairs path) : path ≠ [] := by
  rintro rfl
  exact nomatch h.1

/-- A file that is no stored profile is the same in trees that differ in the seeds only. -/
theorem at_eq_of_not_storedProfile (h : Versions SeedVersions t t') (hno : ¬ StoredProfile t path) :
    t.at path = t'.at path := by
  rcases h.at_cases path with heq | ⟨v, v', hv, hat, -⟩
  · exact heq
  · refine absurd ⟨v, v', hv, file_eq_some.2 ?_⟩ hno
    rwa [Tree.at, if_neg hv.inPcPairs.ne_nil] at hat

theorem file_eq_of_at_eq (hne : path ≠ []) (h : t.at path = t'.at path) :
    t.file path = t'.file path := by
  rw [Tree.at, Tree.at, if_neg hne, if_neg hne] at h
  rw [Tree.file, Tree.file, h]

theorem storedProfile_of_versions (h : Versions SeedVersions t t') (hs : StoredProfile t path) :
    StoredProfile t' path := by
  obtain ⟨v, v', hv, hfile⟩ := hs
  rcases h path with heq | ⟨x, x', hx, -, hx'⟩
  · exact ⟨v, v', hv, file_eq_some.2 (heq ▸ file_eq_some.1 hfile)⟩
  · exact ⟨x', x, SeedVersions.symm _ _ _ hx, file_eq_some.2 hx'⟩

/-- A profile is stored in both trees or in none. -/
theorem storedProfile_iff (h : Versions SeedVersions t t') :
    StoredProfile t path ↔ StoredProfile t' path :=
  ⟨storedProfile_of_versions h, storedProfile_of_versions (h.symm SeedVersions.symm)⟩

end Profiles

end NTD97
