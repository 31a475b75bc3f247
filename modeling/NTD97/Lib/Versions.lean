import Mathlib
import NTD97.Lib.FileCalls
import NTD97.Lib.Secrecy

/-!
# Lib/Versions — trees that hold versions of the same files

    t  :  p ↦ file v
    t' :  p ↦ file v'        V p v v', and the same everywhere else

A call that reads no file with versions does not tell two such trees apart, and leaves two such
trees: whether it is carried out depends on what kind of entry stands where, not on what a file
holds.  The regular files of a tree are what `file` says; a directory that is made is none of them.
-/

namespace Files

open Guard Effect Secrecy

/-! ## The regular files of a tree -/

/-- The file at a path. -/
def Tree.file (t : Tree) (p : Path) : Option (List UInt8) :=
  match t p with
  | some (.file bytes) => some bytes
  | _ => none

section File

variable {refuses : Path → Option IoError} {t u : Tree} {p q : Path} {bytes : List UInt8}

theorem file_eq_some : t.file p = some bytes ↔ t p = some (.file bytes) := by
  rw [Tree.file]
  rcases t p with _ | _ | _ <;> simp

@[simp] theorem file_update_file :
    Tree.file (Function.update t p (some (.file bytes))) = Function.update t.file p (some bytes) := by
  funext q
  by_cases hq : q = p
  · rw [hq, Tree.file, Function.update_self, Function.update_self]
  · rw [Tree.file, Function.update_of_ne hq, Function.update_of_ne hq, Tree.file]

@[simp] theorem file_update_none :
    Tree.file (Function.update t p none) = Function.update t.file p none := by
  funext q
  by_cases hq : q = p
  · rw [hq, Tree.file, Function.update_self, Function.update_self]
  · rw [Tree.file, Function.update_of_ne hq, Function.update_of_ne hq, Tree.file]

/-- More directories are no more files. -/
theorem MoreDirs.file_eq {D : Path → Prop} (h : MoreDirs D t u) : u.file = t.file := by
  funext q
  rcases h q with hq | ⟨-, hnone, hdir⟩
  · rw [Tree.file, hq, Tree.file]
  · rw [Tree.file, hdir, Tree.file, hnone]

/-- Making directories changes no file, however it ends. -/
theorem exec_createDirAll_file : (exec (createDirAll refuses p) t).2.file = t.file := by
  have hkeeps : Keeps (fun u : Tree => u.file = t.file) (createDirAll refuses p) := by
    refine Keeps.forM (fun q => Keeps.of_final fun u hu => ?_) _
    change (answer refuses (.makeDir p q) u).2.file = t.file
    rw [← hu]
    rcases hmake : answer refuses (.makeDir p q) u with ⟨e | a, v⟩
    · exact congrArg Tree.file ((congrArg Prod.snd hmake).symm.trans
        (answer_error (congrArg Prod.fst hmake)))
    · exact (answer_makeDir_ok (D := fun _ => True) (fun _ => trivial) hmake).2.file_eq
  exact hkeeps.final rfl

/-- **A regular file can be put at the path**: the directories above it are there, no directory
stands at the path itself, and the host has no reason to refuse. -/
structure Free (refuses : Path → Option IoError) (t : Tree) (p : Path) : Prop where
  accepted : refuses p = none
  directories : ∀ q ∈ p.inits.dropLast, t.at q = some .directory
  free : t.at p ≠ some .directory

theorem exec_write_of_free (h : Free refuses t p) :
    exec (write refuses p bytes) t = (.ok (), Function.update t p (some (.file bytes))) := by
  have hreach : reach refuses t p = .ok (t.at p) := reach_eq_ok.2 ⟨h.accepted, h.directories, rfl⟩
  rw [write, exec_bind_ok (exec_entry.trans (by rw [hreach]))]
  rcases hat : t.at p with _ | _ | _
  · rfl
  · rfl
  · exact absurd hat h.free

theorem exec_write_of_not_free (bytes : List UInt8) (h : ¬ Free refuses t p) :
    ∃ e, exec (write refuses p bytes) t = (.error e, t) := by
  rw [write, exec_bind, exec_entry]
  rcases hreach : reach refuses t p with e | e
  · exact ⟨e, rfl⟩
  · obtain ⟨haccepted, hdirectories, rfl⟩ := reach_eq_ok.1 hreach
    have hdir : t.at p = some .directory := not_not.1 fun hfree => h ⟨haccepted, hdirectories, hfree⟩
    rw [hdir]
    exact ⟨_, rfl⟩

/-- A file is moved to a place where a file can be put. -/
theorem exec_rename_of_free (hread : readAt refuses t q = .ok bytes) (h : Free refuses t p) :
    exec (rename refuses q p) t =
      (.ok (), Function.update (Function.update t q none) p (some (.file bytes))) := by
  have hreach : reach refuses t p = .ok (t.at p) := reach_eq_ok.2 ⟨h.accepted, h.directories, rfl⟩
  rw [rename, exec_bind_ok (exec_read.trans (by rw [hread])),
    exec_bind_ok (exec_entry.trans (by rw [hreach]))]
  rcases hat : t.at p with _ | _ | _
  · rfl
  · rfl
  · exact absurd hat h.free

/-- Nothing is moved to where no file can be put. -/
theorem exec_rename_of_not_free (h : ¬ Free refuses t p) :
    ∃ e, exec (rename refuses q p) t = (.error e, t) := by
  rw [rename, exec_bind, exec_read]
  rcases readAt refuses t q with e | bytes
  · exact ⟨e, rfl⟩
  change ∃ e, exec (entry refuses p >>= _) t = _
  rw [exec_bind, exec_entry]
  rcases hreach : reach refuses t p with e | e
  · exact ⟨e, rfl⟩
  · obtain ⟨haccepted, hdirectories, rfl⟩ := reach_eq_ok.1 hreach
    have hdir : t.at p = some .directory := not_not.1 fun hfree => h ⟨haccepted, hdirectories, hfree⟩
    rw [hdir]
    exact ⟨_, rfl⟩

end File

/-! ## Versions -/

/-- **The trees hold versions of the same files**, and nothing else tells them apart. -/
def Versions (V : Path → List UInt8 → List UInt8 → Prop) (t t' : Tree) : Prop :=
  ∀ p, t p = t' p ∨ ∃ v v', V p v v' ∧ t p = some (.file v) ∧ t' p = some (.file v')

section Versions

variable {V : Path → List UInt8 → List UInt8 → Prop} {refuses : Path → Option IoError}
  {t t' : Tree} {p q : Path}

theorem Versions.refl (t : Tree) : Versions V t t := fun _ => .inl rfl

theorem Versions.symm (hV : ∀ p v v', V p v v' → V p v' v) (h : Versions V t t') :
    Versions V t' t := by
  intro p
  rcases h p with heq | ⟨v, v', hv, hat, hat'⟩
  · exact .inl heq.symm
  · exact .inr ⟨v', v, hV p v v' hv, hat', hat⟩

/-- One file is replaced by a version of it. -/
theorem versions_update {v v' : List UInt8} (hv : V p v v') (hp : t p = some (.file v)) :
    Versions V t (Function.update t p (some (.file v'))) := by
  intro q
  by_cases hq : q = p
  · rw [hq, Function.update_self]
    exact .inr ⟨v, v', hv, hp, rfl⟩
  · rw [Function.update_of_ne hq]
    exact .inl rfl

theorem Versions.at_cases (h : Versions V t t') (p : Path) : t.at p = t'.at p ∨
    ∃ v v', V p v v' ∧ t.at p = some (.file v) ∧ t'.at p = some (.file v') := by
  unfold Tree.at
  split
  · exact .inl rfl
  · exact h p

/-- A file without versions is the same. -/
theorem Versions.at_eq (h : Versions V t t') (hp : ∀ v v', ¬ V p v v') : t.at p = t'.at p := by
  rcases h.at_cases p with heq | ⟨v, v', hv, -, -⟩
  · exact heq
  · exact absurd hv (hp v v')

theorem Versions.directory_iff (h : Versions V t t') :
    t.at p = some .directory ↔ t'.at p = some .directory := by
  rcases h.at_cases p with heq | ⟨v, v', -, hv, hv'⟩
  · rw [heq]
  · rw [hv, hv']
    exact iff_of_false (fun h => nomatch h) fun h => nomatch h

theorem Versions.none_iff (h : Versions V t t') : t.at p = none ↔ t'.at p = none := by
  rcases h.at_cases p with heq | ⟨v, v', -, hv, hv'⟩
  · rw [heq]
  · rw [hv, hv']
    exact iff_of_false (fun h => nomatch h) fun h => nomatch h

theorem Versions.update (h : Versions V t t') (e : Option Entry) :
    Versions V (Function.update t p e) (Function.update t' p e) := by
  intro q
  by_cases hq : q = p
  · rw [hq, Function.update_self, Function.update_self]
    exact .inl rfl
  · rw [Function.update_of_ne hq, Function.update_of_ne hq]
    exact h q

/-- **A walk ends alike on both trees.** -/
theorem Versions.reach_cases (h : Versions V t t') (refuses : Path → Option IoError) (p : Path) :
    (∃ e, reach refuses t p = .error e ∧ reach refuses t' p = .error e) ∨
      reach refuses t p = .ok (t.at p) ∧ reach refuses t' p = .ok (t'.at p) := by
  have hwalk : p.inits.dropLast.forM (directoryAt t) = p.inits.dropLast.forM (directoryAt t') := by
    have hdir : directoryAt t = directoryAt t' := by
      funext q
      rw [directoryAt, directoryAt]
      rcases h.at_cases q with heq | ⟨v, v', -, hv, hv'⟩
      · rw [heq]
      · rw [hv, hv']
    rw [hdir]
  rw [reach, reach, hwalk]
  rcases (refuses p).forM fun e => (throw e : Except IoError PUnit) with e | a
  · exact .inl ⟨e, rfl, rfl⟩
  · rcases p.inits.dropLast.forM (directoryAt t') with e | b
    · exact .inl ⟨e, rfl, rfl⟩
    · exact .inr ⟨rfl, rfl⟩

/-- What is read of a file that is the same in both trees. -/
theorem Versions.readAt_eq (h : Versions V t t') (hp : t.at p = t'.at p) :
    readAt refuses t p = readAt refuses t' p := by
  rw [readAt, readAt]
  rcases h.reach_cases refuses p with ⟨e, he, he'⟩ | ⟨ht, ht'⟩
  · rw [he, he']
  · rw [ht, ht', hp]

/-- What is read at a path: the same in both trees, or versions of one file. -/
theorem Versions.readAt_cases (h : Versions V t t') (refuses : Path → Option IoError) (p : Path) :
    readAt refuses t p = readAt refuses t' p ∨ ∃ v v', V p v v' ∧ t.at p = some (.file v) ∧
      t'.at p = some (.file v') ∧ readAt refuses t p = .ok v ∧ readAt refuses t' p = .ok v' := by
  rcases h.at_cases p with heq | ⟨v, v', hv, hat, hat'⟩
  · exact .inl (h.readAt_eq heq)
  · rcases h.reach_cases refuses p with ⟨e, he, he'⟩ | ⟨ht, ht'⟩
    · left
      rw [readAt, readAt, he, he']
    · right
      exact ⟨v, v', hv, hat, hat', readAt_eq_ok.2 (hat ▸ ht), readAt_eq_ok.2 (hat' ▸ ht')⟩

/-- A computation on the files that does not tell the trees apart. -/
abbrev Unversed {α : Type} (V : Path → List UInt8 → List UInt8 → Prop) (x : FilesM α) : Prop :=
  Blind (Versions V) (Versions V) x fun _ => True

theorem unversed_put (e : Option Entry) : Unversed V (put p e) :=
  Blind.write (fun _ _ h => h.update e) trivial

theorem unversed_createDir {target : Path} : Unversed V (createDir refuses target p) := by
  intro t t' h
  rw [createDir, exec_get_bind, exec_get_bind]
  rcases h.at_cases p with heq | ⟨v, v', -, hv, hv'⟩
  · rw [← heq]
    rcases t.at p with _ | _ | _
    · exact (Blind.bind (.checked fun _ _ => trivial) fun _ _ => unversed_put _) t t' h
    · exact ⟨rfl, h, fun _ _ => trivial⟩
    · exact ⟨rfl, h, fun _ _ => trivial⟩
  · rw [hv, hv']
    exact ⟨rfl, h, fun _ _ => trivial⟩

theorem unversed_createDirAll : Unversed V (createDirAll refuses p) :=
  Blind.forM fun _ _ => unversed_createDir

/-- Only the kind of an entry decides what comes behind it. -/
theorem unversed_entry_bind {α : Type} {f : Option Entry → FilesM α}
    (hkind : ∀ bytes bytes', f (some (.file bytes)) = f (some (.file bytes')))
    (h : ∀ e, Unversed V (f e)) : Unversed V (entry refuses p >>= f) := by
  intro t t' ht
  rcases ht.reach_cases refuses p with ⟨e, he, he'⟩ | ⟨hreach, hreach'⟩
  · rw [exec_bind_error (exec_entry.trans (by rw [he])),
      exec_bind_error (exec_entry.trans (by rw [he']))]
    exact ⟨rfl, ht, fun _ _ => trivial⟩
  · rw [exec_bind_ok (exec_entry.trans (by rw [hreach])),
      exec_bind_ok (exec_entry.trans (by rw [hreach']))]
    rcases ht.at_cases p with heq | ⟨v, v', -, hv, hv'⟩
    · rw [heq]
      exact h _ t t' ht
    · rw [hv, hv', hkind v v']
      exact h _ t t' ht

theorem unversed_write (bytes : List UInt8) : Unversed V (write refuses p bytes) := by
  refine unversed_entry_bind (fun _ _ => rfl) fun e => ?_
  rcases e with _ | _ | _
  · exact unversed_put _
  · exact unversed_put _
  · exact .raise _

theorem unversed_read (hp : ∀ v v', ¬ V p v v') : Unversed V (read refuses p) := by
  refine Blind.read_bind (fun t t' h => ?_) fun t _ _ => .checked fun _ _ => trivial
  rw [h.readAt_eq (h.at_eq hp)]

/-- A file is moved anywhere if it has no versions itself. -/
theorem unversed_rename (hp : ∀ v v', ¬ V p v v') : Unversed V (rename refuses p q) := by
  refine Blind.bind (unversed_read hp) fun bytes _ => unversed_entry_bind (fun _ _ => rfl) fun e => ?_
  rcases e with _ | _ | _
  · exact Blind.bind (unversed_put _) fun _ _ => unversed_put _
  · exact Blind.bind (unversed_put _) fun _ _ => unversed_put _
  · exact .raise _

/-- A file is removed whatever it holds. -/
theorem unversed_removeFile : Unversed V (removeFile refuses p) := by
  intro t t' h
  rw [removeFile, exec_bind, exec_bind, exec_read, exec_read, readAt, readAt]
  rcases h.reach_cases refuses p with ⟨e, he, he'⟩ | ⟨hreach, hreach'⟩
  · rw [he, he']
    exact ⟨rfl, h, fun _ _ => trivial⟩
  · rw [hreach, hreach']
    rcases h.at_cases p with heq | ⟨v, v', -, hv, hv'⟩
    · rw [heq]
      rcases t'.at p with _ | _ | _
      · exact ⟨rfl, h, fun _ _ => trivial⟩
      · exact unversed_put none t t' h
      · exact ⟨rfl, h, fun _ _ => trivial⟩
    · rw [hv, hv']
      exact unversed_put none t t' h

end Versions

end Files
