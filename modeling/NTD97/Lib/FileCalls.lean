import Mathlib
import NTD97.Lib.Files
import NTD97.Lib.Steps

/-!
# Lib/FileCalls — programs over a tree of files

    stat ▪ makeDir ▪ read ▪ create ▪ append ▪ sync ▪ rename ▪ remove

Each call of `Files`, one step each: writing a file is to create it, to append to it and to sync it.
A call does its work, or it fails and leaves the tree as it was; only what is appended may be there
in part.
-/

namespace Files

open Effect Guard Steps

/-- What `symlink_metadata` tells about a path. -/
inductive Kind where
  | file (length : ℕ)
  | directory
  | link
  deriving DecidableEq

inductive FileCall where
  /-- `Path::exists`, which follows links. -/
  | stat (path : Path)
  /-- `fs::symlink_metadata`. -/
  | metadata (path : Path)
  /-- `fs::canonicalize`. -/
  | canonicalize (path : Path)
  /-- One directory of `fs::create_dir_all`. -/
  | makeDir (target path : Path)
  /-- `fs::create_dir`. -/
  | createDir (path : Path)
  /-- `fs::read`. -/
  | read (path : Path)
  /-- `File::create`. -/
  | create (path : Path)
  /-- `OpenOptions::create_new`. -/
  | createNew (path : Path)
  /-- `write_all` to the file that was created. -/
  | append (path : Path) (bytes : List UInt8)
  /-- `sync_all` of an open file. -/
  | sync (path : Path)
  /-- `fs::rename`. -/
  | rename (source target : Path)
  /-- `fs::remove_file`. -/
  | remove (path : Path)
  deriving DecidableEq

def FileCall.Answer : FileCall → Type
  | .metadata _ => Kind
  | .canonicalize _ => Path
  | .read _ => List UInt8
  | _ => Unit

/-- The answer to a call, or why it failed. -/
abbrev Reply (c : FileCall) : Type := Except IoError c.Answer

abbrev FileProg := Prog Reply

/-- One call, its failure told with the words of the caller. -/
def ask (describe : IoError → String) (what : String) (c : FileCall) : FileProg String c.Answer :=
  .call c fun reply => .ret (reply.mapError fun e => what ++ ": " ++ describe e)

theorem calls_ask {P : FileCall → Prop} {describe : IoError → String} {what : String}
    {c : FileCall} (h : P c) : Calls P (ask describe what c) := ⟨h, fun _ => trivial⟩

/-- What comes behind one call. -/
theorem then_ask {P Q : FileCall → Prop} {α : Type} {describe : IoError → String} {what : String}
    {c : FileCall} {f : c.Answer → FileProg String α} (h : ∀ a, Calls Q (f a)) :
    Then P Q (ask describe what c >>= f) := by
  have hrest (r : Reply c) : Calls Q
      ((Prog.ret (r.mapError fun e => what ++ ": " ++ describe e) : FileProg String _) >>= f) :=
    Calls.bind h trivial
  exact ⟨fun _ => hrest, fun r => Then.of_calls (hrest r)⟩

/-! ## The calls on a tree without links -/

section Answer

variable (refuses : Path → Option IoError)

/-- What an entry is. -/
def kindOf : Option Entry → Except IoError Kind
  | some (.file bytes) => .ok (.file bytes.length)
  | some .directory => .ok .directory
  | none => .error .notFound

/-- What is appended goes to the end of the file, if it still has a name. -/
def appended (t : Tree) (path : Path) (bytes : List UInt8) : Tree :=
  match t.at path with
  | some (.file old) => Function.update t path (some (.file (old ++ bytes)))
  | _ => t

/-- A new entry where there is none. -/
def putNew (path : Path) (entry : Entry) : FilesM Unit := do
  match ← Files.entry refuses path with
  | some _ => throw .alreadyExists
  | none => put path (some entry)

/-- **A call that is not disturbed.** -/
def answer : (c : FileCall) → Tree → Reply c × Tree
  | .stat path, t => ((reach refuses t path >>= kindOf).map fun _ => (), t)
  | .metadata path, t => (reach refuses t path >>= kindOf, t)
  | .canonicalize path, t => ((reach refuses t path >>= kindOf).map fun _ => path, t)
  | .makeDir target path, t => exec (Files.createDir refuses target path) t
  | .createDir path, t => exec (putNew refuses path .directory) t
  | .read path, t => (readAt refuses t path, t)
  | .create path, t => exec (Files.write refuses path []) t
  | .createNew path, t => exec (putNew refuses path (.file [])) t
  | .append path bytes, t => (.ok (), appended t path bytes)
  | .sync _, t => (.ok (), t)
  | .rename source target, t => exec (Files.rename refuses source target) t
  | .remove path, t => exec (Files.removeFile refuses path) t

/-- **What a call may do**: its work, nothing, or some of what it appends; a failure of the host has a
code of its own. -/
inductive DoesFile : Does Reply Tree
  | done (c : FileCall) (t : Tree) : DoesFile c t (answer refuses c t).1 (answer refuses c t).2
  | fails (c : FileCall) (t : Tree) (code : ℕ) : DoesFile c t (.error (.host code)) t
  | stops (path : Path) (bytes part : List UInt8) (t : Tree) (code : ℕ) (h : part <+: bytes) :
      DoesFile (.append path bytes) t (.error (.host code)) (appended t path part)

end Answer

/-! ## Trees with more directories -/

/-- **The same tree, but for some directories of `D` that are not there yet.** -/
def MoreDirs (D : Path → Prop) (t t' : Tree) : Prop :=
  ∀ q, t' q = t q ∨ (D q ∧ t q = none ∧ t' q = some .directory)

section MoreDirs

variable {D : Path → Prop} {t t' u u' : Tree} {p q : Path} {refuses : Path → Option IoError}

theorem MoreDirs.refl (t : Tree) : MoreDirs D t t := fun _ => .inl rfl

theorem MoreDirs.trans {t'' : Tree} (h : MoreDirs D t t') (h' : MoreDirs D t' t'') :
    MoreDirs D t t'' := by
  intro q
  rcases h q with hq | ⟨hD, hnone, hdir⟩ <;> rcases h' q with hq' | ⟨hD', hnone', hdir'⟩
  · exact .inl (hq'.trans hq)
  · exact .inr ⟨hD', hq ▸ hnone', hdir'⟩
  · exact .inr ⟨hD, hnone, hq'.trans hdir⟩
  · rw [hdir] at hnone'
    cases hnone'

/-- What is there stays there. -/
theorem MoreDirs.at_some (h : MoreDirs D t t') {e : Entry} (he : t.at p = some e) :
    t'.at p = some e := by
  unfold Tree.at at he ⊢
  split
  · next hp => rwa [if_pos hp] at he
  · next hp =>
    rw [if_neg hp] at he
    rcases h p with hq | ⟨-, hnone, -⟩
    · exact hq.trans he
    · rw [hnone] at he
      cases he

/-- A file that is there was there. -/
theorem MoreDirs.at_file_iff (h : MoreDirs D t t') {bytes : List UInt8} :
    t'.at p = some (.file bytes) ↔ t.at p = some (.file bytes) := by
  refine ⟨fun hfile => ?_, h.at_some⟩
  unfold Tree.at at hfile ⊢
  split at hfile
  · cases hfile
  · next hp =>
    rw [if_neg hp]
    rcases h p with hq | ⟨-, -, hdir⟩
    · exact hq ▸ hfile
    · rw [hdir] at hfile
      cases hfile

theorem directoryAt_eq_ok : directoryAt t p = .ok () ↔ t.at p = some .directory := by
  unfold directoryAt
  rcases t.at p with _ | ⟨_ | _⟩ <;> simp

theorem forM_refuses_eq_ok {e : Option IoError} :
    (e.forM fun e => (throw e : Except IoError PUnit)) = .ok ⟨⟩ ↔ e = none := by
  cases e with
  | none => exact iff_of_true rfl rfl
  | some e => exact iff_of_false (fun h => by cases h) (fun h => by cases h)

theorem reach_eq_ok {e : Option Entry} : reach refuses t p = .ok e ↔
    refuses p = none ∧ (∀ q ∈ p.inits.dropLast, t.at q = some .directory) ∧ t.at p = e := by
  rw [reach]
  simp only [bind_eq_ok, exists_unit, pure_eq_ok, forM_refuses_eq_ok, forM_eq_ok, directoryAt_eq_ok]

theorem readAt_eq_ok {bytes : List UInt8} : readAt refuses t p = .ok bytes ↔
    reach refuses t p = .ok (some (.file bytes)) := by
  rw [readAt, bind_eq_ok]
  constructor
  · rintro ⟨e, he, hr⟩
    rcases e with _ | ⟨_ | _⟩
    · cases hr
    · rw [he]
      cases hr
      rfl
    · cases hr
  · intro h
    exact ⟨_, h, rfl⟩

/-- What could be reached can be reached. -/
theorem MoreDirs.reach_some (h : MoreDirs D t t') {e : Entry}
    (he : reach refuses t p = .ok (some e)) : reach refuses t' p = .ok (some e) := by
  obtain ⟨hrefuses, hwalk, hat⟩ := reach_eq_ok.1 he
  exact reach_eq_ok.2 ⟨hrefuses, fun q hq => h.at_some (hwalk q hq), h.at_some hat⟩

/-- With all its directories there, a tree has no more. -/
theorem MoreDirs.eq_of_all (h : MoreDirs D t t') (hall : ∀ q, D q → t q = some .directory) :
    t' = t := by
  funext q
  rcases h q with hq | ⟨hD, hnone, -⟩
  · exact hq
  · rw [hall q hD] at hnone
    cases hnone

end MoreDirs

/-! ## One directory after another -/

section Directories

variable {refuses : Path → Option IoError} {describe : IoError → String} {D : Path → Prop}

theorem at_update {t : Tree} {p q : Path} {e : Option Entry} (hp : p ≠ []) :
    Tree.at (Function.update t p e) q = if q = p then e else t.at q := by
  unfold Tree.at
  by_cases hq : q = []
  · rw [if_pos hq, if_pos hq, if_neg fun h => hp (h.symm.trans hq)]
  · rw [if_neg hq, if_neg hq, Function.update_apply]

theorem ne_nil_of_at {t : Tree} {p : Path} (h : t.at p ≠ some .directory) : p ≠ [] := by
  rintro rfl
  exact h rfl

/-- What is appended to a file that was just put there. -/
theorem appended_update {t : Tree} {p : Path} {old bytes : List UInt8} (hp : p ≠ []) :
    appended (Function.update t p (some (.file old))) p bytes =
      Function.update t p (some (.file (old ++ bytes))) := by
  have hat : Tree.at (Function.update t p (some (.file old))) p = some (.file old) := by
    rw [at_update hp, if_pos rfl]
  unfold appended
  rw [hat]
  exact Function.update_idem ..

variable {t : Tree} {target p : Path}

/-- The rest of a call for one directory, by what is there. -/
def makeDirAt (refuses : Path → Option IoError) (target p : Path) :
    Option Entry → Files.FilesM Unit
  | some .directory => pure ()
  | some (.file _) => throw (if p = target then .alreadyExists else .notADirectory)
  | none => do
    Effect.check id ((refuses p).forM fun e => throw e)
    Files.put p (some .directory)

theorem answer_makeDir : answer refuses (.makeDir target p) t =
    Effect.exec (makeDirAt refuses target p (t.at p)) t := by
  change Effect.exec (Files.createDir refuses target p) t = _
  unfold Files.createDir
  rw [Effect.exec_bind]
  change Effect.exec (match t.at p with
    | some .directory => _
    | some (.file _) => _
    | none => _) t = _
  rcases t.at p with _ | ⟨_ | _⟩ <;> rfl

theorem answer_makeDir_there (h : t.at p = some .directory) :
    answer refuses (.makeDir target p) t = (.ok (), t) := by
  rw [answer_makeDir, h]
  rfl

theorem answer_makeDir_new (h : t.at p = none) (hrefuses : refuses p = none) :
    answer refuses (.makeDir target p) t = (.ok (), Function.update t p (some .directory)) := by
  rw [answer_makeDir, h, makeDirAt, hrefuses]
  rfl

theorem answer_makeDir_error (target : Path) (hdir : t.at p ≠ some .directory)
    (hnone : t.at p = none → refuses p ≠ none) :
    ∃ e, answer refuses (.makeDir target p) t = (.error e, t) := by
  rw [answer_makeDir]
  rcases hat : t.at p with _ | ⟨_ | _⟩
  · obtain ⟨e, he⟩ := Option.ne_none_iff_exists'.1 (hnone hat)
    refine ⟨e, ?_⟩
    rw [makeDirAt, he]
    rfl
  · exact ⟨_, rfl⟩
  · exact absurd hat hdir

/-- **A call for a directory that succeeds** leaves a directory there, and everything else alone. -/
theorem answer_makeDir_ok {a : Unit} {u : Tree} (hD : p ≠ [] → D p)
    (h : answer refuses (.makeDir target p) t = (.ok a, u)) :
    u.at p = some .directory ∧ MoreDirs D t u := by
  by_cases hdir : t.at p = some .directory
  · rw [answer_makeDir_there hdir] at h
    obtain ⟨-, rfl⟩ := Prod.mk.inj h
    exact ⟨hdir, .refl t⟩
  · have hp := ne_nil_of_at hdir
    by_cases hnew : t.at p = none ∧ refuses p = none
    · rw [answer_makeDir_new hnew.1 hnew.2] at h
      obtain ⟨-, rfl⟩ := Prod.mk.inj h
      refine ⟨by rw [at_update hp, if_pos rfl], fun q => ?_⟩
      rw [Function.update_apply]
      split
      · next hq =>
        have hnone := hnew.1
        rw [Tree.at, if_neg hp] at hnone
        exact .inr ⟨hq ▸ hD hp, hq ▸ hnone, rfl⟩
      · exact .inl rfl
    · obtain ⟨e, he⟩ := answer_makeDir_error target hdir fun hnone hrefuses =>
        hnew ⟨hnone, hrefuses⟩
      rw [he] at h
      cases h

/-- A call for a directory is answered alike where there are more. -/
theorem answer_makeDir_moreDirs {a : Unit} {u t' : Tree} (h : MoreDirs D t t')
    (hu : answer refuses (.makeDir target p) t = (.ok a, u)) :
    ∃ u', answer refuses (.makeDir target p) t' = (.ok a, u') ∧ MoreDirs D u u' := by
  by_cases hdir : t.at p = some .directory
  · rw [answer_makeDir_there hdir] at hu
    obtain ⟨-, rfl⟩ := Prod.mk.inj hu
    exact ⟨t', answer_makeDir_there (h.at_some hdir), h⟩
  · have hp := ne_nil_of_at hdir
    by_cases hnew : t.at p = none ∧ refuses p = none
    · rw [answer_makeDir_new hnew.1 hnew.2] at hu
      obtain ⟨-, rfl⟩ := Prod.mk.inj hu
      have hmore (v : Tree) (hv : v p = some .directory) (hother : ∀ q, q ≠ p → v q = t' q) :
          MoreDirs D (Function.update t p (some .directory)) v := by
        intro q
        by_cases hq : q = p
        · rw [hq, Function.update_self]
          exact .inl hv
        · rw [Function.update_of_ne hq, hother q hq]
          exact h q
      have hat : t'.at p = t' p := if_neg hp
      rcases h p with hsame | ⟨-, -, hthere⟩
      · have hnone : t'.at p = none := by
          rw [hat, hsame]
          exact (if_neg hp).symm.trans hnew.1
        exact ⟨_, answer_makeDir_new hnone hnew.2, hmore _ (Function.update_self ..) fun q hq =>
          Function.update_of_ne hq _ _⟩
      · exact ⟨t', answer_makeDir_there (hat.trans hthere), hmore t' hthere fun _ _ => rfl⟩
    · obtain ⟨e, he⟩ := answer_makeDir_error target hdir fun hnone hrefuses =>
        hnew ⟨hnone, hrefuses⟩
      rw [he] at hu
      cases hu

end Directories

/-! ## The same program on more directories -/

section Alike

variable {refuses : Path → Option IoError} {describe : IoError → String} {D : Path → Prop}
  {t t' : Tree} {α β : Type}

/-- **What a program does on `t`, it does on `t'`**, if it succeeds. -/
def Alike (refuses : Path → Option IoError) (D : Path → Prop) (p : FileProg String α)
    (t t' : Tree) : Prop :=
  ∀ a u, execute (answer refuses) p t = (.ok a, u) →
    ∃ u', execute (answer refuses) p t' = (.ok a, u') ∧ MoreDirs D u u'

theorem Alike.bind {p : FileProg String α} {f : α → FileProg String β}
    (h : Alike refuses D p t t') (hf : ∀ a u u', execute (answer refuses) p t = (.ok a, u) →
      MoreDirs D u u' → Alike refuses D (f a) u u') : Alike refuses D (p >>= f) t t' := by
  intro b v hv
  rw [execute_bind] at hv
  rcases hp : execute (answer refuses) p t with ⟨e | a, u⟩
  · rw [hp] at hv
    cases hv
  · rw [hp] at hv
    obtain ⟨u', hu', hmore⟩ := h a u hp
    obtain ⟨v', hv', hmore'⟩ := hf a u u' hp hmore b v hv
    exact ⟨v', (execute_bind_ok hu').trans hv', hmore'⟩

/-- A program that makes no calls. -/
theorem Alike.of_check (r : Except String α) (h : MoreDirs D t t') :
    Alike refuses D (Prog.check r) t t' := by
  intro a u hu
  obtain ⟨rfl, rfl⟩ := Prod.mk.inj hu
  exact ⟨t', rfl, h⟩

theorem Alike.of_refuse {c : Prop} [Decidable c] {e : String} (h : MoreDirs D t t') :
    Alike refuses D (refuse c e) t t' := by
  unfold Guard.refuse
  split
  · exact Alike.of_check (.error e) h
  · exact Alike.of_check (.ok ()) h

/-- One call. -/
theorem Alike.of_ask {what : String} {c : FileCall}
    (h : ∀ a u, answer refuses c t = (.ok a, u) →
      ∃ u', answer refuses c t' = (.ok a, u') ∧ MoreDirs D u u') :
    Alike refuses D (ask describe what c) t t' := by
  intro a u hu
  change ((answer refuses c t).1.mapError _, (answer refuses c t).2) = _ at hu
  rcases hc : answer refuses c t with ⟨e | a', u'⟩
  · rw [hc] at hu
    cases hu
  · rw [hc] at hu
    obtain ⟨ha, rfl⟩ := Prod.mk.inj hu
    obtain ⟨v, hv, hmore⟩ := h a' u' hc
    refine ⟨v, ?_, hmore⟩
    change ((answer refuses c t').1.mapError _, (answer refuses c t').2) = _
    rw [hv, ← ha]

end Alike

/-! ## Undisturbed runs -/

section Undisturbed

variable {refuses : Path → Option IoError} {describe : IoError → String} {D : Path → Prop}
  {t t' u : Tree} {α β : Type}

theorem execute_bind_eq_ok {p : FileProg String α} {f : α → FileProg String β} {b : β} :
    execute (answer refuses) (p >>= f) t = (.ok b, u) ↔
      ∃ a v, execute (answer refuses) p t = (.ok a, v) ∧
        execute (answer refuses) (f a) v = (.ok b, u) := by
  rw [execute_bind]
  rcases execute (answer refuses) p t with ⟨e | a, v⟩
  · constructor
    · intro h
      cases h
    · rintro ⟨a, v, h, -⟩
      cases h
  · constructor
    · intro h
      exact ⟨a, v, rfl, h⟩
    · rintro ⟨a', v', h, hrest⟩
      cases h
      exact hrest

theorem execute_ask_eq_ok {what : String} {c : FileCall} {a : c.Answer} :
    execute (answer refuses) (ask describe what c) t = (.ok a, u) ↔
      answer refuses c t = (.ok a, u) := by
  change ((answer refuses c t).1.mapError _, (answer refuses c t).2) = _ ↔ _
  rcases answer refuses c t with ⟨e | a', v⟩
  · constructor
    · intro h
      cases h
    · intro h
      cases h
  · constructor
    · intro h
      cases h
      rfl
    · intro h
      cases h
      rfl

theorem execute_refuse_eq_ok {c : Prop} [Decidable c] {e : String} {a : Unit} :
    execute (answer refuses) (refuse c e) t = (.ok a, u) ↔ ¬ c ∧ t = u := by
  unfold Guard.refuse
  split
  · next hc => exact iff_of_false (fun h => by cases h) fun h => h.1 hc
  · next hc =>
    constructor
    · intro h
      cases h
      exact ⟨hc, rfl⟩
    · rintro ⟨-, rfl⟩
      rfl

theorem execute_refuse_no {c : Prop} [Decidable c] {e : String} (hc : ¬ c) :
    execute (answer refuses) (refuse c e : FileProg String Unit) t = (.ok (), t) :=
  execute_refuse_eq_ok.2 ⟨hc, rfl⟩

theorem returns_ask {I : Tree → Prop} {what : String} {c : FileCall} {a : c.Answer}
    (h : ∀ t, I t → (answer refuses c t).1 = .ok a) :
    Returns (answer refuses) I (.ok a) (ask describe what c) := by
  intro t ht
  rw [h t ht]
  rfl

theorem returns_refuse {I : Tree → Prop} {c : Prop} [Decidable c] {e : String} (hc : ¬ c) :
    Returns (answer refuses) I (.ok ()) (refuse c e : FileProg String Unit) := by
  rw [Guard.refuse, if_neg hc]
  rfl

/-- **What a rename does.** -/
theorem answer_rename_ok {source target : Path} {a : Unit}
    (h : answer refuses (.rename source target) t = (.ok a, u)) :
    ∃ bytes, readAt refuses t source = .ok bytes ∧
      (∃ e, reach refuses t target = .ok e ∧ e ≠ some .directory) ∧
      u = Function.update (Function.update t source none) target (some (.file bytes)) := by
  change Effect.exec (Files.rename refuses source target) t = _ at h
  unfold Files.rename at h
  rw [Effect.exec_bind] at h
  have hread : Effect.exec (Files.read refuses source) t = (readAt refuses t source, t) := by
    change Effect.exec (Effect.check id (readAt refuses t source)) t = _
    cases readAt refuses t source <;> rfl
  rw [hread] at h
  rcases hbytes : readAt refuses t source with e | bytes
  · rw [hbytes] at h
    cases h
  · rw [hbytes] at h
    change Effect.exec (Files.entry refuses target >>= _) t = _ at h
    rw [Effect.exec_bind] at h
    have hentry : Effect.exec (Files.entry refuses target) t = (reach refuses t target, t) := by
      change Effect.exec (Effect.check id (reach refuses t target)) t = _
      cases reach refuses t target <;> rfl
    rw [hentry] at h
    rcases hreach : reach refuses t target with e | e
    · rw [hreach] at h
      cases h
    · rw [hreach] at h
      rcases e with _ | ⟨_ | _⟩
      · cases h
        exact ⟨bytes, rfl, ⟨_, rfl, by simp⟩, rfl⟩
      · cases h
        exact ⟨bytes, rfl, ⟨_, rfl, by simp⟩, rfl⟩
      · cases h

end Undisturbed

section Exec

variable {refuses : Path → Option IoError} {t : Tree}

theorem exec_entry {path : Path} :
    exec (Files.entry refuses path) t = (reach refuses t path, t) := by
  change exec (check id (reach refuses t path)) t = _
  cases reach refuses t path <;> rfl

theorem exec_read {path : Path} :
    exec (Files.read refuses path) t = (readAt refuses t path, t) := by
  change exec (check id (readAt refuses t path)) t = _
  cases readAt refuses t path <;> rfl

end Exec

/-! ## Files that can be reached -/

section Reachable

variable {refuses : Path → Option IoError} {t : Tree} {path : Path} {old : List UInt8}

/-- The directories above a path. -/
theorem inits_dropLast (hne : path ≠ []) : path.inits.dropLast = path.dropLast.inits := by
  have hparts := List.inits_append path.dropLast [path.getLast hne]
  rw [List.dropLast_append_getLast] at hparts
  rw [hparts]
  simp

theorem ne_of_mem_inits_dropLast {q : Path} (hne : path ≠ []) (hq : q ∈ path.inits.dropLast) :
    q ≠ path := by
  rintro rfl
  rw [inits_dropLast hne, List.mem_inits] at hq
  have hlength := hq.length_le
  have hpos := List.length_pos_iff.2 hne
  rw [List.length_dropLast] at hlength
  omega

theorem mem_inits_dropLast {q : Path} (hq : q <+: path) (hne : q ≠ path) :
    q ∈ path.inits.dropLast := by
  obtain ⟨rest, rfl⟩ := hq
  have hrest : rest ≠ [] := by
    rintro rfl
    exact hne (List.append_nil q).symm
  rw [inits_dropLast (List.append_ne_nil_of_right_ne_nil _ hrest), List.mem_inits,
    List.dropLast_append_of_ne_nil hrest]
  exact List.prefix_append _ _

/-- A directory above a path that can be reached. -/
theorem reach_of_isPrefix {q : Path} {e : Option Entry} (h : reach refuses t path = .ok e)
    (hq : q <+: path) (hne : q ≠ path) (hrefuses : refuses q = none) :
    reach refuses t q = .ok (some .directory) := by
  obtain ⟨-, hwalk, -⟩ := reach_eq_ok.1 h
  refine reach_eq_ok.2 ⟨hrefuses, fun q' hq' => hwalk q' ?_, hwalk q (mem_inits_dropLast hq hne)⟩
  have hbegins := (List.mem_inits ..).1 (List.mem_of_mem_dropLast hq')
  refine mem_inits_dropLast (hbegins.trans hq) ?_
  rintro rfl
  exact hne (hq.eq_of_length_le hbegins.length_le)

theorem answer_canonicalize_there {e : Entry} (h : reach refuses t path = .ok (some e)) :
    answer refuses (.canonicalize path) t = (.ok path, t) := by
  change (Except.map _ (reach refuses t path >>= kindOf), t) = _
  rw [h]
  cases e <;> rfl

theorem answer_metadata_file (h : reach refuses t path = .ok (some (.file old))) :
    answer refuses (.metadata path) t = (.ok (.file old.length), t) := by
  change (reach refuses t path >>= kindOf, t) = _
  rw [h]
  rfl

theorem answer_read_file (h : reach refuses t path = .ok (some (.file old))) :
    answer refuses (.read path) t = (.ok old, t) :=
  Prod.ext (readAt_eq_ok.2 h) rfl

theorem answer_remove_file (h : reach refuses t path = .ok (some (.file old))) :
    answer refuses (.remove path) t = (.ok (), Function.update t path none) := by
  have hread : readAt refuses t path = .ok old := readAt_eq_ok.2 h
  change exec (Files.removeFile refuses path) t = _
  unfold Files.removeFile
  rw [exec_bind, exec_read, hread]
  rfl

/-- A file goes where none but a file stands. -/
theorem answer_rename_file {target : Path} {e : Option Entry}
    (h : reach refuses t path = .ok (some (.file old))) (htarget : reach refuses t target = .ok e)
    (he : e ≠ some .directory) :
    answer refuses (.rename path target) t =
      (.ok (), Function.update (Function.update t path none) target (some (.file old))) := by
  have hread : readAt refuses t path = .ok old := readAt_eq_ok.2 h
  change exec (Files.rename refuses path target) t = _
  unfold Files.rename
  rw [exec_bind, exec_read, hread]
  change exec (Files.entry refuses target >>= _) t = _
  rw [exec_bind, exec_entry, htarget]
  rcases e with _ | _ | _
  · rfl
  · rfl
  · exact absurd rfl he

/-- A new entry is put where there was none. -/
theorem exec_putNew_ok {entry : Entry} {u : Tree} {a : Unit}
    (h : exec (putNew refuses path entry) t = (.ok a, u)) :
    reach refuses t path = .ok none ∧ u = Function.update t path (some entry) := by
  unfold putNew at h
  rw [exec_bind, exec_entry] at h
  rcases hreach : reach refuses t path with e | there
  · rw [hreach] at h
    cases h
  · rw [hreach] at h
    rcases there with _ | there
    · cases h
      exact ⟨rfl, rfl⟩
    · cases h

/-- A file that was put where it could be reached can be reached. -/
theorem reach_update_self {e : Option Entry} (hne : path ≠ []) (h : reach refuses t path = .ok e)
    (bytes : List UInt8) :
    reach refuses (Function.update t path (some (.file bytes))) path = .ok (some (.file bytes)) := by
  obtain ⟨hrefuses, hwalk, -⟩ := reach_eq_ok.1 h
  refine reach_eq_ok.2 ⟨hrefuses, fun q hq => ?_, ?_⟩
  · rw [at_update hne, if_neg (ne_of_mem_inits_dropLast hne hq)]
    exact hwalk q hq
  · rw [at_update hne, if_pos rfl]

theorem moreDirs_update {D : Path → Prop} (hne : path ≠ []) (hD : D path) (h : t.at path = none) :
    MoreDirs D t (Function.update t path (some .directory)) := by
  intro q
  by_cases hq : q = path
  · rw [hq, Function.update_self]
    rw [Tree.at, if_neg hne] at h
    exact .inr ⟨hD, h, rfl⟩
  · rw [Function.update_of_ne hq]
    exact .inl rfl

theorem answer_create_file (h : reach refuses t path = .ok (some (.file old))) :
    answer refuses (.create path) t = (.ok (), Function.update t path (some (.file []))) := by
  change exec (Files.write refuses path []) t = _
  unfold Files.write
  rw [exec_bind, exec_entry, h]
  rfl

end Reachable

/-! ## Calls that may fail -/

section Failing

variable {refuses : Path → Option IoError} {t u : Tree} {α : Type}

/-- A call that looks at an entry first, and writes only if it likes what is there. -/
theorem exec_entry_bind {path : Path} {f : Option Entry → FilesM α}
    (hf : ∀ e, (∃ error, exec (f e) t = (.error error, t)) ∨ ∃ a, (exec (f e) t).1 = .ok a)
    {error : IoError} (h : (exec (Files.entry refuses path >>= f) t).1 = .error error) :
    (exec (Files.entry refuses path >>= f) t).2 = t := by
  rw [exec_bind, exec_entry] at h ⊢
  rcases hreach : reach refuses t path with e | e
  · rfl
  · rw [hreach] at h
    rcases hf e with ⟨error, herror⟩ | ⟨a, ha⟩
    · change (exec (f e) t).2 = t
      rw [herror]
    · change (exec (f e) t).1 = _ at h
      rw [ha] at h
      cases h

theorem exec_rename_error {source target : Path} {e : IoError}
    (h : (exec (Files.rename refuses source target) t).1 = .error e) :
    (exec (Files.rename refuses source target) t).2 = t := by
  unfold Files.rename at h ⊢
  rw [exec_bind, exec_read] at h ⊢
  rcases hread : readAt refuses t source with e' | bytes
  · rfl
  · rw [hread] at h
    refine exec_entry_bind (fun there => ?_) h
    rcases there with _ | _ | _
    · exact .inr ⟨(), rfl⟩
    · exact .inr ⟨(), rfl⟩
    · exact .inl ⟨_, rfl⟩

theorem exec_removeFile_error {path : Path} {e : IoError}
    (h : (exec (Files.removeFile refuses path) t).1 = .error e) :
    (exec (Files.removeFile refuses path) t).2 = t := by
  unfold Files.removeFile at h ⊢
  rw [exec_bind, exec_read] at h ⊢
  rcases hread : readAt refuses t path with e' | bytes
  · rfl
  · rw [hread] at h
    cases h

/-- A file that was created is empty. -/
theorem answer_create_ok {path : Path} {a : Unit}
    (h : answer refuses (.create path) t = (.ok a, u)) :
    (∃ e, reach refuses t path = .ok e ∧ e ≠ some .directory) ∧
      u = Function.update t path (some (.file [])) := by
  change exec (Files.write refuses path []) t = _ at h
  unfold Files.write at h
  rw [exec_bind, exec_entry] at h
  rcases hreach : reach refuses t path with e | e
  · rw [hreach] at h
    cases h
  · rw [hreach] at h
    rcases e with _ | _ | _
    · cases h
      exact ⟨⟨_, rfl, by simp⟩, rfl⟩
    · cases h
      exact ⟨⟨_, rfl, by simp⟩, rfl⟩
    · cases h

theorem answer_append_ok {path : Path} {bytes : List UInt8} {a : Unit}
    (h : answer refuses (.append path bytes) t = (.ok a, u)) : u = appended t path bytes := by
  cases h
  rfl

/-- **A call that fails of itself leaves the tree alone.** -/
theorem answer_error : ∀ {c : FileCall} {e : IoError}, (answer refuses c t).1 = .error e →
    (answer refuses c t).2 = t
  | .stat _, _, _ | .metadata _, _, _ | .canonicalize _, _, _ | .read _, _, _ | .sync _, _, _ => rfl
  | .append _ _, _, h => by cases h
  | .makeDir target path, e, h => by
      by_cases hdir : t.at path = some .directory
      · rw [answer_makeDir_there hdir]
      · by_cases hnew : t.at path = none ∧ refuses path = none
        · rw [answer_makeDir_new hnew.1 hnew.2] at h
          cases h
        · obtain ⟨e', he⟩ := answer_makeDir_error target hdir fun hnone hrefuses =>
            hnew ⟨hnone, hrefuses⟩
          rw [he]
  | .createDir path, e, h | .createNew path, e, h => by
      refine exec_entry_bind (fun there => ?_) h
      cases there with
      | none => exact .inr ⟨(), rfl⟩
      | some there => exact .inl ⟨_, rfl⟩
  | .create path, e, h => by
      refine exec_entry_bind (fun there => ?_) h
      rcases there with _ | _ | _
      · exact .inr ⟨(), rfl⟩
      · exact .inr ⟨(), rfl⟩
      · exact .inl ⟨_, rfl⟩
  | .rename source target, e, h => exec_rename_error h
  | .remove path, e, h => exec_removeFile_error h

/-- A call that succeeds has done its work. -/
theorem doesFile_ok {c : FileCall} {a : c.Answer} (h : DoesFile refuses c t (.ok a) u) :
    answer refuses c t = (.ok a, u) := by
  generalize hr : (Except.ok a : Reply c) = r at h
  cases h with
  | done => rfl
  | fails => cases hr
  | stops => cases hr

/-- A call that fails has done nothing, or has appended in part. -/
theorem doesFile_error {c : FileCall} {e : IoError} (hc : ∀ path bytes, c ≠ .append path bytes)
    (h : DoesFile refuses c t (.error e) u) : u = t := by
  generalize hr : (Except.error e : Reply c) = r at h
  cases h with
  | done => exact answer_error hr.symm
  | fails => rfl
  | stops path bytes => exact absurd rfl (hc path bytes)

/-- A call fails of itself, or by the host. -/
theorem doesFile_error_cases {c : FileCall} {e : IoError}
    (hc : ∀ path bytes, c ≠ .append path bytes) (h : DoesFile refuses c t (.error e) u) :
    (answer refuses c t).1 = .error e ∨ ∃ code, e = .host code := by
  generalize hr : (Except.error e : Reply c) = r at h
  cases h with
  | done => exact .inl rfl
  | fails => exact .inr ⟨_, Except.error.inj hr⟩
  | stops path bytes => exact absurd rfl (hc path bytes)

theorem appended_nil {path : Path} : appended t path [] = t := by
  unfold appended
  split
  · next old hat =>
    have hne := ne_nil_of_at (t := t) (p := path) (by rw [hat]; simp)
    rw [Tree.at, if_neg hne] at hat
    rw [List.append_nil, ← hat, Function.update_eq_self]
  · rfl

/-- What is appended is all of it, or some of it where the host failed. -/
theorem doesFile_append {path : Path} {bytes : List UInt8} {r : Reply (.append path bytes)}
    (h : DoesFile refuses (.append path bytes) t r u) :
    ∃ part, u = appended t path part ∧ ∀ a, r = .ok a → part = bytes := by
  cases h with
  | done => exact ⟨bytes, rfl, fun _ _ => rfl⟩
  | fails => exact ⟨[], appended_nil.symm, fun _ h => by cases h⟩
  | stops _ _ part => exact ⟨part, rfl, fun _ h => by cases h⟩

/-- A call that only looks, or syncs, leaves the tree alone. -/
theorem doesFile_quiet {c : FileCall} {r : Reply c} (hquiet : (answer refuses c t).2 = t)
    (hc : ∀ path bytes, c ≠ .append path bytes) (h : DoesFile refuses c t r u) : u = t := by
  cases r with
  | ok a => exact (congrArg Prod.snd (doesFile_ok h)).symm.trans hquiet
  | error e => exact doesFile_error hc h

end Failing

end Files
