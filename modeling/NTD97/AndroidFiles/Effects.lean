import Mathlib
import NTD97.AndroidFiles.Undo
import NTD97.Lib.Versions

/-!
# AndroidFiles/Effects — what a call of the file adapters does to the files

    write_atomic    opens its temporary file ──▸ temp is gone, target holds the bytes
    commit_staging  finds what was staged    ──▸ stage is gone, target holds the bytes

Both make directories first, which are no files.  `OpensWrite`, `StagesDownload` and
`CommitsDownload` say on the tree before the call how far it gets; if it does not get there, every
file stays as it is.
-/

namespace NTD97

open Guard Effect Text Wire Files Steps

/-! ## Directories -/

section Directories

variable {refuses : Path → Option IoError} {t u : Tree} {path : Path}

/-- The directories down to a path are there, or can be made. -/
def Makeable (refuses : Path → Option IoError) (t : Tree) (path : Path) : Prop :=
  ∀ q, q <+: path → t.at q = some .directory ∨ t.at q = none ∧ refuses q = none

/-- Making directories is the same as a program and as a computation. -/
theorem execute_createDirAll_eq (describe : IoError → String) (what : String) :
    execute (answer refuses) (Stepwise.createDirAll describe what path) t =
      ((exec (createDirAll refuses path) t).1.mapError fun e => what ++ ": " ++ describe e,
        (exec (createDirAll refuses path) t).2) := by
  unfold Stepwise.createDirAll createDirAll
  generalize path.inits = parts
  induction parts generalizing t with
  | nil => rfl
  | cons part parts ih =>
    have hask : execute (answer refuses) (ask describe what (.makeDir path part)) t =
        ((exec (createDir refuses path part) t).1.mapError fun e => what ++ ": " ++ describe e,
          (exec (createDir refuses path part) t).2) := rfl
    change execute (answer refuses) (ask describe what (.makeDir path part) >>= fun _ =>
        parts.forM fun part => ask describe what (.makeDir path part)) t =
      ((exec (createDir refuses path part >>= fun _ => parts.forM (createDir refuses path)) t).1.mapError
        _, (exec (createDir refuses path part >>= fun _ => parts.forM (createDir refuses path)) t).2)
    rw [execute_bind, exec_bind, hask]
    rcases exec (createDir refuses path part) t with ⟨e | a, v⟩
    · rfl
    · exact ih

theorem exec_createDirAll_iff :
    (∃ u, exec (createDirAll refuses path) t = (.ok (), u)) ↔ Makeable refuses t path := by
  have hprogram : (∃ u, execute (answer refuses) (Stepwise.createDirAll (fun _ => "") "" path) t =
      (.ok (), u)) ↔ Makeable refuses t path := Stepwise.exists_execute_createDirAll_iff
  rw [← hprogram]
  refine exists_congr fun u => ?_
  rw [execute_createDirAll_eq]
  rcases exec (createDirAll refuses path) t with ⟨e | a, v⟩
  · exact iff_of_false (fun h => nomatch congrArg Prod.fst h) fun h => nomatch congrArg Prod.fst h
  · exact ⟨fun h => Prod.ext rfl (congrArg (fun r => r.2) h), fun h => Prod.ext rfl (congrArg (fun r => r.2) h)⟩

/-- If making directories fails, they cannot be made. -/
theorem not_makeable {e : IoError} (h : exec (createDirAll refuses path) t = (.error e, u)) :
    ¬ Makeable refuses t path := fun hmakeable => by
  obtain ⟨v, hv⟩ := exec_createDirAll_iff.2 hmakeable
  exact nomatch h.symm.trans hv

/-- Whether or not all are made, no file is touched. -/
theorem file_of_createDirAll {r : Except IoError Unit}
    (h : exec (createDirAll refuses path) t = (r, u)) : u.file = t.file :=
  (congrArg (fun r => Tree.file r.2) h).symm.trans exec_createDirAll_file

/-- Directories that were made are there, and there is nothing else new. -/
theorem exec_createDirAll_moreDirs (h : exec (createDirAll refuses path) t = (.ok (), u)) :
    MoreDirs (fun q => q <+: path ∧ q ≠ []) t u ∧ ∀ q, q <+: path → u.at q = some .directory := by
  have hprogram : execute (answer refuses) (Stepwise.createDirAll (fun _ => "") "" path) t =
      (.ok (), u) := by
    rw [execute_createDirAll_eq, h]
    rfl
  exact Stepwise.execute_createDirAll (fun _ hne hq => ⟨hq, hne⟩) hprogram

theorem at_of_eq {p : Path} (h : u p = t p) : u.at p = t.at p := by
  rw [Tree.at, Tree.at, h]

/-- **Behind a path whose directories were made**: they are there, and the path is as it was. -/
theorem exec_createDirAll_above {target : Path}
    (h : exec (createDirAll refuses target.dropLast) t = (.ok (), u)) {p : Path} (hp : p ≠ [])
    (hparent : p.dropLast = target.dropLast) :
    (∀ q ∈ p.inits.dropLast, u.at q = some .directory) ∧ u.at p = t.at p := by
  obtain ⟨hmore, hthere⟩ := exec_createDirAll_moreDirs h
  refine ⟨fun q hq => hthere q ?_, ?_⟩
  · rwa [inits_dropLast hp, hparent, List.mem_inits] at hq
  · rcases hmore p with hsame | ⟨⟨hbelow, -⟩, -⟩
    · exact at_of_eq hsame
    · refine absurd rfl (ne_of_mem_inits_dropLast hp ?_)
      rwa [inits_dropLast hp, hparent, List.mem_inits]

end Directories

/-! ## Writing a file -/

section Adapters

variable {N : Type} {host : Host N} {w : AppWorld N} {t : Tree} {id : ActionId} {target : Path}
  {relative : String} {bytes : Bytes}

-- a path is not to be evaluated when a goal is looked at
seal NTD97.scopedPath

theorem exec_onFiles {α : Type} (what : String) (x : FilesM α) :
    exec (onFiles host what x) w =
      ((exec x w.tree).1.mapError fun e => what ++ ": " ++ host.describe e,
        { w with tree := (exec x w.tree).2 }) :=
  exec_zoom ..

theorem exec_onFiles_ok {α : Type} {what : String} {x : FilesM α} {a : α} {u : Tree}
    (h : exec x w.tree = (.ok a, u)) :
    exec (onFiles host what x) w = (.ok a, { w with tree := u }) := by
  rw [exec_onFiles, h]
  rfl

theorem exec_onFiles_error {α : Type} {what : String} {x : FilesM α} {e : IoError} {u : Tree}
    (h : exec x w.tree = (.error e, u)) :
    exec (onFiles host what x) w = (.error (what ++ ": " ++ host.describe e), { w with tree := u }) := by
  rw [exec_onFiles, h]
  rfl

/-- The token of a file that was read. -/
theorem rollbackToken_ok {describe : IoError → String} {limit overflow what : String}
    {previous : Bytes} : Stepwise.rollbackToken describe limit overflow what (.ok previous) =
      if maxPlatformTextBytes < previous.length then .error limit
      else .ok (1 :: leBytes 4 previous.length ++ previous) := by
  have hlarge : maxPlatformTextBytes < 2 ^ 32 := by decide
  unfold Stepwise.rollbackToken refuse
  dsimp only
  by_cases hlimit : maxPlatformTextBytes < previous.length
  · rw [if_pos hlimit, if_pos hlimit]
    rfl
  · rw [if_neg hlimit, if_neg hlimit, if_neg (by omega)]
    rfl

/-- The token of a file that can be kept has room in a resume token. -/
theorem length_rollbackToken_lt {previous : Bytes} (h : previous.length ≤ maxPlatformTextBytes) :
    (1 :: leBytes 4 previous.length ++ previous).length < 2 ^ 32 := by
  have hlarge : maxPlatformTextBytes + 5 < 2 ^ 32 := by decide
  rw [List.length_append, List.length_cons, length_leBytes]
  omega

/-- A snapshot is the token of what is read. -/
theorem exec_rollbackSnapshot {limit overflow what : String} :
    exec (rollbackSnapshot host target limit overflow what) w =
      (Stepwise.rollbackToken host.describe limit overflow what (readAt host.refuses w.tree target),
        w) := by
  have hlarge : maxPlatformTextBytes < 2 ^ 32 := by decide
  rw [rollbackSnapshot, exec_get_bind]
  dsimp only
  rcases readAt host.refuses w.tree target with e | previous
  · cases e <;> rfl
  · rw [rollbackToken_ok]
    dsimp only
    by_cases hlimit : maxPlatformTextBytes < previous.length
    · rw [exec_refuse_of_pos hlimit, if_pos hlimit]
    · rw [exec_refuse_of_neg hlimit, if_neg hlimit, exec_refuse_of_neg (by omega), exec_pure]

/-- What a write replaces can be kept: there is nothing yet, or a file that is not too large. -/
def Keepable (refuses : Path → Option IoError) (t : Tree) (target : Path) : Prop :=
  refuses target = some .notFound ∨ refuses target = none ∧ t.at target ≠ some .directory ∧
    ∀ previous, t.at target = some (.file previous) → previous.length ≤ maxPlatformTextBytes

/-- A file that can be reached is read as what stands there. -/
theorem readAt_of_above {refuses : Path → Option IoError}
    (habove : ∀ q ∈ target.inits.dropLast, t.at q = some .directory) :
    readAt refuses t target = match refuses target, t.at target with
      | some e, _ => .error e
      | none, some (.file previous) => .ok previous
      | none, some .directory => .error .isADirectory
      | none, none => .error .notFound := by
  rw [readAt]
  cases hrefuses : refuses target with
  | some e =>
    have hreach : reach refuses t target = .error e := by
      rw [reach, hrefuses]
      rfl
    rw [hreach]
    rfl
  | none =>
    have hreach : reach refuses t target = .ok (t.at target) :=
      reach_eq_ok.2 ⟨hrefuses, habove, rfl⟩
    rw [hreach]
    rcases t.at target with _ | _ | _ <;> rfl

/-- A snapshot has a token exactly if what is replaced can be kept. -/
theorem exists_rollbackToken_iff {describe : IoError → String} {refuses : Path → Option IoError}
    {limit overflow what : String}
    (habove : ∀ q ∈ target.inits.dropLast, t.at q = some .directory) :
    (∃ token, Stepwise.rollbackToken describe limit overflow what (readAt refuses t target) =
      .ok token) ↔ Keepable refuses t target := by
  rw [readAt_of_above habove, Keepable]
  cases refuses target with
  | some e =>
    cases e with
    | notFound => exact iff_of_true ⟨_, rfl⟩ (.inl rfl)
    | _ =>
      refine iff_of_false ?_ ?_
      · rintro ⟨token, h⟩
        exact nomatch h
      · rintro (h | ⟨h, -⟩) <;> exact nomatch h
  | none =>
    rcases t.at target with _ | previous | _
    · exact iff_of_true ⟨_, rfl⟩ (.inr ⟨rfl, by simp, by simp⟩)
    · dsimp only
      rw [rollbackToken_ok]
      by_cases hlimit : maxPlatformTextBytes < previous.length
      · rw [if_pos hlimit]
        refine iff_of_false ?_ ?_
        · rintro ⟨token, h⟩
          exact nomatch h
        · rintro (h | ⟨-, -, h⟩)
          · exact nomatch h
          · exact absurd hlimit (not_lt.2 (h previous rfl))
      · rw [if_neg hlimit]
        refine iff_of_true ⟨_, rfl⟩ (.inr ⟨rfl, by simp, fun old hold => ?_⟩)
        cases hold
        exact not_lt.1 hlimit
    · refine iff_of_false ?_ ?_
      · rintro ⟨token, h⟩
        exact nomatch h
      · rintro (h | ⟨-, h, -⟩)
        · exact nomatch h
        · exact h rfl

/-- **A write gets as far as its temporary file.** -/
structure OpensWrite (refuses : Path → Option IoError) (t : Tree) (id : ActionId)
    (relative : String) (bytes : Bytes) (target : Path) : Prop where
  small : bytes.length ≤ maxPlatformTextBytes
  leads : NTD97.scopedPath relative = .ok target
  directories : Makeable refuses t target.dropLast
  kept : Keepable refuses t target
  accepted : refuses (Stepwise.tempOf id target) = none
  free : t.at (Stepwise.tempOf id target) ≠ some .directory

/-- The files behind a write that opened its temporary file: that is moved to the target, unless
the host refuses the target. -/
def filesWritten (refuses : Path → Option IoError) (files : Path → Option Bytes) (id : ActionId)
    (bytes : Bytes) (target : Path) : Path → Option Bytes :=
  if refuses target = none then
    Function.update (Function.update files (Stepwise.tempOf id target) none) target (some bytes)
  else Function.update files (Stepwise.tempOf id target) (some bytes)

/-- **What a write does to the files.** -/
inductive WriteEnds (host : Host N) (w : AppWorld N) (id : ActionId) (relative : String)
    (bytes : Bytes) : Except String Bytes × AppWorld N → Prop
  | closed (e : String) (u : Tree)
      (hclosed : ∀ target, ¬ OpensWrite host.refuses w.tree id relative bytes target)
      (hu : u.file = w.tree.file) : WriteEnds host w id relative bytes (.error e, { w with tree := u })
  | opened (target : Path) (answer : Except String Bytes) (u : Tree)
      (hopens : OpensWrite host.refuses w.tree id relative bytes target)
      (hanswer : answer.isOk = true ↔ host.refuses target = none)
      (hu : u.file = filesWritten host.refuses w.tree.file id bytes target) :
      WriteEnds host w id relative bytes (answer, { w with tree := u })

theorem tempOf_ne_nil : Stepwise.tempOf id target ≠ [] :=
  List.append_ne_nil_of_right_ne_nil _ (List.cons_ne_nil _ _)

theorem dropLast_tempOf (id : ActionId) (target : Path) :
    (Stepwise.tempOf id target).dropLast = target.dropLast :=
  List.dropLast_concat

theorem Keepable.congr {refuses : Path → Option IoError} {u : Tree}
    (h : u.at target = t.at target) :
    Keepable refuses u target ↔ Keepable refuses t target := by rw [Keepable, Keepable, h]

/-- A file is put below a directory, and can be read there. -/
theorem readAt_update_self {refuses : Path → Option IoError} {p : Path} (hne : p ≠ [])
    (h : Free refuses t p) :
    readAt refuses (Function.update t p (some (.file bytes))) p = .ok bytes :=
  readAt_eq_ok.2 (reach_update_self hne (reach_eq_ok.2 ⟨h.accepted, h.directories, rfl⟩) bytes)

/-- The end of a write, whose temporary file can be opened. -/
theorem exec_throughTemp (bytes : Bytes) {u : Tree} (hne : target ≠ [])
    (hkept : Keepable host.refuses u target)
    (habove : ∀ q ∈ target.inits.dropLast, u.at q = some .directory)
    (hfree : Free host.refuses u (Stepwise.tempOf id target)) (token : Bytes) :
    ∃ answer v, exec (do
        onFiles host "create app-private temp file"
          (write host.refuses (Stepwise.tempOf id target) bytes)
        onFiles host "commit app-private file"
          (rename host.refuses (Stepwise.tempOf id target) target)
        return token : AppM N Bytes) { w with tree := u } = (answer, { w with tree := v }) ∧
      (answer.isOk = true ↔ host.refuses target = none) ∧
      v.file = filesWritten host.refuses u.file id bytes target := by
  have htemp : Stepwise.tempOf id target ≠ [] := tempOf_ne_nil
  rw [exec_bind_ok (exec_onFiles_ok (exec_write_of_free hfree))]
  by_cases haccepted : host.refuses target = none
  · have hplace : Free host.refuses
        (Function.update u (Stepwise.tempOf id target) (some (.file bytes))) target := by
      refine ⟨haccepted, fun q hq => ?_, ?_⟩
      · rw [at_update htemp, if_neg]
        · exact habove q hq
        · rintro rfl
          rw [inits_dropLast hne, ← dropLast_tempOf id, ← inits_dropLast htemp] at hq
          exact ne_of_mem_inits_dropLast htemp hq rfl
      · rw [at_update htemp, if_neg (Stepwise.tempOf_ne hne).symm]
        rcases hkept with h | ⟨-, h, -⟩
        · exact nomatch haccepted.symm.trans h
        · exact h
    rw [exec_bind_ok (exec_onFiles_ok (exec_rename_of_free (readAt_update_self htemp hfree) hplace))]
    refine ⟨_, _, rfl, iff_of_true rfl haccepted, ?_⟩
    rw [filesWritten, if_pos haccepted, file_update_file, file_update_none, file_update_file,
      Function.update_idem]
  · obtain ⟨e, he⟩ := exec_rename_of_not_free
      (t := Function.update u (Stepwise.tempOf id target) (some (.file bytes)))
      (q := Stepwise.tempOf id target) fun h => haccepted h.accepted
    rw [exec_bind_error (exec_onFiles_error he)]
    refine ⟨_, _, rfl, iff_of_false (fun h => nomatch h) haccepted, ?_⟩
    rw [filesWritten, if_neg haccepted, file_update_file]

/-- **A write changes the files as far as it gets.** -/
theorem writeAtomic_ends : WriteEnds host w id relative bytes
    (exec (writeAtomic host id relative bytes) w) := by
  unfold writeAtomic
  by_cases hsmall : maxPlatformTextBytes < bytes.length
  · rw [exec_refuse_of_pos hsmall]
    exact .closed _ _ (fun target h => absurd hsmall (not_lt.2 h.small)) rfl
  rw [exec_refuse_of_neg hsmall]
  rcases hleads : NTD97.scopedPath relative with e | target
  · rw [exec_check_error_bind]
    exact .closed _ _ (fun target h => nomatch hleads.symm.trans h.leads) rfl
  rw [exec_check_ok_bind]
  have hne := Stepwise.scopedPath_ne_nil hleads
  have hclosed (e : String) (u : Tree) (hu : u.file = w.tree.file)
      (h : ¬ OpensWrite host.refuses w.tree id relative bytes target) :
      WriteEnds host w id relative bytes (.error e, { w with tree := u }) :=
    .closed e u (fun other ho => h (Except.ok.inj (hleads.symm.trans ho.leads) ▸ ho)) hu
  dsimp only
  rcases hmade : exec (createDirAll host.refuses target.dropLast) w.tree with ⟨e | ⟨⟨⟩⟩, u⟩
  all_goals have hu : u.file = w.tree.file := file_of_createDirAll hmade
  · rw [exec_bind_error (exec_onFiles_error hmade)]
    exact hclosed _ _ hu fun h => not_makeable hmade h.directories
  rw [exec_bind_ok (exec_onFiles_ok hmade)]
  obtain ⟨habove, hat⟩ := exec_createDirAll_above hmade hne rfl
  obtain ⟨habove', hat'⟩ := exec_createDirAll_above hmade tempOf_ne_nil (dropLast_tempOf id _)
  have hmakeable : Makeable host.refuses w.tree target.dropLast := exec_createDirAll_iff.1 ⟨u, hmade⟩
  rcases htoken : Stepwise.rollbackToken host.describe
    "existing app-private file exceeds rollback limit" "rollback length overflow"
    "snapshot app-private file for rollback" (readAt host.refuses u target) with e | token
  · rw [exec_bind_error (exec_rollbackSnapshot.trans (by rw [htoken]))]
    refine hclosed _ _ hu fun h => ?_
    obtain ⟨token, hsome⟩ := (exists_rollbackToken_iff habove).2
      ((Keepable.congr hat).2 h.kept)
    exact nomatch htoken.symm.trans hsome
  rw [exec_bind_ok (exec_rollbackSnapshot.trans (by rw [htoken]))]
  have hkept : Keepable host.refuses u target := (exists_rollbackToken_iff habove).1 ⟨token, htoken⟩
  rw [List.getLast?_eq_some_getLast hne, exec_okOr_some_bind]
  have htemp : target.dropLast ++ ["." ++ target.getLast hne ++ ".ntd97-" ++ toString id.val] =
      Stepwise.tempOf id target := by
    rw [Stepwise.tempOf, List.getLast?_eq_some_getLast hne]
    rfl
  rw [htemp]
  by_cases hfree : Free host.refuses u (Stepwise.tempOf id target)
  · obtain ⟨answer, v, hexec, hanswer, hv⟩ := exec_throughTemp (w := w) bytes hne hkept habove
      hfree token
    rw [hexec]
    refine .opened target answer v ⟨not_lt.1 hsmall, hleads, hmakeable, ?_, hfree.accepted, ?_⟩ hanswer
      (hu ▸ hv)
    · exact (Keepable.congr hat).1 hkept
    · exact hat' ▸ hfree.free
  · obtain ⟨e, he⟩ := exec_write_of_not_free bytes hfree
    rw [exec_bind_error (exec_onFiles_error he)]
    refine hclosed _ _ hu fun h => hfree ⟨h.accepted, habove', ?_⟩
    rw [hat']
    exact h.free

/-! ## Downloads -/

open Stepwise (staging stageOf stageOf_ne_nil) in
/-- **A staged download is committed**: what was staged has the hash, and can be put at the
target. -/
structure CommitsDownload (refuses : Path → Option IoError) (t : Tree) (id : ActionId)
    (relative : String) (expectedHash : Bytes) (target : Path) (staged : Bytes) : Prop where
  leads : NTD97.scopedPath relative = .ok target
  staging : Makeable refuses t staging
  readable : refuses (stageOf id) = none
  found : t.at (stageOf id) = some (.file staged)
  hash : (sha256 staged).bytes = expectedHash
  directories : Makeable refuses t target.dropLast
  accepted : refuses target = none
  free : t.at target ≠ some .directory
  elsewhere : target ≠ Stepwise.staging

/-- The files behind a commit. -/
def filesCommitted (files : Path → Option Bytes) (id : ActionId) (target : Path) (staged : Bytes) :
    Path → Option Bytes :=
  Function.update (Function.update files (Stepwise.stageOf id) none) target (some staged)

/-- **What a commit does to the files.** -/
inductive CommitEnds (host : Host N) (w : AppWorld N) (id : ActionId) (relative : String)
    (expectedHash : Bytes) : Except String (ℕ × Digest) × AppWorld N → Prop
  | closed (e : String) (u : Tree)
      (hclosed : ∀ target staged,
        ¬ CommitsDownload host.refuses w.tree id relative expectedHash target staged)
      (hu : u.file = w.tree.file) :
      CommitEnds host w id relative expectedHash (.error e, { w with tree := u })
  | done (target : Path) (staged : Bytes) (u : Tree)
      (hcommits : CommitsDownload host.refuses w.tree id relative expectedHash target staged)
      (hu : u.file = filesCommitted w.tree.file id target staged) :
      CommitEnds host w id relative expectedHash
        (.ok (staged.length, sha256 staged), { w with tree := u })

/-- The staging directory is made, and what was staged is still there. -/
theorem exec_stagePath_ok {u : Tree}
    (h : exec (createDirAll host.refuses Stepwise.staging) w.tree = (.ok (), u)) :
    exec (stagePath host id) w = (.ok (Stepwise.stageOf id), { w with tree := u }) := by
  rw [stagePath]
  exact (exec_bind_ok (exec_onFiles_ok h)).trans rfl

theorem exec_stagePath_error (id : ActionId) {e : IoError} {u : Tree}
    (h : exec (createDirAll host.refuses Stepwise.staging) w.tree = (.error e, u)) :
    ∃ e', exec (stagePath host id) w = (.error e', { w with tree := u }) := by
  rw [stagePath]
  exact ⟨_, exec_bind_error (exec_onFiles_error h)⟩

/-- Making the staging directory touches nothing else. -/
theorem exec_createDirAll_staging {refuses : Path → Option IoError} {u : Tree}
    (h : exec (createDirAll refuses Stepwise.staging) t = (.ok (), u)) :
    u.at Stepwise.staging = some .directory ∧ ∀ q, q ≠ Stepwise.staging → u.at q = t.at q := by
  obtain ⟨hmore, hthere⟩ := exec_createDirAll_moreDirs h
  refine ⟨hthere _ List.prefix_rfl, fun q hq => ?_⟩
  rcases hmore q with hsame | ⟨⟨hbelow, hne⟩, -⟩
  · exact at_of_eq hsame
  · refine absurd ?_ hq
    rcases List.prefix_cons_iff.1 hbelow with rfl | ⟨rest, rfl, hrest⟩
    · exact absurd rfl hne
    · rw [List.prefix_nil.1 hrest]
      rfl

theorem stageOf_ne_staging (id : ActionId) : Stepwise.stageOf id ≠ Stepwise.staging := fun h =>
  absurd (congrArg List.length h) (by simp [Stepwise.stageOf, Stepwise.staging])

/-- The directories above a staged file. -/
theorem above_stageOf (id : ActionId) {u : Tree} (h : u.at Stepwise.staging = some .directory) :
    ∀ q ∈ (Stepwise.stageOf id).inits.dropLast, u.at q = some .directory := by
  intro q hq
  rw [inits_dropLast Stepwise.stageOf_ne_nil, Stepwise.stageOf, List.dropLast_concat,
    List.mem_inits] at hq
  rcases List.prefix_cons_iff.1 hq with rfl | ⟨rest, rfl, hrest⟩
  · rfl
  · rw [List.prefix_nil.1 hrest]
    exact h

/-- Once the staging directory is there, it stands in the way of no other. -/
theorem makeable_staging_iff {refuses : Path → Option IoError} {u : Tree}
    (hmade : exec (createDirAll refuses Stepwise.staging) t = (.ok (), u)) {path : Path} :
    Makeable refuses u path ↔ Makeable refuses t path := by
  obtain ⟨hstaging, hother⟩ := exec_createDirAll_staging hmade
  have hmakeable : Makeable refuses t Stepwise.staging := exec_createDirAll_iff.1 ⟨u, hmade⟩
  refine forall₂_congr fun q _ => ?_
  by_cases hq : q = Stepwise.staging
  · rw [hq]
    exact iff_of_true (.inl hstaging) (hmakeable _ List.prefix_rfl)
  · rw [hother q hq]

/-- The end of a commit, whose target has a name. -/
theorem exec_commitTo (digest : Digest) {u : Tree} {staged : Bytes} (hne : target ≠ [])
    (hread : readAt host.refuses u (Stepwise.stageOf id) = .ok staged) :
    let x : AppM N (ℕ × Digest) := do
      onFiles host "create artifact target directory" (createDirAll host.refuses target.dropLast)
      onFiles host "commit staged artifact" (rename host.refuses (Stepwise.stageOf id) target)
      return (staged.length, digest)
    (∃ e v, exec x { w with tree := u } = (.error e, { w with tree := v }) ∧ v.file = u.file ∧
        ¬ (Makeable host.refuses u target.dropLast ∧ host.refuses target = none ∧
          u.at target ≠ some .directory)) ∨
      ∃ v, exec x { w with tree := u } = (.ok (staged.length, digest), { w with tree := v }) ∧
        v.file = filesCommitted u.file id target staged ∧
        Makeable host.refuses u target.dropLast ∧ host.refuses target = none ∧
          u.at target ≠ some .directory := by
  dsimp only
  rcases hmade : exec (createDirAll host.refuses target.dropLast) u with ⟨e | ⟨⟨⟩⟩, v⟩
  all_goals have hv : v.file = u.file := file_of_createDirAll hmade
  · rw [exec_bind_error (exec_onFiles_error hmade)]
    exact .inl ⟨_, v, rfl, hv, fun h => not_makeable hmade h.1⟩
  rw [exec_bind_ok (exec_onFiles_ok hmade)]
  obtain ⟨habove, hat⟩ := exec_createDirAll_above hmade hne rfl
  obtain ⟨hmore, -⟩ := exec_createDirAll_moreDirs hmade
  have hread' : readAt host.refuses v (Stepwise.stageOf id) = .ok staged :=
    readAt_eq_ok.2 (hmore.reach_some (readAt_eq_ok.1 hread))
  by_cases hfree : Free host.refuses v target
  · rw [exec_bind_ok (exec_onFiles_ok (exec_rename_of_free hread' hfree))]
    refine .inr ⟨_, rfl, ?_, exec_createDirAll_iff.1 ⟨v, hmade⟩, hfree.accepted, hat ▸ hfree.free⟩
    rw [filesCommitted, file_update_file, file_update_none, hv]
  · obtain ⟨e, he⟩ := exec_rename_of_not_free (q := Stepwise.stageOf id) hfree
    rw [exec_bind_error (exec_onFiles_error he)]
    refine .inl ⟨_, v, rfl, hv, fun h => hfree ⟨h.2.1, habove, ?_⟩⟩
    rw [hat]
    exact h.2.2

/-- **A commit changes the files as far as it gets.** -/
theorem commitStaging_ends {expectedHash : Bytes} : CommitEnds host w id relative expectedHash
    (exec (commitStaging host id relative expectedHash) w) := by
  unfold commitStaging
  rcases hmade : exec (createDirAll host.refuses Stepwise.staging) w.tree with ⟨e | ⟨⟨⟩⟩, u⟩
  all_goals have hu : u.file = w.tree.file := file_of_createDirAll hmade
  · obtain ⟨e', he⟩ := exec_stagePath_error id hmade
    rw [exec_bind_error he]
    exact .closed _ _ (fun target staged h => not_makeable hmade h.staging) hu
  rw [exec_bind_ok (exec_stagePath_ok hmade)]
  obtain ⟨hstaging, hother⟩ := exec_createDirAll_staging hmade
  have hmakeable : Makeable host.refuses w.tree Stepwise.staging := exec_createDirAll_iff.1 ⟨u, hmade⟩
  have hstage := hother _ (stageOf_ne_staging id)
  have habove := above_stageOf id hstaging
  rcases hread : readAt host.refuses u (Stepwise.stageOf id) with e | staged
  · rw [exec_bind_error (exec_onFiles_error (exec_read.trans (by rw [hread])))]
    refine .closed _ _ (fun target staged h => ?_) hu
    rw [readAt_of_above habove, h.readable, hstage, h.found] at hread
    exact nomatch hread
  rw [exec_bind_ok (exec_onFiles_ok (exec_read.trans (by rw [hread])))]
  obtain ⟨hreadable, -, hfound⟩ := reach_eq_ok.1 (readAt_eq_ok.1 hread)
  rw [hstage] at hfound
  -- what a commit needs, it can need of this target and this file only
  have hcommits {target' : Path} {staged' : Bytes}
      (h : CommitsDownload host.refuses w.tree id relative expectedHash target' staged') :
      staged' = staged :=
    (Entry.file.inj (Option.some.inj (hfound.symm.trans h.found))).symm
  dsimp only
  by_cases hhash : (sha256 staged).bytes ≠ expectedHash
  · rw [exec_refuse_of_pos hhash]
    exact .closed _ _ (fun target staged' h => hhash (hcommits h ▸ h.hash)) hu
  rw [exec_refuse_of_neg hhash]
  rcases hleads : NTD97.scopedPath relative with e | target
  · rw [exec_check_error_bind]
    exact .closed _ _ (fun target staged h => nomatch hleads.symm.trans h.leads) hu
  rw [exec_check_ok_bind]
  have hne := Stepwise.scopedPath_ne_nil hleads
  have htarget : u.at target ≠ some .directory ↔
      w.tree.at target ≠ some .directory ∧ target ≠ Stepwise.staging := by
    by_cases heq : target = Stepwise.staging
    · rw [heq]
      exact iff_of_false (fun h => h hstaging) fun h => h.2 rfl
    · rw [hother target heq]
      exact (and_iff_left heq).symm
  rcases exec_commitTo (w := w) (sha256 staged) hne hread with
    ⟨e, v, hexec, hv, hno⟩ | ⟨v, hexec, hv, hdirs, haccepted, hfree⟩
  · rw [hexec]
    refine .closed _ _ (fun target' staged' h => hno ?_) (hv.trans hu)
    obtain rfl := Except.ok.inj (hleads.symm.trans h.leads)
    exact ⟨(makeable_staging_iff hmade).2 h.directories, h.accepted, htarget.2 ⟨h.free, h.elsewhere⟩⟩
  · rw [hexec]
    obtain ⟨hfree, helse⟩ := htarget.1 hfree
    exact .done target staged v ⟨hleads, hmakeable, hreadable, hfound, not_not.1 hhash,
      (makeable_staging_iff hmade).1 hdirs, haccepted, hfree, helse⟩ (hu ▸ hv)

/-! ### Staging -/

/-- **A download is staged over a file**: its body is fetched, the file it will replace is kept in
the token, and the body can be put where it is staged. -/
structure StagesDownload (host : Host N) (w : AppWorld N) (id : ActionId) (url relative : String)
    (target : Path) (previous : Bytes) (result : HttpsResult) : Prop where
  fetched : (host.httpsFetch url w.net).1 = .ok result
  small : result.body.length ≤ maxPlatformTextBytes
  leads : NTD97.scopedPath relative = .ok target
  read : readAt host.refuses w.tree target = .ok previous
  kept : previous.length ≤ maxPlatformTextBytes
  staging : Makeable host.refuses w.tree Stepwise.staging
  accepted : host.refuses (Stepwise.stageOf id) = none
  free : w.tree.at (Stepwise.stageOf id) ≠ some .directory
  short : (utf8 result.finalUrl).length < 2 ^ 32

theorem exec_androidHttpsFetch {url : String} : exec (androidHttpsFetch host url) w =
    ((host.httpsFetch url w.net).1, { w with net := (host.httpsFetch url w.net).2 }) := by
  rw [androidHttpsFetch, exec_get_bind]
  rcases host.httpsFetch url w.net with ⟨answer, net⟩
  rw [exec_modify_bind]
  cases answer <;> rfl

/-- A body that can be staged is put there. -/
theorem exec_writeStaging {u : Tree} {body : Bytes} (hsmall : body.length ≤ maxPlatformTextBytes)
    (hmade : exec (createDirAll host.refuses Stepwise.staging) w.tree = (.ok (), u))
    (hfree : Free host.refuses u (Stepwise.stageOf id)) :
    exec (writeStaging host id body) w =
      (.ok (), { w with tree := Function.update u (Stepwise.stageOf id) (some (.file body)) }) := by
  rw [writeStaging, exec_refuse_of_neg (not_lt.2 hsmall), exec_bind_ok (exec_stagePath_ok hmade)]
  exact exec_onFiles_ok (exec_write_of_free hfree)

/-- A token can be made of what is not too large. -/
theorem exists_encodeArtifactResumeToken (digest : Digest) {rollback : Bytes} {finalUrl : String}
    (hrollback : rollback.length < 2 ^ 32) (hurl : (utf8 finalUrl).length < 2 ^ 32) :
    ∃ token, encodeArtifactResumeToken digest rollback finalUrl = .ok token := by
  rw [encodeArtifactResumeToken, refuse, if_neg (not_le.2 hrollback)]
  dsimp only
  rw [refuse, if_neg (not_le.2 hurl)]
  exact ⟨_, rfl⟩

/-- A final URL that is too long is refused. -/
theorem encodeArtifactResumeToken_of_long (digest : Digest) {rollback : Bytes} {finalUrl : String}
    (hrollback : rollback.length < 2 ^ 32) (hurl : 2 ^ 32 ≤ (utf8 finalUrl).length) :
    encodeArtifactResumeToken digest rollback finalUrl = .error "artifact final URL overflow" := by
  rw [encodeArtifactResumeToken, refuse, if_neg (not_le.2 hrollback)]
  dsimp only
  rw [refuse, if_pos hurl]
  rfl

/-- What was staged over a file can be committed. -/
theorem StagesDownload.commits {url : String} {previous : Bytes} {result : HttpsResult} {u : Tree}
    (h : StagesDownload host w id url relative target previous result)
    (hmade : exec (createDirAll host.refuses Stepwise.staging) w.tree = (.ok (), u)) :
    CommitsDownload host.refuses
      (Function.update u (Stepwise.stageOf id) (some (.file result.body))) id
      relative (sha256 result.body).bytes target result.body := by
  obtain ⟨hstaging, hother⟩ := exec_createDirAll_staging hmade
  obtain ⟨-, hthere⟩ := exec_createDirAll_moreDirs hmade
  obtain ⟨haccepted, habove, hat⟩ := reach_eq_ok.1 (readAt_eq_ok.1 h.read)
  have hne := Stepwise.scopedPath_ne_nil h.leads
  have hstage : Stepwise.stageOf id ≠ [] := Stepwise.stageOf_ne_nil
  have helse : target ≠ Stepwise.staging := by
    rintro rfl
    rcases h.staging _ List.prefix_rfl with hdir | ⟨hnone, -⟩
    · cases hat.symm.trans hdir
    · cases hat.symm.trans hnone
  refine ⟨h.leads, fun q hq => .inl ?_, h.accepted, ?_, rfl, fun q hq => .inl ?_, haccepted, ?_, helse⟩
  · rw [at_update hstage, if_neg]
    · exact hthere q hq
    · rintro rfl
      exact absurd hq.length_le (by simp [Stepwise.stageOf, Stepwise.staging])
  · rw [at_update hstage, if_pos rfl]
  · have hdir : w.tree.at q = some .directory := by
      refine habove q ?_
      rwa [inits_dropLast hne, List.mem_inits]
    rw [at_update hstage, if_neg fun (heq : q = Stepwise.stageOf id) => h.free (heq ▸ hdir)]
    by_cases hq : q = Stepwise.staging
    · rw [hq]
      exact hstaging
    · rw [hother q hq]
      exact hdir
  · rw [at_update hstage]
    split
    · rintro ⟨⟩
    · rw [hother target helse, hat]
      rintro ⟨⟩

/-- **A download that is staged is suspended, and can be committed next.** -/
theorem StagesDownload.exec {url : String} {previous : Bytes} {result : HttpsResult}
    (h : StagesDownload host w id url relative target previous result) : ∃ token note u rollback,
      Effect.exec (executeArtifactDownload host id (.artifactDownload url relative)) w =
        (.ok (.suspended token note), { tree := u, net := (host.httpsFetch url w.net).2 }) ∧
      encodeArtifactResumeToken (sha256 result.body) rollback result.finalUrl = .ok token ∧
      CommitsDownload host.refuses u id relative (sha256 result.body).bytes target result.body := by
  obtain ⟨u, hmade⟩ := exec_createDirAll_iff.2 h.staging
  obtain ⟨hstaging, hother⟩ := exec_createDirAll_staging hmade
  have hfree : Free host.refuses u (Stepwise.stageOf id) := by
    refine ⟨h.accepted, above_stageOf _ hstaging, ?_⟩
    rw [hother _ (stageOf_ne_staging _)]
    exact h.free
  obtain ⟨token, htoken⟩ := exists_encodeArtifactResumeToken (sha256 result.body)
    (length_rollbackToken_lt h.kept) h.short
  let w₁ : AppWorld N := { w with net := (host.httpsFetch url w.net).2 }
  have hsnapshot : Effect.exec (rollbackSnapshot host target "existing artifact exceeds rollback limit"
      "artifact rollback length overflow" "snapshot artifact for rollback") w₁ =
        (.ok (1 :: leBytes 4 previous.length ++ previous), w₁) := by
    rw [exec_rollbackSnapshot]
    change (Stepwise.rollbackToken _ _ _ _ (readAt host.refuses w.tree target), w₁) = _
    rw [h.read, rollbackToken_ok, if_neg (not_lt.2 h.kept)]
  refine ⟨token, "artifact downloaded and staged for verified commit",
    Function.update u (Stepwise.stageOf id) (some (.file result.body)),
    1 :: leBytes 4 previous.length ++ previous, ?_, htoken, h.commits hmade⟩
  unfold executeArtifactDownload
  dsimp only
  rw [exec_bind_ok (exec_androidHttpsFetch.trans (by rw [h.fetched])),
    exec_refuse_of_neg (not_lt.2 h.small), h.leads, exec_check_ok_bind, exec_bind_ok hsnapshot,
    exec_bind_ok (exec_writeStaging (w := w₁) h.small hmade hfree), htoken, exec_check_ok_bind,
    exec_pure]

/-- Directories that are made on the way change no file. -/
theorem keeps_file_createDirAll {what : String} {path p : Path} {file : Option Bytes} :
    Keeps (fun v : AppWorld N => v.tree.file p = file)
      (onFiles host what (createDirAll host.refuses path)) := by
  refine Keeps.zoom (J := fun u : Tree => u.file p = file) (.of_final fun u hu => ?_)
    (fun _ h => h) fun _ _ _ h => h
  rw [exec_createDirAll_file, hu]

/-- A file that is written changes no other. -/
theorem keeps_file_write {what : String} {path p : Path} {file : Option Bytes} (hne : p ≠ path) :
    Keeps (fun v : AppWorld N => v.tree.file p = file)
      (onFiles host what (write host.refuses path bytes)) := by
  refine Keeps.zoom (J := fun u : Tree => u.file p = file) (.of_final fun u hu => ?_)
    (fun _ h => h) fun _ _ _ h => h
  by_cases hfree : Free host.refuses u path
  · rw [exec_write_of_free hfree, file_update_file, Function.update_of_ne hne, hu]
  · obtain ⟨e, he⟩ := exec_write_of_not_free bytes hfree
    rw [he, hu]

/-- What is staged changes no other file. -/
theorem keeps_file_writeStaging {body : Bytes} {p : Path} {file : Option Bytes}
    (hp : p ≠ Stepwise.stageOf id) :
    Keeps (fun v : AppWorld N => v.tree.file p = file) (writeStaging host id body) := by
  refine .refuse_bind fun _ => ?_
  rw [stagePath, bind_assoc]
  refine .bind keeps_file_createDirAll fun _ => ?_
  rw [pure_bind]
  exact keeps_file_write hp

/-- **Staging a download changes no file but the staged one.** -/
theorem executeArtifactDownload_file {action : TypedAction} {p : Path}
    (hp : p ≠ Stepwise.stageOf id) :
    (exec (executeArtifactDownload host id action) w).2.tree.file p = w.tree.file p := by
  refine Keeps.final (I := fun v : AppWorld N => v.tree.file p = w.tree.file p) ?_ rfl
  cases action with
  | artifactDownload url relative =>
    refine .bind (.of_final fun v hv => ?_) fun result => .refuse_bind fun _ =>
      .bind (.checked ..) fun target => .bind (.of_final fun v hv => ?_) fun rollback =>
        .bind (keeps_file_writeStaging hp) fun _ => .bind (.checked ..) fun _ => .ret _
    · rw [exec_androidHttpsFetch]
      exact hv
    · rw [exec_rollbackSnapshot]
      exact hv
  | _ => exact .of_final fun _ hv => hv

end Adapters

end NTD97
