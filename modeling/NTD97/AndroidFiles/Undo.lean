import Mathlib
import NTD97.AndroidFiles.Resume

/-!
# AndroidFiles/Undo — writes that are undone, the last one first

    t ──write──▸ t₁ ──write──▸ t₂ … tₙ ──undo n──▸ … ──undo 1──▸ t, and some directories

A write that fails has made directories.  A write that succeeds has changed one file besides, if the
file that it goes through took no name from another one.  Undoing it needs that file, and the
directories above it, and nothing else of the tree.
-/

namespace NTD97

open Guard Text Wire Files Steps

namespace Stepwise

section Undo

variable {refuses : Path → Option IoError} {describe : IoError → String} {t s s' u v : Tree}
  {actionId : ActionId} {path : String} {bytes token : Bytes}

/-- The same regular files, and no fewer directories. -/
abbrev SameFiles (t t' : Tree) : Prop := MoreDirs (fun _ => True) t t'

/-- The file that a write goes through. -/
def tempOf (actionId : ActionId) (target : Path) : Path :=
  target.dropLast ++ [tempName actionId (target.getLast?.getD "")]

/-- A file that was begun and is not finished: the host failed a write, a sync or a rename. -/
def Unfinished : Called Reply → Bool
  | ⟨.append _ _, .error _⟩ => true
  | ⟨.sync _, .error _⟩ => true
  | ⟨.rename _ _, .error _⟩ => true
  | _ => false

/-- **An execution that keeps to itself**: no file stands where its own temporary file goes, and the
host lets it finish that. -/
structure Tidy (actionId : ActionId) (path : String) (s : Tree) (events : List (Called Reply)) :
    Prop where
  free : ∀ target bytes, NTD97.scopedPath path = .ok target →
    s.at (tempOf actionId target) ≠ some (.file bytes)
  finished : ∀ event ∈ events, ¬ Unfinished event

/-! ## One write -/

/-- What was at the target of a write, by its token. -/
inductive Before (s : Tree) (target : Path) : Bytes → Prop
  | none (h : s.at target = none) : Before s target [0]
  | file (previous : Bytes) (h : s.at target = some (.file previous))
      (hlength : previous.length ≤ maxPlatformTextBytes) :
      Before s target (1 :: leBytes 4 previous.length ++ previous)

/-- **What a write has done**: directories, and one file that can be reached. -/
structure Wrote (refuses : Path → Option IoError) (s : Tree) (target : Path) (bytes token : Bytes)
    (s' : Tree) : Prop where
  ne_nil : target ≠ []
  refuses_none : refuses target = none
  directories : ∀ q ∈ target.inits.dropLast, s'.at q = some .directory
  effect : ∃ u, SameFiles s u ∧ Before u target token ∧
    s' = Function.update u target (some (.file bytes))

/-- What an execution of a write leaves. -/
def Leaves (refuses : Path → Option IoError) (s : Tree) (path : String) (bytes : Bytes) :
    Except String Bytes → Tree → Prop
  | .ok token, s' => ∃ target, NTD97.scopedPath path = .ok target ∧
      Wrote refuses s target bytes token s'
  | .error _, s' => SameFiles s s'

/-- The snapshot of a target. -/
theorem before_of_snapshot {target : Path} {limit overflow what : String}
    {previous : Except IoError Bytes} (hread : previous = readAt refuses s target)
    (htoken : rollbackToken describe limit overflow what previous = .ok token)
    (hreach : ∃ e, reach refuses s target = .ok e ∧ e ≠ some .directory) : Before s target token := by
  obtain ⟨e, hreach, hdir⟩ := hreach
  obtain ⟨-, -, hat⟩ := reach_eq_ok.1 hreach
  rw [readAt, hreach] at hread
  rcases e with _ | old | _
  · rw [hread] at htoken
    cases htoken
    exact .none hat
  · rw [hread] at htoken
    obtain ⟨_, hlimit, h⟩ := bind_eq_ok.1 htoken
    obtain ⟨_, -, hpure⟩ := bind_eq_ok.1 h
    rw [← pure_eq_ok.1 hpure]
    exact .file old hat (not_lt.1 (refuse_eq_ok.1 hlimit))
  · exact absurd rfl hdir

/-- The end of a write, behind the snapshot. -/
def writeThrough (describe : IoError → String) (temp target : Path) (bytes rollback : Bytes) :
    FileProg String Bytes := do
  ask describe "create app-private temp file" (.create temp)
  ask describe "write app-private temp file" (.append temp bytes)
  ask describe "sync app-private temp file" (.sync temp)
  ask describe "commit app-private file" (.rename temp target)
  return rollback

/-- What a call may do in a run that finishes what it began. -/
abbrev DoesTidily (refuses : Path → Option IoError) : Does Reply Tree :=
  DoesOnly refuses fun event => ¬ Unfinished event

/-- The directory entry of a rename is put where it can be reached. -/
theorem wrote_of_rename {target temp : Path} {a : Unit} (hu : SameFiles s u)
    (hbefore : (∃ e, reach refuses u target = .ok e ∧ e ≠ some .directory) → Before u target token)
    (hne : target ≠ []) (htemp : temp ≠ []) (hother : temp ≠ target) (hnone : u.at temp = none)
    (h : answer refuses (.rename temp target)
      (Function.update u temp (some (.file bytes))) = (.ok a, v)) :
    Wrote refuses s target bytes token v := by
  obtain ⟨staged, hread, ⟨e, hreach, hdir⟩, rfl⟩ := answer_rename_ok h
  obtain ⟨-, -, hstaged⟩ := reach_eq_ok.1 (readAt_eq_ok.1 hread)
  rw [at_update htemp, if_pos rfl] at hstaged
  cases hstaged
  obtain ⟨hrefuses, hwalk, hat⟩ := reach_eq_ok.1 hreach
  rw [at_update htemp, if_neg (Ne.symm hother)] at hat
  have hwalk' : ∀ q ∈ target.inits.dropLast, u.at q = some .directory := by
    intro q hq
    have hthere := hwalk q hq
    rw [at_update htemp] at hthere
    split at hthere
    · cases hthere
    · exact hthere
  have hsame : Function.update (Function.update u temp (some (.file bytes))) temp none = u := by
    rw [Tree.at, if_neg htemp] at hnone
    rw [Function.update_idem, ← hnone, Function.update_eq_self]
  rw [hsame]
  refine ⟨hne, hrefuses, fun q hq => ?_, u, hu, ?_, rfl⟩
  · rw [at_update hne, if_neg (ne_of_mem_inits_dropLast hne hq)]
    exact hwalk' q hq
  · exact hbefore ⟨e, reach_eq_ok.2 ⟨hrefuses, hwalk', hat⟩, hdir⟩

theorem leaves_writeThrough {target temp : Path} (htarget : NTD97.scopedPath path = .ok target)
    (hu : SameFiles s u)
    (hbefore : (∃ e, reach refuses u target = .ok e ∧ e ≠ some .directory) → Before u target token)
    (htemp : temp ≠ []) (hother : temp ≠ target) (hfree : ∀ old, u.at temp ≠ some (.file old)) :
    Meets (DoesTidily refuses) (fun _ _ => True) (Leaves refuses s path bytes)
      (writeThrough describe temp target bytes token) u := by
  refine Meets.bind ⟨trivial, fun r u₁ hcreate => ?_⟩
  rcases r with e | a
  · obtain rfl := doesFile_error (fun _ _ h => by cases h) hcreate.1
    exact hu
  obtain ⟨⟨e, hreach, hdir⟩, rfl⟩ := answer_create_ok (doesFile_ok hcreate.1)
  have hnone : u.at temp = none := by
    obtain ⟨-, -, hat⟩ := reach_eq_ok.1 hreach
    rw [hat]
    rcases e with _ | old | _
    · rfl
    · exact absurd hat (hfree old)
    · exact absurd rfl hdir
  refine Meets.bind ⟨trivial, fun r u₂ happend => ?_⟩
  rcases r with e | a
  · exact absurd rfl happend.2
  obtain rfl := answer_append_ok (doesFile_ok happend.1)
  rw [appended_update htemp, List.nil_append] at *
  refine Meets.bind ⟨trivial, fun r u₃ hsync => ?_⟩
  rcases r with e | a
  · exact absurd rfl hsync.2
  obtain rfl := doesFile_quiet rfl (fun _ _ h => by cases h) hsync.1
  refine Meets.bind ⟨trivial, fun r u₄ hrename => ?_⟩
  rcases r with e | a
  · exact absurd rfl hrename.2
  exact ⟨target, htarget, wrote_of_rename hu hbefore (scopedPath_ne_nil htarget) htemp hother hnone
    (doesFile_ok hrename.1)⟩

theorem writeAtomic_eq : writeAtomic describe [] actionId path bytes = (do
    refuse (maxPlatformTextBytes < bytes.length) "app-private file write exceeds native limit"
    let target ← scopedPath describe [] path
    createDirAll describe "create app-private file directory" target.dropLast
    let canonicalParent ← canonicalDirectory describe [] target.dropLast
      "canonicalize app-private file directory" "app-private file directory escaped capability root"
    let rollback ← rollbackSnapshot describe target
      "existing app-private file exceeds rollback limit" "rollback length overflow"
      "snapshot app-private file for rollback"
    let fileName ← okOr target.getLast? "invalid app-private file name"
    writeThrough describe (canonicalParent ++ [tempName actionId fileName]) target bytes rollback) :=
  rfl

/-- The name of the file that a write goes through is longer than that of the target. -/
theorem tempOf_ne {target : Path} (hne : target ≠ []) : tempOf actionId target ≠ target := by
  intro h
  rw [tempOf, List.getLast?_eq_some_getLast hne, Option.getD_some] at h
  have hlast : tempName actionId (target.getLast hne) = target.getLast hne := by
    have hparts := h.trans (List.dropLast_append_getLast hne).symm
    exact List.singleton_inj.1 (List.append_cancel_left hparts)
  have hlength := congrArg String.length hlast
  simp only [tempName, String.length_append] at hlength
  have hdot : ".".length = 1 := rfl
  omega

seal NTD97.scopedPath

theorem leaves_rollbackSnapshot {target : Path} {limit overflow what : String}
    {Q : Except String Bytes → Tree → Prop} (hQ : ∀ e, Q (.error e) s)
    (hok : ∀ token, ((∃ e, reach refuses s target = .ok e ∧ e ≠ some .directory) →
      Before s target token) → Q (.ok token) s) :
    Meets (DoesTidily refuses) (fun _ _ => True) Q
      (rollbackSnapshot describe target limit overflow what) s := by
  refine ⟨trivial, fun r s' hread => ?_⟩
  obtain rfl := doesFile_quiet rfl (fun _ _ h => by cases h) hread.1
  change Q (rollbackToken describe limit overflow what r) s'
  rcases htoken : rollbackToken describe limit overflow what r with e | token
  · exact hQ e
  · refine hok token fun hreach => before_of_snapshot ?_ htoken hreach
    rcases r with e | (previous : Bytes)
    · rcases doesFile_error_cases (fun _ _ h => by cases h) hread.1 with hanswer | ⟨code, rfl⟩
      · exact hanswer.symm
      · cases htoken
    · exact (congrArg Prod.fst (doesFile_ok hread.1)).symm

/-- **A write leaves directories, and its file if it succeeds.** -/
theorem leaves_writeAtomic (hfree : ∀ target old, NTD97.scopedPath path = .ok target →
      s.at (tempOf actionId target) ≠ some (.file old)) :
    Meets (DoesTidily refuses) (fun _ _ => True) (Leaves refuses s path bytes)
      (writeAtomic describe [] actionId path bytes) s := by
  have herror (e : String) (u : Tree) (hu : SameFiles s u) : Leaves refuses s path bytes (.error e) u :=
    hu
  rw [writeAtomic_eq]
  refine Meets.bind (Meets.refuse (fun _ => MoreDirs.refl s) fun _ => ?_)
  refine Meets.bind (Meets.weaken (show OnlyMakes refuses _ [] [] _ _ _ _ from
    onlyMakes_scopedPath (I := SameFiles s) (.refl s) (fun e u hu => herror e u hu)
      fun target htarget => ?_) fun _ _ _ => trivial)
  have hne := scopedPath_ne_nil htarget
  refine Meets.bind (Meets.weaken (show OnlyMakes refuses _ [] [] _ _ _ _ from
    onlyMakes_createDirAll (.refl s) (fun e u hu => herror e u hu) (fun _ _ _ => trivial)
      fun u hu => ?_) fun _ _ _ => trivial)
  refine Meets.bind (Meets.weaken (show OnlyMakes refuses _ [] [] _ _ _ _ from
    onlyMakes_canonicalDirectory (I := SameFiles s) hu (fun e u hu => herror e u hu) fun _ => ?_)
      fun _ _ _ => trivial)
  refine Meets.bind (leaves_rollbackSnapshot (fun e => herror e u hu) fun token hbefore => ?_)
  rw [List.getLast?_eq_some_getLast hne]
  have htemp : target.dropLast ++ [tempName actionId (target.getLast hne)] = tempOf actionId target := by
    rw [tempOf, List.getLast?_eq_some_getLast hne, Option.getD_some]
  refine Meets.goOn (Meets.bind (Meets.pure (a := target.getLast hne) (Meets.goOn ?_)))
  rw [htemp]
  refine leaves_writeThrough htarget hu hbefore (List.append_ne_nil_of_right_ne_nil _ (by simp))
    (tempOf_ne hne) fun old hold => ?_
  exact hfree target old htarget (hu.at_file_iff.1 hold)

/-! ## Undoing one write -/

theorem Wrote.ok {target : Path} (h : Wrote refuses s target bytes token s') (hv : SameFiles s' v) :
    reach refuses v target = .ok (some (.file bytes)) := by
  obtain ⟨u, -, -, rfl⟩ := h.effect
  refine reach_eq_ok.2 ⟨h.refuses_none, fun q hq => hv.at_some (h.directories q hq), hv.at_some ?_⟩
  rw [at_update h.ne_nil, if_pos rfl]

/-- The end of a rollback that writes a file again. -/
def restore (describe : IoError → String) (target : Path) (rest : Bytes) : FileProg String Unit := do
  refuse (rest.length < 4) "invalid app-private rollback token"
  let len := ofLe (rest.take 4)
  refuse (maxPlatformTextBytes < len ∨ rest.length ≠ len + 4) "invalid app-private rollback token"
  createDirAll describe "create rollback directory" target.dropLast
  ask describe "restore app-private rollback bytes" (.create target)
  ask describe "restore app-private rollback bytes" (.append target (rest.drop 4))

/-- What a write has put in place is taken away again. -/
theorem SameFiles.restore {target : Path} {e : Option Entry} (hne : target ≠ [])
    (hu : SameFiles s u) (hv : SameFiles (Function.update u target (some (.file bytes))) v)
    (he : u.at target = e) : SameFiles s (Function.update v target e) := by
  rw [Tree.at, if_neg hne] at he
  refine hu.trans fun q => ?_
  by_cases hq : q = target
  · rw [hq, Function.update_self, he]
    exact .inl rfl
  · rw [Function.update_of_ne hq]
    have hsame := hv q
    rwa [Function.update_of_ne hq] at hsame

/-- A file that was there before is written again. -/
theorem execute_restore {target : Path} {previous : Bytes}
    (hreach : reach refuses v target = .ok (some (.file bytes))) (hne : target ≠ [])
    (hlength : previous.length ≤ maxPlatformTextBytes) :
    execute (answer refuses) (restore describe target (leBytes 4 previous.length ++ previous)) v =
      (.ok (), Function.update v target (some (.file previous))) := by
  obtain ⟨-, hwalk, -⟩ := reach_eq_ok.1 hreach
  have hlarge : maxPlatformTextBytes < 256 ^ 4 := by decide
  have hbytes : (leBytes 4 previous.length).length = 4 := length_leBytes ..
  have hlen : ofLe ((leBytes 4 previous.length ++ previous).take 4) = previous.length := by
    rw [List.take_left' hbytes, ofLe_leBytes (hlength.trans_lt hlarge)]
  have hdrop : (leBytes 4 previous.length ++ previous).drop 4 = previous := List.drop_left' hbytes
  have hparents : ∀ q, q <+: target.dropLast → v.at q = some .directory := by
    intro q hq
    refine hwalk q ?_
    rw [inits_dropLast hne]
    exact (List.mem_inits ..).2 hq
  have hshort : ¬ (leBytes 4 previous.length ++ previous).length < 4 := by
    rw [List.length_append, hbytes]
    omega
  have hfits : ¬ (maxPlatformTextBytes < previous.length ∨
      (leBytes 4 previous.length ++ previous).length ≠ previous.length + 4) := by
    rw [List.length_append, hbytes]
    omega
  refine (execute_bind_ok (execute_refuse_no hshort)).trans ?_
  refine (execute_bind_ok (execute_refuse_no (by rwa [hlen]))).trans ?_
  refine (execute_bind_ok (execute_createDirAll_there hparents)).trans ?_
  refine (execute_bind_ok (execute_ask_eq_ok.2 (answer_create_file hreach))).trans ?_
  rw [hdrop]
  refine execute_ask_eq_ok.2 (Prod.ext rfl ?_)
  exact (appended_update hne).trans (by rw [List.nil_append])

/-- **A write is undone**, on any tree that has only more directories since. -/
theorem execute_rollbackWrite (describe : IoError → String) {target : Path}
    (htarget : NTD97.scopedPath path = .ok target)
    (h : Wrote refuses s target bytes token s') (hv : SameFiles s' v) :
    ∃ w, execute (answer refuses) (rollbackWrite describe [] path token) v = (.ok (), w) ∧
      SameFiles s w := by
  have hreach := h.ok hv
  obtain ⟨u, hu, hbefore, rfl⟩ := h.effect
  have hscoped : execute (answer refuses) (scopedPath describe [] path) v = (.ok target, v) := by
    rw [execute_scopedPath, htarget]
  unfold rollbackWrite
  rw [execute_bind_ok hscoped]
  cases hbefore with
  | none hnone =>
    refine ⟨_, ?_, SameFiles.restore h.ne_nil hu hv hnone⟩
    have hremove : execute (answer refuses) (removeWritten describe target) v =
        (.ok (), Function.update v target none) := by
      rw [removeWritten, execute_call, answer_remove_file hreach]
      rfl
    exact hremove
  | file previous hprevious hlength =>
    refine ⟨_, ?_, SameFiles.restore h.ne_nil hu hv hprevious⟩
    exact execute_restore hreach h.ne_nil hlength

/-! ## Undoing all writes -/

/-- **Executions of writes, one after another**, with the actions and tokens of those that
succeeded, the last one first. -/
inductive Writes (refuses : Path → Option IoError) (describe : IoError → String) :
    Tree → List (TypedAction × Bytes) → Tree → Prop
  | nil (t : Tree) : Writes refuses describe t [] t
  | ok {t s s' : Tree} {undo : List (TypedAction × Bytes)} {actionId : ActionId} {path : String}
      {bytes token : Bytes} {output : ActionOutput} {events : List (Called Reply)}
      (before : Writes refuses describe t undo s)
      (hrun : Run (DoesFile refuses) s
        (executeScopedFile describe [] actionId (.fileWrite path bytes)) events s'
        (.ret (.ok (.completed output (some token)))))
      (htidy : Tidy actionId path s events) :
      Writes refuses describe t ((.fileWrite path bytes, token) :: undo) s'
  | error {t s s' : Tree} {undo : List (TypedAction × Bytes)} {actionId : ActionId} {path : String}
      {bytes : Bytes} {e : String} {events : List (Called Reply)}
      (before : Writes refuses describe t undo s)
      (hrun : Run (DoesFile refuses) s
        (executeScopedFile describe [] actionId (.fileWrite path bytes)) events s' (.ret (.error e)))
      (htidy : Tidy actionId path s events) : Writes refuses describe t undo s'

/-- Roll back, in the order of the list. -/
def rollBack (describe : IoError → String) (undo : List (TypedAction × Bytes)) :
    FileProg String Unit :=
  undo.forM fun written => rollbackScopedFile describe [] written.1 written.2

/-- What an execution of the adapter leaves. -/
theorem run_executeScopedFile {r : Except String AdapterResult} {events : List (Called Reply)}
    (hrun : Run (DoesFile refuses) s (executeScopedFile describe [] actionId (.fileWrite path bytes))
      events s' (.ret r)) (htidy : Tidy actionId path s events) :
    (∃ e, r = .error e ∧ SameFiles s s') ∨ ∃ output token target,
      r = .ok (.completed output (some token)) ∧ NTD97.scopedPath path = .ok target ∧
        Wrote refuses s target bytes token s' := by
  have hmeets : Meets (DoesTidily refuses) (fun _ _ => True)
      (fun r s' => (∃ e, r = .error e ∧ SameFiles s s') ∨
        ∃ output token target, r = .ok (.completed output (some token)) ∧
          NTD97.scopedPath path = .ok target ∧ Wrote refuses s target bytes token s')
      (executeScopedFile describe [] actionId (.fileWrite path bytes)) s := by
    refine Meets.bind ((leaves_writeAtomic htidy.free).imp fun r s' hr => ?_)
    cases r with
    | error e => exact .inl ⟨e, rfl, hr⟩
    | ok token =>
      obtain ⟨target, htarget, hwrote⟩ := hr
      exact .inr ⟨_, token, target, rfl, htarget, hwrote⟩
  exact hmeets.ends (hrun.restrict htidy.finished)

/-- **Writes roll back exactly.** -/
theorem execute_rollBack {undo : List (TypedAction × Bytes)} (h : Writes refuses describe t undo s) :
    ∀ {v : Tree}, SameFiles s v →
      ∃ w, execute (answer refuses) (rollBack describe undo) v = (.ok (), w) ∧ SameFiles t w := by
  induction h with
  | nil => exact fun {v} hv => ⟨v, rfl, hv⟩
  | ok _ hrun htidy ih =>
    intro v hv
    obtain ⟨e, he, -⟩ | ⟨output, token, target, hr, htarget, hwrote⟩ := run_executeScopedFile hrun htidy
    · cases he
    · cases hr
      obtain ⟨w, hw, hsame⟩ := execute_rollbackWrite describe htarget hwrote hv
      obtain ⟨w', hw', hsame'⟩ := ih hsame
      exact ⟨w', (execute_bind_ok hw).trans hw', hsame'⟩
  | error _ hrun htidy ih =>
    intro v hv
    obtain ⟨e, -, hsame⟩ | ⟨output, token, target, hr, -, -⟩ := run_executeScopedFile hrun htidy
    · exact ih (hsame.trans hv)
    · cases hr

/-- **Writes that keep to themselves are rolled back exactly**: the regular files are those of the
beginning. -/
theorem rollBack_writes {undo : List (TypedAction × Bytes)} (h : Writes refuses describe t undo s) :
    ∃ w, execute (answer refuses) (rollBack describe undo) s = (.ok (), w) ∧
      ∀ q bytes, w.at q = some (.file bytes) ↔ t.at q = some (.file bytes) := by
  obtain ⟨w, hw, hsame⟩ := execute_rollBack h (.refl s)
  exact ⟨w, hw, fun q bytes => hsame.at_file_iff⟩

end Undo

/-! ## Writes in an empty root, and a file in the way -/

namespace UndoSample

open ResumeSample

def write (actionId : UInt64) (path : String) (bytes : Bytes) : FileProg String AdapterResult :=
  executeScopedFile (fun _ => "io") [] ⟨actionId⟩ (.fileWrite path bytes)

/-- The user has a file of the name that the write of action 1 goes through. -/
def taken : Tree := Function.update root [".a.ntd97-1"] (some (.file [7]))

/-- The token of a write that succeeded. -/
def tokenOf : Except String AdapterResult → Bytes
  | .ok (.completed _ (some token)) => token
  | _ => []

def isWritten : Except String AdapterResult → Bool
  | .ok (.completed _ (some _)) => true
  | _ => false

/-- What a write leaves. -/
def written (actionId : UInt64) (path : String) (bytes : Bytes) (t : Tree) : Tree :=
  (execute work (write actionId path bytes) t).2

def undoOne (actionId : UInt64) (path : String) (bytes : Bytes) (t : Tree) : TypedAction × Bytes :=
  (.fileWrite path bytes, tokenOf (execute work (write actionId path bytes) t).1)

def isTidy (actionId : UInt64) (path : String) (bytes : Bytes) (t : Tree) : Bool :=
  ((NTD97.scopedPath path).toOption.all fun target => (t.at (tempOf ⟨actionId⟩ target)).isNone) &&
    (calls work (write actionId path bytes) t).all fun event => !Unfinished event

/-- Two new files, one in a new directory; a write on the directory; the first file again. -/
def one : Tree := written 1 "a" [1] root

def two : Tree := written 2 "d/b" [2] one

def three : Tree := written 3 "d" [3] two

def four : Tree := written 4 "a" [4] three

theorem sample_writes : (isWritten (execute work (write 1 "a" [1]) root).1 = true ∧
      isTidy 1 "a" [1] root = true) ∧
    (isWritten (execute work (write 2 "d/b" [2]) one).1 = true ∧ isTidy 2 "d/b" [2] one = true) ∧
    ((execute work (write 3 "d" [3]) two).1.isOk = false ∧ isTidy 3 "d" [3] two = true) ∧
    (isWritten (execute work (write 4 "a" [4]) three).1 = true ∧ isTidy 4 "a" [4] three = true) ∧
    four.at ["a"] = some (.file [4]) := by
  decide +kernel

theorem run_write {actionId : UInt64} {path : String} {bytes : Bytes} {t : Tree}
    (h : isWritten (execute work (write actionId path bytes) t).1 = true) : ∃ output,
    Run (DoesFile fun _ => none) t (write actionId path bytes)
      (calls work (write actionId path bytes) t) (written actionId path bytes t)
      (.ret (.ok (.completed output (some (undoOne actionId path bytes t).2)))) := by
  have hrun := run_execute does_work (write actionId path bytes) t
  rw [written, undoOne]
  generalize (execute work (write actionId path bytes) t).1 = r at h hrun
  rcases r with e | result
  · cases h
  · cases result with
    | completed output token =>
      cases token with
      | none => cases h
      | some token => exact ⟨output, hrun⟩
    | _ => cases h

theorem tidy_of_isTidy {actionId : UInt64} {path : String} {bytes : Bytes} {t : Tree}
    (h : isTidy actionId path bytes t = true) :
    Tidy ⟨actionId⟩ path t (calls work (write actionId path bytes) t) := by
  obtain ⟨hfree, hfinished⟩ := Bool.and_eq_true_iff.1 h
  refine ⟨fun target old htarget hold => ?_, fun event hevent => ?_⟩
  · rw [htarget] at hfree
    change (t.at (tempOf ⟨actionId⟩ target)).isNone = true at hfree
    rw [hold] at hfree
    exact nomatch hfree
  · have hall := List.all_eq_true.1 hfinished event hevent
    simpa using hall

/-- One write more, which succeeds or fails. -/
theorem writes_written {actionId : UInt64} {path : String} {bytes : Bytes} {s t : Tree}
    {undo : List (TypedAction × Bytes)} (before : Writes (fun _ => none) (fun _ => "io") t undo s)
    (h : isWritten (execute work (write actionId path bytes) s).1 = true ∧
      isTidy actionId path bytes s = true) :
    Writes (fun _ => none) (fun _ => "io") t (undoOne actionId path bytes s :: undo)
      (written actionId path bytes s) := by
  obtain ⟨output, hrun⟩ := run_write h.1
  exact before.ok hrun (tidy_of_isTidy h.2)

theorem writes_refused {actionId : UInt64} {path : String} {bytes : Bytes} {s t : Tree}
    {undo : List (TypedAction × Bytes)} (before : Writes (fun _ => none) (fun _ => "io") t undo s)
    (h : (execute work (write actionId path bytes) s).1.isOk = false ∧
      isTidy actionId path bytes s = true) :
    Writes (fun _ => none) (fun _ => "io") t undo (written actionId path bytes s) := by
  have hrun := run_execute does_work (write actionId path bytes) s
  rcases hr : (execute work (write actionId path bytes) s).1 with e | result
  · rw [hr] at hrun
    exact before.error hrun (tidy_of_isTidy h.2)
  · rw [hr] at h
    exact nomatch h.1

/-- Three writes that succeed, the last one over the first, and one between them that fails. -/
theorem rollBack_writes_four : four.at ["a"] = some (.file [4]) ∧
    ∃ w, execute work (rollBack (fun _ => "io")
        [undoOne 4 "a" [4] three, undoOne 2 "d/b" [2] one, undoOne 1 "a" [1] root]) four =
      (.ok (), w) ∧
    ∀ q bytes, w.at q = some (.file bytes) ↔ root.at q = some (.file bytes) := by
  obtain ⟨hone, htwo, hthree, hfour, hover⟩ := sample_writes
  have hwrites := writes_written (writes_refused (writes_written (writes_written (.nil root) hone)
    htwo) hthree) hfour
  exact ⟨hover, rollBack_writes hwrites⟩

theorem sample_taken : isWritten (execute work (write 1 "a" [1]) taken).1 = true ∧
    (execute work (rollBack (fun _ => "io") [undoOne 1 "a" [1] taken])
      (written 1 "a" [1] taken)).1.isOk = true ∧
    (execute work (rollBack (fun _ => "io") [undoOne 1 "a" [1] taken])
      (written 1 "a" [1] taken)).2 [".a.ntd97-1"] = none := by
  decide +kernel

/-- **The user's file is gone**: the write went through it, and the rollback knows nothing of it. -/
theorem rollBack_taken : ∃ output token s w,
    Run (DoesFile fun _ => none) taken (write 1 "a" [1]) (calls work (write 1 "a" [1]) taken) s
      (.ret (.ok (.completed output (some token)))) ∧
    execute work (rollBack (fun _ => "io") [(.fileWrite "a" [1], token)]) s = (.ok (), w) ∧
    taken.at [".a.ntd97-1"] = some (.file [7]) ∧ w.at [".a.ntd97-1"] = none := by
  obtain ⟨hwritten, hundone, hgone⟩ := sample_taken
  obtain ⟨output, hrun⟩ := run_write hwritten
  rcases hundo : execute work (rollBack (fun _ => "io") [undoOne 1 "a" [1] taken])
    (written 1 "a" [1] taken) with ⟨e | ⟨⟩, w⟩
  · rw [hundo] at hundone
    cases hundone
  · rw [hundo] at hgone
    exact ⟨output, _, _, w, hrun, hundo, rfl, hgone⟩

end UndoSample

end Stepwise

end NTD97
