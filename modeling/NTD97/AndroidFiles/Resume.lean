import Mathlib
import NTD97.AndroidFiles.Steps

/-!
# AndroidFiles/Resume — a download that is resumed twice

    stage ──read, hash──▸ ──make directories──▸ ──rename──▸ target ──sync──▸ Completed

Until the rename a resumed download has only made directories, which it would make again
(`MoreDirs`).  The rename takes its own input away: behind it, nothing is staged any more.  And some
targets can never be committed, among them the staging directory itself (`Committable`).
-/

namespace NTD97

open Guard Text Wire Files Steps

namespace Stepwise

/-! ## The parts of a commit -/

section Parts

variable {refuses : Path → Option IoError} {describe : IoError → String} {D : Path → Prop}
  {t t' u : Tree}

theorem alike_createDirAll {what : String} {path : Path} (h : MoreDirs D t t') :
    Alike refuses D (createDirAll describe what path) t t' := by
  unfold createDirAll
  generalize path.inits = parts
  induction parts generalizing t t' with
  | nil => exact Alike.of_check (.ok ()) h
  | cons part parts ih =>
    exact Alike.bind (Alike.of_ask fun a u hu => answer_makeDir_moreDirs h hu)
      fun _ _ _ _ hmore => ih hmore

/-- On a tree without links the inspection of a path finds nothing. -/
theorem execute_inspect (path : Path) :
    execute (answer refuses) (inspect describe path) t = (.ok (), t) := by
  have hstat : (answer refuses (.stat path) t).2 = t := rfl
  rw [inspect, execute_call, hstat]
  rcases hkind : reach refuses t path >>= kindOf with e | kind
  · have hreply : (answer refuses (.stat path) t).1 = .error e := by
      change Except.map _ (reach refuses t path >>= kindOf) = _
      rw [hkind]
      rfl
    rw [hreply]
    rfl
  · have hreply : (answer refuses (.stat path) t).1 = .ok () := by
      change Except.map _ (reach refuses t path >>= kindOf) = _
      rw [hkind]
      rfl
    have hmeta : answer refuses (.metadata path) t = (.ok kind, t) := by
      change (reach refuses t path >>= kindOf, t) = _
      rw [hkind]
      rfl
    have hlink : ¬ kind = .link := by
      rintro rfl
      obtain ⟨e, -, hk⟩ := bind_eq_ok.1 hkind
      rcases e with _ | ⟨_ | _⟩ <;> cases hk
    rw [hreply]
    refine execute_bind_eq_ok.2 ⟨kind, t, execute_ask_eq_ok.2 hmeta, ?_⟩
    exact execute_refuse_eq_ok.2 ⟨hlink, rfl⟩

theorem execute_scopedPath (relative : String) :
    execute (answer refuses) (scopedPath describe [] relative) t =
      (NTD97.scopedPath relative, t) := by
  have hwalk : ∀ parts : List Path,
      execute (answer refuses) (parts.forM fun part => inspect describe ([] ++ part)) t =
        (.ok (), t) := by
    intro parts
    induction parts with
    | nil => rfl
    | cons part parts ih => exact (execute_bind_ok (execute_inspect _)).trans ih
  unfold scopedPath
  rcases NTD97.scopedPath relative with e | components
  · rfl
  · exact (execute_bind_ok rfl).trans (execute_bind_ok (hwalk _))

/-- **Directories that were made are there**, and nothing else has changed. -/
theorem execute_createDirAll {what : String} {path : Path} {a : Unit}
    (hD : ∀ q, q ≠ [] → q <+: path → D q)
    (h : execute (answer refuses) (createDirAll describe what path) t = (.ok a, u)) :
    MoreDirs D t u ∧ ∀ q, q <+: path → u.at q = some .directory := by
  have hwalk : ∀ (parts : List Path) (t : Tree), (∀ q ∈ parts, q <+: path) →
      execute (answer refuses) (parts.forM fun part => ask describe what (.makeDir path part)) t =
        (.ok a, u) → MoreDirs D t u ∧ ∀ q ∈ parts, u.at q = some .directory := by
    intro parts
    induction parts with
    | nil =>
      intro t _ h
      cases h
      exact ⟨.refl _, fun q hq => absurd hq List.not_mem_nil⟩
    | cons part parts ih =>
      intro t hparts h
      obtain ⟨a', v, hv, hrest⟩ := execute_bind_eq_ok.1 h
      obtain ⟨hthere, hmore⟩ := answer_makeDir_ok
        (fun hne => hD part hne (hparts part List.mem_cons_self)) (execute_ask_eq_ok.1 hv)
      obtain ⟨hmore', hothers⟩ := ih v (fun q hq => hparts q (List.mem_cons_of_mem part hq)) hrest
      exact ⟨hmore.trans hmore', List.forall_mem_cons.2 ⟨hmore'.at_some hthere, hothers⟩⟩
  obtain ⟨hmore, hall⟩ := hwalk path.inits t (fun q hq => (List.mem_inits q path).1 hq) h
  exact ⟨hmore, fun q hq => hall q ((List.mem_inits q path).2 hq)⟩

/-- **When directories can be made**: each is there, or is missing and not refused. -/
theorem exists_execute_createDirAll_iff {what : String} {path : Path} :
    (∃ u, execute (answer refuses) (createDirAll describe what path) t = (.ok (), u)) ↔
      ∀ q, q <+: path → t.at q = some .directory ∨ t.at q = none ∧ refuses q = none := by
  have hwalk : ∀ {parts : List Path} {t : Tree},
      (∃ u, execute (answer refuses) (parts.forM fun part => ask describe what (.makeDir path part)) t =
          (.ok (), u)) ↔
        ∀ q ∈ parts, t.at q = some .directory ∨ t.at q = none ∧ refuses q = none := by
    intro parts
    induction parts with
    | nil => exact fun {t} => iff_of_true ⟨t, rfl⟩ fun q hq => absurd hq List.not_mem_nil
    | cons part parts ih =>
      intro t
      have hstep (u : Tree) (hmake : answer refuses (.makeDir path part) t = (.ok (), u)) :
          (∃ v, execute (answer refuses) ((part :: parts).forM fun part =>
              ask describe what (.makeDir path part)) t = (.ok (), v)) ↔
            ∀ q ∈ parts, u.at q = some .directory ∨ u.at q = none ∧ refuses q = none := by
        rw [← ih]
        refine exists_congr fun v => ?_
        have hrun : execute (answer refuses) ((part :: parts).forM fun part =>
            ask describe what (.makeDir path part)) t = execute (answer refuses)
              (parts.forM fun part => ask describe what (.makeDir path part)) u :=
          execute_bind_ok (execute_ask_eq_ok.2 hmake)
        rw [hrun]
      rw [List.forall_mem_cons]
      by_cases hdir : t.at part = some .directory
      · rw [hstep t (answer_makeDir_there hdir)]
        exact (and_iff_right (.inl hdir)).symm
      by_cases hnew : t.at part = none ∧ refuses part = none
      · rw [hstep _ (answer_makeDir_new hnew.1 hnew.2), and_iff_right (.inr hnew)]
        refine forall₂_congr fun q hq => ?_
        rw [at_update (ne_nil_of_at hdir)]
        split
        · next heq => exact heq ▸ iff_of_true (.inl rfl) (.inr hnew)
        · exact Iff.rfl
      · refine iff_of_false ?_ fun h => h.1.elim hdir hnew
        rintro ⟨u, hu⟩
        obtain ⟨a, v, hv, -⟩ := execute_bind_eq_ok.1 hu
        obtain ⟨e, he⟩ := answer_makeDir_error path hdir
          fun hnone hrefuses => hnew ⟨hnone, hrefuses⟩
        cases he.symm.trans (execute_ask_eq_ok.1 hv)
  unfold createDirAll
  rw [hwalk]
  simp only [List.mem_inits]

/-- Directories that are there need not be made. -/
theorem execute_createDirAll_there {what : String} {directory : Path}
    (h : ∀ q, q <+: directory → t.at q = some .directory) :
    execute (answer refuses) (createDirAll describe what directory) t = (.ok (), t) := by
  have hwalk : ∀ parts : List Path, (∀ q ∈ parts, t.at q = some .directory) →
      execute (answer refuses) (parts.forM fun part => ask describe what (.makeDir directory part))
        t = (.ok (), t) := by
    intro parts
    induction parts with
    | nil => exact fun _ => rfl
    | cons part parts ih =>
      intro hparts
      obtain ⟨hpart, hrest⟩ := List.forall_mem_cons.1 hparts
      exact (execute_bind_ok (execute_ask_eq_ok.2 (answer_makeDir_there hpart))).trans (ih hrest)
  exact hwalk directory.inits fun q hq => h q ((List.mem_inits ..).1 hq)

/-- A directory that is found is where it was looked for. -/
theorem execute_canonicalDirectory {what escaped : String} {path canonical : Path}
    (h : execute (answer refuses) (canonicalDirectory describe [] path what escaped) t =
      (.ok canonical, u)) :
    canonical = path ∧ u = t ∧ ∃ e, reach refuses t path = .ok (some e) := by
  obtain ⟨canonical', v, hask, hrest⟩ := execute_bind_eq_ok.1 h
  obtain ⟨a, v', hrefuse, hpure⟩ := execute_bind_eq_ok.1 hrest
  obtain ⟨-, rfl⟩ := execute_refuse_eq_ok.1 hrefuse
  cases hpure
  have hanswer := execute_ask_eq_ok.1 hask
  obtain ⟨hpath, rfl⟩ := Prod.mk.inj hanswer
  rcases hreach : reach refuses t path with e | e
  · rw [hreach] at hpath
    cases hpath
  · rw [hreach] at hpath
    rcases e with _ | e
    · cases hpath
    · rcases e with _ | _ <;> cases hpath <;> exact ⟨rfl, rfl, _, rfl⟩

/-- A directory that can be reached is found. -/
theorem execute_canonicalDirectory_there {what escaped : String} {path : Path} {e : Entry}
    (h : reach refuses t path = .ok (some e)) :
    execute (answer refuses) (canonicalDirectory describe [] path what escaped) t = (.ok path, t) := by
  refine (execute_bind_ok (execute_ask_eq_ok.2 (answer_canonicalize_there h))).trans ?_
  exact execute_bind_ok (execute_refuse_no fun hescaped => hescaped List.nil_prefix)

end Parts

/-! ## Resuming -/

section Resume

variable {refuses : Path → Option IoError} {describe : IoError → String} {t t' u : Tree}
  {actionId : ActionId} {path : String} {resumeToken : Bytes}

/-- The directory of the staged files. -/
def staging : Path := [".ntd97-download"]

/-- Where the body of a download is staged. -/
def stageOf (actionId : ActionId) : Path := staging ++ [toString actionId.val ++ ".part"]

theorem stageOf_ne_nil : stageOf actionId ≠ [] := List.cons_ne_nil _ _

/-- The directories that a commit to a target makes. -/
def Made (target : Path) (q : Path) : Prop := q ≠ [] ∧ (q <+: staging ∨ q <+: target.dropLast)

theorem alike_ask_same {D : Path → Prop} {what : String} {c : FileCall} (h : MoreDirs D t t')
    (hsame : ∀ a, (answer refuses c t).1 = .ok a → (answer refuses c t').1 = .ok a)
    (hquiet : ∀ t, (answer refuses c t).2 = t) : Alike refuses D (ask describe what c) t t' := by
  refine Alike.of_ask fun a u hu => ⟨t', ?_, ?_⟩
  · exact Prod.ext (hsame a (congrArg Prod.fst hu)) (hquiet t')
  · obtain rfl : t = u := (hquiet t).symm.trans (congrArg Prod.snd hu)
    exact h

theorem alike_canonicalDirectory {D : Path → Prop} {what escaped : String} {directory : Path}
    (h : MoreDirs D t t') :
    Alike refuses D (canonicalDirectory describe [] directory what escaped) t t' := by
  refine Alike.bind (alike_ask_same h (fun a ha => ?_) fun _ => rfl) fun a u u' _ hmore =>
    Alike.bind (Alike.of_refuse hmore) fun _ _ _ _ hmore => Alike.of_check (.ok _) hmore
  change Except.map _ (reach refuses t directory >>= kindOf) = _ at ha
  change Except.map _ (reach refuses t' directory >>= kindOf) = _
  rcases hreach : reach refuses t directory with e | _ | e
  · rw [hreach] at ha
    cases ha
  · rw [hreach] at ha
    cases ha
  · rw [hreach] at ha
    rw [h.reach_some hreach]
    exact ha

theorem alike_read {D : Path → Prop} {what : String} {file : Path} (h : MoreDirs D t t') :
    Alike refuses D (ask describe what (.read file)) t t' := by
  refine alike_ask_same h (fun a ha => ?_) fun _ => rfl
  exact readAt_eq_ok.2 (h.reach_some (readAt_eq_ok.1 ha))

/-- **A commit does on more directories what it does without them.** -/
theorem alike_commitStaging {expectedHash : Bytes} {target : Path}
    (htarget : NTD97.scopedPath path = .ok target) (h : MoreDirs (Made target) t t') :
    Alike refuses (Made target) (commitStaging describe [] actionId path expectedHash) t t' := by
  refine Alike.bind ?_ fun stage u u' hu hmore => ?_
  · refine Alike.bind (alike_createDirAll h) fun _ _ _ _ hmore => ?_
    exact Alike.bind (alike_canonicalDirectory hmore) fun _ _ _ _ hmore => Alike.of_check (.ok _) hmore
  -- the staging directory is there from here on
  have hstaging : ∀ q, q <+: staging → u.at q = some .directory := by
    obtain ⟨_, v, hdirs, hrest⟩ := execute_bind_eq_ok.1 hu
    obtain ⟨_, v', hcanonical, hpure⟩ := execute_bind_eq_ok.1 hrest
    cases hpure
    obtain ⟨-, rfl, -⟩ := execute_canonicalDirectory hcanonical
    exact (execute_createDirAll (D := Made target) (fun q hne hq => ⟨hne, .inl hq⟩) hdirs).2
  refine Alike.bind (alike_read hmore) fun bytes v v' hv hmore => ?_
  obtain rfl : u = v := congrArg Prod.snd (execute_ask_eq_ok.1 hv)
  refine Alike.bind (Alike.of_refuse hmore) fun _ w w' hw hmore => ?_
  obtain ⟨-, rfl⟩ := execute_refuse_eq_ok.1 hw
  refine Alike.bind ?_ fun target' w w' hw hmore => ?_
  · intro a w hw
    rw [execute_scopedPath] at hw ⊢
    obtain ⟨ha, rfl⟩ := Prod.mk.inj hw
    exact ⟨w', by rw [ha], hmore⟩
  rw [execute_scopedPath, htarget] at hw
  cases hw
  refine Alike.bind (alike_createDirAll hmore) fun _ w w' hw hmore => ?_
  obtain ⟨hgrown, hparent⟩ := execute_createDirAll (D := Made target)
    (fun q hne hq => ⟨hne, .inr hq⟩) hw
  -- all its directories are there, so there are no more
  obtain rfl : w' = w := hmore.eq_of_all fun q hq => by
    have hat : w.at q = some .directory := hq.2.elim (fun hs => hgrown.at_some (hstaging q hs))
      (hparent q)
    rwa [Tree.at, if_neg hq.1] at hat
  exact fun a u hu => ⟨u, hu, .refl u⟩

/-- **A resumed download does on more directories what it does without them.** -/
theorem alike_resumeDownload {target : Path} (htarget : NTD97.scopedPath path = .ok target)
    (h : MoreDirs (Made target) t t') :
    Alike refuses (Made target) (resumeDownload describe [] actionId path resumeToken) t t' :=
  Alike.bind (Alike.of_check _ h) fun _ _ _ _ hmore =>
    Alike.bind (alike_commitStaging htarget hmore) fun _ _ _ _ hmore => Alike.of_check (.ok _) hmore

theorem scopedPath_ne_nil {relative : String} {target : Path}
    (h : NTD97.scopedPath relative = .ok target) : target ≠ [] := by
  obtain ⟨_, hrefuse, h⟩ := bind_eq_ok.1 h
  obtain ⟨_, -, hpure⟩ := bind_eq_ok.1 h
  obtain ⟨-, hhead⟩ := not_or.1 (refuse_eq_ok.1 hrefuse)
  obtain ⟨part, parts, hparts⟩ := List.exists_cons_of_ne_nil (List.splitOn_ne_nil '/' relative.toList)
  rw [hparts, List.map_cons, List.head?_cons] at hhead
  have hfirst : String.ofList part ≠ "" := fun hempty => hhead (congrArg some hempty)
  rw [← pure_eq_ok.1 hpure, hparts, List.map_cons, List.head?_cons]
  simp [hfirst]

-- a path is not to be evaluated when a goal is looked at
seal NTD97.scopedPath

/-- **A commit that succeeds** read the staged file, and left its bytes at the target. -/
theorem execute_commitStaging {expectedHash : Bytes} {a : ℕ × Digest}
    (h : execute (answer refuses) (commitStaging describe [] actionId path expectedHash) t =
      (.ok a, u)) :
    ∃ target bytes, NTD97.scopedPath path = .ok target ∧
      t.at (stageOf actionId) = some (.file bytes) ∧ u.at target = some (.file bytes) := by
  obtain ⟨stage, v, hstage, h₁⟩ := execute_bind_eq_ok.1 h
  obtain ⟨_, v₁, hdirs, hrest⟩ := execute_bind_eq_ok.1 hstage
  obtain ⟨_, v₂, hcanonical, hpure⟩ := execute_bind_eq_ok.1 hrest
  cases hpure
  obtain ⟨rfl, rfl, -⟩ := execute_canonicalDirectory hcanonical
  obtain ⟨hgrown, -⟩ := execute_createDirAll (D := fun _ => True) (fun _ _ _ => trivial) hdirs
  obtain ⟨bytes, v₃, hread, h₂⟩ := execute_bind_eq_ok.1 h₁
  obtain ⟨-, rfl⟩ := Prod.mk.inj (execute_ask_eq_ok.1 hread)
  obtain ⟨_, v₄, hrefuse, h₃⟩ := execute_bind_eq_ok.1 h₂
  obtain ⟨-, rfl⟩ := execute_refuse_eq_ok.1 hrefuse
  obtain ⟨target, v₅, hscoped, h₄⟩ := execute_bind_eq_ok.1 h₃
  rw [execute_scopedPath] at hscoped
  obtain ⟨htarget, rfl⟩ := Prod.mk.inj hscoped
  obtain ⟨_, v₆, hparents, h₅⟩ := execute_bind_eq_ok.1 h₄
  obtain ⟨hgrown', -⟩ := execute_createDirAll (D := fun _ => True) (fun _ _ _ => trivial) hparents
  obtain ⟨parent, v₇, hcanonical', h₆⟩ := execute_bind_eq_ok.1 h₅
  obtain ⟨-, rfl, -⟩ := execute_canonicalDirectory hcanonical'
  obtain ⟨_, v₈, hrename, h₇⟩ := execute_bind_eq_ok.1 h₆
  obtain ⟨_, v₉, hsync, hpure⟩ := execute_bind_eq_ok.1 h₇
  obtain ⟨-, rfl⟩ := Prod.mk.inj (execute_ask_eq_ok.1 hsync)
  cases hpure
  obtain ⟨staged, hstaged, -, rfl⟩ := answer_rename_ok (execute_ask_eq_ok.1 hrename)
  obtain ⟨-, -, hat⟩ := reach_eq_ok.1 (readAt_eq_ok.1 hstaged)
  refine ⟨target, staged, htarget, (hgrown.trans hgrown').at_file_iff.1 hat, ?_⟩
  rw [at_update (scopedPath_ne_nil htarget), if_pos rfl]

/-! ## Interrupted runs -/

/-- A rename that took effect. -/
def Commits (event : Called Reply) : Prop := ∃ source target, event = ⟨.rename source target, .ok ()⟩

/-- Every rename of a commit is from the staged file to the target. -/
def Moves (stage target : Path) (c : FileCall) : Prop :=
  ∀ source target', c = .rename source target' → source = stage ∧ target' = target

/-- What a call may do in a run whose events are all `E`. -/
abbrev DoesOnly (refuses : Path → Option IoError) (E : Called Reply → Prop) : Does Reply Tree :=
  fun c t r t' => DoesFile refuses c t r t' ∧ E ⟨c, r⟩

section Interrupted

variable {E : Called Reply → Prop} {stage target : Path} {I : Tree → Prop} {s start : Tree}

/-- **A program whose events are all `E`**: `I` holds before each call, and `Q` in the end. -/
abbrev OnlyMakes {α : Type} (refuses : Path → Option IoError) (E : Called Reply → Prop)
    (stage target : Path) (I : Tree → Prop) (Q : Except String α → Tree → Prop)
    (p : FileProg String α) (s : Tree) : Prop :=
  Meets (DoesOnly refuses E) (fun c s => I s ∧ Moves stage target c) Q p s

/-- A call that answers without doing anything. -/
theorem onlyMakes_quiet {what : String} {c : FileCall} {Q : Except String c.Answer → Tree → Prop}
    (hs : I s) (hQ : ∀ e s, I s → Q (.error e) s) (hquiet : (answer refuses c s).2 = s)
    (hc : ∀ path bytes, c ≠ .append path bytes) (hmoves : ∀ source target, c ≠ .rename source target)
    (hok : ∀ a, (answer refuses c s).1 = .ok a → Q (.ok a) s) :
    OnlyMakes refuses E stage target I Q (ask describe what c) s := by
  refine ⟨⟨hs, fun _ _ h => absurd h (hmoves _ _)⟩, fun r s' hdoes => ?_⟩
  cases r with
  | ok a =>
    have hanswer := doesFile_ok hdoes.1
    obtain rfl : s = s' := hquiet.symm.trans (congrArg Prod.snd hanswer)
    exact hok a (congrArg Prod.fst hanswer)
  | error e =>
    obtain rfl := doesFile_error hc hdoes.1
    exact hQ _ _ hs

theorem onlyMakes_createDirAll {D : Path → Prop} {what : String} {directory : Path}
    {Q : Except String Unit → Tree → Prop} (hs : MoreDirs D start s)
    (hQ : ∀ e s, MoreDirs D start s → Q (.error e) s)
    (hD : ∀ q, q ≠ [] → q <+: directory → D q) (hok : ∀ s, MoreDirs D start s → Q (.ok ()) s) :
    OnlyMakes refuses E stage target (MoreDirs D start) Q (createDirAll describe what directory)
      s := by
  refine Meets.forM (I := MoreDirs D start) hok hs fun part hpart s hs =>
    ⟨⟨hs, fun _ _ h => by cases h⟩, fun r s' hdoes => ?_⟩
  cases r with
  | ok a =>
    have hmore := (answer_makeDir_ok (fun hne => hD part hne ((List.mem_inits ..).1 hpart))
      (doesFile_ok hdoes.1)).2
    exact hs.trans hmore
  | error e =>
    obtain rfl := doesFile_error (fun _ _ h => by cases h) hdoes.1
    exact hQ _ _ hs

theorem onlyMakes_refuse {c : Prop} [Decidable c] {e : String} {Q : Except String Unit → Tree → Prop}
    (hs : I s) (hQ : ∀ e s, I s → Q (.error e) s) (hok : Q (.ok ()) s) :
    OnlyMakes refuses E stage target I Q (refuse c e) s :=
  Meets.refuse (fun _ => hQ _ _ hs) fun _ => hok

theorem onlyMakes_canonicalDirectory {what escaped : String} {directory : Path}
    {Q : Except String Path → Tree → Prop} (hs : I s) (hQ : ∀ e s, I s → Q (.error e) s)
    (hok : refuses directory = none → Q (.ok directory) s) :
    OnlyMakes refuses E stage target I Q (canonicalDirectory describe [] directory what escaped)
      s := by
  refine Meets.bind (onlyMakes_quiet hs hQ rfl (fun _ _ h => by cases h) (fun _ _ h => by cases h)
    fun (a : Path) ha => ?_)
  refine Meets.bind (onlyMakes_refuse hs hQ ?_)
  change Except.map _ (reach refuses s directory >>= kindOf) = _ at ha
  rcases hreach : reach refuses s directory with e | e
  · rw [hreach] at ha
    cases ha
  · have hpath : a = directory := by
      rw [hreach] at ha
      rcases e with _ | ⟨_ | _⟩ <;> cases ha <;> rfl
    rw [hpath]
    exact hok (reach_eq_ok.1 hreach).1

theorem onlyMakes_inspect {part : Path} {Q : Except String Unit → Tree → Prop} (hs : I s)
    (hQ : ∀ e s, I s → Q (.error e) s) (hok : Q (.ok ()) s) :
    OnlyMakes refuses E stage target I Q (inspect describe part) s := by
  refine ⟨⟨hs, fun _ _ h => by cases h⟩, fun r s' hdoes => ?_⟩
  cases r with
  | error e =>
    obtain rfl := doesFile_error (fun _ _ h => by cases h) hdoes.1
    exact hok
  | ok a =>
    obtain rfl : s = s' := congrArg Prod.snd (doesFile_ok hdoes.1)
    exact Meets.bind (onlyMakes_quiet hs hQ rfl (fun _ _ h => by cases h)
      (fun _ _ h => by cases h) fun (_ : Kind) _ => onlyMakes_refuse hs hQ hok)

theorem onlyMakes_scopedPath {relative : String} {Q : Except String Path → Tree → Prop} (hs : I s)
    (hQ : ∀ e s, I s → Q (.error e) s)
    (hok : ∀ target, NTD97.scopedPath relative = .ok target → Q (.ok target) s) :
    OnlyMakes refuses E stage target I Q (scopedPath describe [] relative) s := by
  unfold scopedPath
  rcases hparts : NTD97.scopedPath relative with e | components
  · exact hQ _ _ hs
  · refine Meets.bind (Meets.bind ?_)
    refine Meets.forM (I := fun u => u = s) (fun u hu => ?_) rfl fun part _ u hu => ?_
    · rw [hu]
      exact hok components hparts
    · rw [hu]
      exact onlyMakes_inspect hs (fun e s hs => hQ e s hs) rfl

theorem onlyMakes_stagePath {D : Path → Prop} {Q : Except String Path → Tree → Prop}
    (hD : ∀ q, q ≠ [] → q <+: staging → D q) (hs : MoreDirs D start s)
    (hQ : ∀ e s, MoreDirs D start s → Q (.error e) s)
    (hok : ∀ s, MoreDirs D start s → refuses staging = none → Q (.ok (stageOf actionId)) s) :
    OnlyMakes refuses E stage target (MoreDirs D start) Q (stagePath describe [] actionId) s := by
  refine Meets.bind (onlyMakes_createDirAll hs hQ hD fun s hs => ?_)
  exact Meets.bind (onlyMakes_canonicalDirectory hs hQ (hok s hs))

/-- The end of a commit, behind the check of the staged bytes. -/
def commitTo (describe : IoError → String) (stage : Path) (bytes : Bytes) (target : Path) :
    FileProg String (ℕ × Digest) := do
  createDirAll describe "create artifact target directory" target.dropLast
  let canonicalParent ← canonicalDirectory describe [] target.dropLast
    "canonicalize artifact target directory" "artifact target escaped capability root"
  ask describe "commit staged artifact" (.rename stage target)
  ask describe "sync artifact directory" (.sync canonicalParent)
  return (bytes.length, sha256 bytes)

theorem commitStaging_eq {expectedHash : Bytes} :
    commitStaging describe [] actionId path expectedHash = (do
      let stage ← stagePath describe [] actionId
      let bytes : Bytes ← ask describe "read staged artifact" (.read stage)
      refuse ((sha256 bytes).bytes ≠ expectedHash) "staged artifact hash mismatch"
      let target ← scopedPath describe [] path
      commitTo describe stage bytes target) := rfl

/-- A file that is renamed to itself stays as it is. -/
theorem answer_rename_self {u : Tree} {a : Unit} (hne : stage ≠ [])
    (h : answer refuses (.rename stage stage) s = (.ok a, u)) : u = s := by
  obtain ⟨bytes, hread, -, rfl⟩ := answer_rename_ok h
  obtain ⟨-, -, hat⟩ := reach_eq_ok.1 (readAt_eq_ok.1 hread)
  rw [Tree.at, if_neg hne] at hat
  rw [Function.update_idem, ← hat, Function.update_eq_self]

theorem onlyMakes_commitTo {bytes : Bytes} {Q : Except String (ℕ × Digest) → Tree → Prop}
    (hne : stage ≠ []) (hE : ∀ event, E event → Commits event → target = stage)
    (hQ : ∀ r s, MoreDirs (Made target) start s → Q r s) (hs : MoreDirs (Made target) start s) :
    OnlyMakes refuses E stage target (MoreDirs (Made target) start) Q
      (commitTo describe stage bytes target) s := by
  have herror (e : String) := hQ (.error e)
  refine Meets.bind (onlyMakes_createDirAll hs herror (fun q hne hq => ⟨hne, .inr hq⟩)
    fun s hs => ?_)
  refine Meets.bind (onlyMakes_canonicalDirectory hs herror fun _ => ?_)
  have hmoves : Moves stage target (.rename stage target) := by
    intro source target' h
    cases h
    exact ⟨rfl, rfl⟩
  refine Meets.bind ⟨⟨hs, hmoves⟩, fun r s' hdoes => ?_⟩
  cases r with
  | ok a =>
    obtain rfl := hE _ hdoes.2 ⟨_, _, rfl⟩
    obtain rfl := answer_rename_self hne (doesFile_ok hdoes.1)
    exact Meets.bind (onlyMakes_quiet hs herror rfl (fun _ _ h => by cases h)
      (fun _ _ h => by cases h) fun _ _ => hQ _ _ hs)
  | error e =>
    obtain rfl := doesFile_error (fun _ _ h => by cases h) hdoes.1
    exact herror _ _ hs

/-- **Before its rename, a commit makes directories and nothing else.** -/
theorem onlyMakes_commitStaging {expectedHash : Bytes}
    {Q : Except String (ℕ × Digest) → Tree → Prop} (htarget : NTD97.scopedPath path = .ok target)
    (hE : ∀ event, E event → Commits event → target = stageOf actionId)
    (hQ : ∀ r s, MoreDirs (Made target) start s → Q r s) (hs : MoreDirs (Made target) start s) :
    OnlyMakes refuses E (stageOf actionId) target (MoreDirs (Made target) start) Q
      (commitStaging describe [] actionId path expectedHash) s := by
  have herror (e : String) := hQ (.error e)
  rw [commitStaging_eq]
  refine Meets.bind (onlyMakes_stagePath (fun q hne hq => ⟨hne, .inl hq⟩) hs herror
    fun s hs _ => ?_)
  refine Meets.bind (onlyMakes_quiet hs herror rfl (fun _ _ h => by cases h)
    (fun _ _ h => by cases h) fun (bytes : Bytes) _ => ?_)
  refine Meets.bind (onlyMakes_refuse hs herror ?_)
  refine Meets.bind (onlyMakes_scopedPath hs herror fun target' htarget' => ?_)
  rw [htarget] at htarget'
  rw [← Except.ok.inj htarget']
  exact onlyMakes_commitTo stageOf_ne_nil hE hQ hs

theorem onlyMakes_resumeDownload (htarget : NTD97.scopedPath path = .ok target)
    (hE : ∀ event, E event → Commits event → target = stageOf actionId)
    (hs : MoreDirs (Made target) start s) :
    OnlyMakes refuses E (stageOf actionId) target (MoreDirs (Made target) start)
      (fun _ => MoreDirs (Made target) start) (resumeDownload describe [] actionId path resumeToken)
      s := by
  rw [resumeDownload]
  rcases decodeArtifactResumeToken resumeToken with e | decoded
  · exact hs
  · refine Meets.bind (p := Prog.check (.ok decoded)) (Meets.bind ?_)
    refine onlyMakes_commitStaging htarget hE (fun r s hs => ?_) hs
    cases r with
    | error e => exact hs
    | ok a => exact hs

end Interrupted

/-! ## Behind the rename -/

section Behind

/-- A rename. -/
def IsRename : FileCall → Prop
  | .rename _ _ => True
  | _ => False

/-- A sync. -/
def IsSync : FileCall → Prop
  | .sync _ => True
  | _ => False

theorem isSync_quiet {c : FileCall} {r : Reply c} (hc : IsSync c) (h : DoesFile refuses c t r u) :
    u = t := by
  cases c with
  | sync path => exact doesFile_quiet rfl (fun _ _ h => by cases h) h
  | _ => cases hc

theorem calls_createDirAll {directory : Path} {what : String} :
    Calls (fun c => ¬ IsRename c) (createDirAll describe what directory) :=
  Calls.forM fun _ _ => calls_ask id

theorem calls_canonicalDirectory {directory : Path} {what escaped : String} :
    Calls (fun c => ¬ IsRename c) (canonicalDirectory describe [] directory what escaped) :=
  Calls.bind (fun _ => Calls.bind (fun _ => Calls.pure) Calls.refuse) (calls_ask id)

theorem calls_inspect {part : Path} : Calls (fun c => ¬ IsRename c) (inspect describe part) := by
  refine ⟨id, fun r => ?_⟩
  cases r with
  | error e => exact trivial
  | ok a => exact Calls.bind (fun _ => Calls.refuse) (calls_ask id)

theorem calls_scopedPath {relative : String} :
    Calls (fun c => ¬ IsRename c) (scopedPath describe [] relative) :=
  Calls.bind (fun _ => Calls.bind (fun _ => Calls.pure) (Calls.forM fun _ _ => calls_inspect))
    Calls.check

theorem calls_stagePath : Calls (fun c => ¬ IsRename c) (stagePath describe [] actionId) :=
  Calls.bind (fun _ => Calls.bind (fun _ => Calls.pure) calls_canonicalDirectory) calls_createDirAll

theorem then_commitTo {stage target : Path} {bytes : Bytes} :
    Then IsRename IsSync (commitTo describe stage bytes target) := by
  refine Then.bind (fun _ => Then.bind (fun canonicalParent => ?_) calls_canonicalDirectory)
    calls_createDirAll
  exact then_ask fun _ => Calls.bind (fun _ => Calls.pure) (calls_ask trivial)

/-- **Behind its rename, a commit only syncs.** -/
theorem then_commitStaging {expectedHash : Bytes} :
    Then IsRename IsSync (commitStaging describe [] actionId path expectedHash) := by
  rw [commitStaging_eq]
  refine Then.bind (fun stage => Then.bind (fun bytes => ?_) (calls_ask id)) calls_stagePath
  exact Then.bind (fun _ => Then.bind (fun target => then_commitTo) calls_scopedPath) Calls.refuse

theorem then_resumeDownload :
    Then IsRename IsSync (resumeDownload describe [] actionId path resumeToken) := by
  unfold resumeDownload
  exact Then.bind (fun decoded => Then.bind_calls (fun _ => Calls.pure) then_commitStaging)
    Calls.check

end Behind

/-! ## Resuming twice -/

section Again

variable {events : List (Called Reply)} {p : FileProg String AdapterResult} {r : AdapterResult}
  {target : Path}

theorem execute_resumeDownload
    (h : execute (answer refuses) (resumeDownload describe [] actionId path resumeToken) t =
      (.ok r, u)) :
    ∃ target bytes, NTD97.scopedPath path = .ok target ∧
      t.at (stageOf actionId) = some (.file bytes) ∧ u.at target = some (.file bytes) := by
  obtain ⟨decoded, v, hdecoded, hrest⟩ := execute_bind_eq_ok.1 h
  obtain ⟨-, rfl⟩ := Prod.mk.inj hdecoded
  obtain ⟨committedFile, v, hcommit, hpure⟩ := execute_bind_eq_ok.1 hrest
  cases hpure
  exact execute_commitStaging hcommit

/-- Without a commit, a run has made directories and nothing else. -/
theorem run_moreDirs (htarget : NTD97.scopedPath path = .ok target)
    (hrun : Run (DoesFile refuses) t (resumeDownload describe [] actionId path resumeToken) events
      t' p)
    (hevents : ∀ event ∈ events, Commits event → target = stageOf actionId) :
    MoreDirs (Made target) t t' :=
  (onlyMakes_resumeDownload htarget (fun _ h => h) (MoreDirs.refl t)).always (fun _ _ h => h.1)
    (fun _ _ h => h) (hrun.restrict hevents)

/-- **A commit took the staged file away.** -/
theorem run_at_stage (htarget : NTD97.scopedPath path = .ok target)
    (hrun : Run (DoesFile refuses) t (resumeDownload describe [] actionId path resumeToken) events
      t' p)
    (hne : target ≠ stageOf actionId) (hcommits : ¬ ∀ event ∈ events, ¬ Commits event) :
    t'.at (stageOf actionId) = none := by
  obtain ⟨before, event, after, s₁, s₂, k, hbefore, hnone, ⟨source, target', rfl⟩, hdoes, hafter⟩ :=
    hrun.split hcommits
  obtain ⟨rfl, rfl⟩ := ((onlyMakes_resumeDownload htarget (fun _ hE hC => absurd hC hE)
    (MoreDirs.refl t)).next (hbefore.restrict hnone)).2 source target' rfl
  -- what is left behind the rename only syncs
  have hsyncs := (then_resumeDownload.run hbefore).1 trivial (.ok ())
  obtain rfl : t' = s₂ := hsyncs.run_eq (fun _ _ _ _ hsync hdoes => isSync_quiet hsync hdoes) hafter
  obtain ⟨bytes, -, -, rfl⟩ := answer_rename_ok (doesFile_ok hdoes)
  rw [at_update (scopedPath_ne_nil htarget), if_neg (Ne.symm hne), at_update stageOf_ne_nil,
    if_pos rfl]

/-- **A download can be resumed again, as long as its rename has not taken effect.** -/
theorem resume_again_iff
    (hundisturbed : execute (answer refuses)
      (resumeDownload describe [] actionId path resumeToken) t = (.ok r, u))
    (hrun : Run (DoesFile refuses) t (resumeDownload describe [] actionId path resumeToken) events
      t' p) :
    ∃ target staged, NTD97.scopedPath path = .ok target ∧
      t.at (stageOf actionId) = some (.file staged) ∧
      ((∃ u', execute (answer refuses) (resumeDownload describe [] actionId path resumeToken) t' =
          (.ok r, u') ∧ u'.at target = some (.file staged)) ↔
        (∀ event ∈ events, ¬ Commits event) ∨ target = stageOf actionId) := by
  obtain ⟨target, staged, htarget, hstaged, hthere⟩ := execute_resumeDownload hundisturbed
  refine ⟨target, staged, htarget, hstaged, fun hagain => ?_, fun hsafe => ?_⟩
  · obtain ⟨u', hagain, -⟩ := hagain
    obtain ⟨-, bytes, -, hstill, -⟩ := execute_resumeDownload hagain
    by_contra hunsafe
    obtain ⟨hcommits, hne⟩ := not_or.1 hunsafe
    rw [run_at_stage htarget hrun hne hcommits] at hstill
    cases hstill
  · have hmore := run_moreDirs htarget hrun fun event hevent hcommits =>
      hsafe.elim (fun hnone => absurd hcommits (hnone event hevent)) id
    obtain ⟨u', hagain, hmore'⟩ := alike_resumeDownload htarget hmore r u hundisturbed
    exact ⟨u', hagain, hmore'.at_some hthere⟩

end Again

/-! ## Tokens -/

/-- **A resume token is read back.** -/
theorem decodeArtifactResumeToken_of_encode {digest : Digest} {rollback token : Bytes}
    {finalUrl : String} (h : encodeArtifactResumeToken digest rollback finalUrl = .ok token) :
    decodeArtifactResumeToken token = .ok (digest.bytes, rollback, finalUrl) := by
  simp only [encodeArtifactResumeToken, bind_eq_ok, exists_unit, refuse_eq_ok, pure_eq_ok,
    not_le] at h
  obtain ⟨hrollback, hurl, rfl⟩ := h
  have hdigest : (1 :: digest.bytes).length = 33 := congrArg (· + 1) digest.length_eq
  generalize hurlBytes : utf8 finalUrl = url at hurl
  generalize hword : leBytes 4 rollback.length = word
  generalize hword' : leBytes 4 url.length = word'
  have hlen : word.length = 4 := hword ▸ length_leBytes _ _
  have hlen' : word'.length = 4 := hword' ▸ length_leBytes _ _
  have hof : ofLe word = rollback.length := hword ▸ ofLe_leBytes hrollback
  have hof' : ofLe word' = url.length := hword' ▸ ofLe_leBytes hurl
  -- each part stands behind those before it
  have hbehind : ((1 :: digest.bytes ++ word ++ rollback ++ word' ++ url).drop 33).take 4 = word := by
    rw [List.append_assoc, List.append_assoc, List.append_assoc, List.drop_left' hdigest,
      List.take_left' hlen]
  have hbehind' : (1 :: digest.bytes ++ word ++ rollback ++ word' ++ url).drop
      (37 + rollback.length) = word' ++ url := by
    rw [List.append_assoc _ word' url]
    exact List.drop_left' (by rw [List.length_append, List.length_append, hdigest, hlen])
  have hurl' : (1 :: digest.bytes ++ word ++ rollback ++ word' ++ url).drop
      (37 + rollback.length + 4) = url := by
    rw [← List.drop_drop, hbehind', List.drop_left' hlen']
  have hback : ((1 :: digest.bytes ++ word ++ rollback ++ word' ++ url).drop 37).take
      rollback.length = rollback := by
    rw [List.append_assoc, List.append_assoc _ rollback]
    rw [List.drop_left' (by rw [List.length_append, hdigest, hlen]), List.take_left' rfl]
  have htake : ((1 :: digest.bytes ++ word ++ rollback ++ word' ++ url).drop 1).take 32 =
      digest.bytes := by
    simp only [List.cons_append, List.drop_succ_cons, List.drop_zero, List.append_assoc]
    exact List.take_left' digest.length_eq
  have hlength : (1 :: digest.bytes ++ word ++ rollback ++ word' ++ url).length =
      37 + rollback.length + 4 + url.length := by
    simp only [List.length_append, hdigest, hlen, hlen']
  simp only [decodeArtifactResumeToken, hbehind, hof, hbehind', List.take_left' hlen', hof', hurl',
    Nat.add_sub_cancel_left, hback, htake, bind_eq_ok, exists_unit, refuse_eq_ok, okOr_eq_ok, pure_eq_ok, hlength]
  refine ⟨?_, by omega, by omega, finalUrl, ?_, rfl⟩
  · rw [not_or]
    exact ⟨by omega, fun h => h rfl⟩
  · rw [← hurlBytes, ofUtf8_utf8]

/-! ## When a resume completes

What `execute` has left decides it: the path need not be one that a file can be moved to. -/

section Completes

variable {target stage : Path} {result : HttpsResult}

/-- **A file can be moved to the target**: the directories above it are there or can be made, the
host refuses neither it nor its parent, and it is no directory. -/
structure Committable (refuses : Path → Option IoError) (t : Tree) (target : Path) : Prop where
  directories : ∀ q, q <+: target.dropLast →
    t.at q = some .directory ∨ t.at q = none ∧ refuses q = none
  parent : refuses target.dropLast = none
  accepted : refuses target = none
  free : t.at target ≠ some .directory

/-- **What a suspended download leaves**: its body is staged, and its token tells the body. -/
structure Staged (refuses : Path → Option IoError) (actionId : ActionId) (path : String)
    (result : HttpsResult) (token : Bytes) (t : Tree) : Prop where
  accepted : refuses staging = none
  body : reach refuses t (stageOf actionId) = .ok (some (.file result.body))
  leads : ∃ target, NTD97.scopedPath path = .ok target
  told : ∃ rollback, encodeArtifactResumeToken (sha256 result.body) rollback result.finalUrl =
    .ok token

theorem exists_execute_commitTo_iff (describe : IoError → String) (bytes : Bytes)
    {body : Bytes} (hne : target ≠ [])
    (hstage : reach refuses t stage = .ok (some (.file body))) :
    (∃ a u, execute (answer refuses) (commitTo describe stage bytes target) t = (.ok a, u)) ↔
      Committable refuses t target := by
  constructor
  · rintro ⟨a, u, h⟩
    rw [commitTo] at h
    obtain ⟨_, v, hdirs, hrest⟩ := execute_bind_eq_ok.1 h
    obtain ⟨hmore, -⟩ := execute_createDirAll (D := fun _ => True) (fun _ _ _ => trivial) hdirs
    obtain ⟨parent, v', hcanonical, hcommit⟩ := execute_bind_eq_ok.1 hrest
    obtain ⟨-, rfl, _, hparent⟩ := execute_canonicalDirectory hcanonical
    obtain ⟨_, w, hrename, -⟩ := execute_bind_eq_ok.1 hcommit
    obtain ⟨_, -, ⟨e, htarget, he⟩, -⟩ := answer_rename_ok (execute_ask_eq_ok.1 hrename)
    obtain ⟨haccepted, -, hat⟩ := reach_eq_ok.1 htarget
    exact ⟨exists_execute_createDirAll_iff.1 ⟨v', hdirs⟩, (reach_eq_ok.1 hparent).1, haccepted,
      fun hdir => he (hat.symm.trans (hmore.at_some hdir))⟩
  · intro h
    obtain ⟨v, hdirs⟩ := exists_execute_createDirAll_iff.2 h.directories
    obtain ⟨hmore, hthere⟩ := execute_createDirAll (D := fun q => q <+: target.dropLast)
      (fun _ _ hq => hq) hdirs
    have hparent : reach refuses v target.dropLast = .ok (some .directory) :=
      reach_eq_ok.2 ⟨h.parent, fun q hq =>
        hthere q ((List.mem_inits ..).1 (List.mem_of_mem_dropLast hq)), hthere _ List.prefix_rfl⟩
    have htarget : reach refuses v target = .ok (v.at target) := by
      refine reach_eq_ok.2 ⟨h.accepted, fun q hq => hthere q ?_, rfl⟩
      rwa [inits_dropLast hne, List.mem_inits] at hq
    have hfree : v.at target ≠ some .directory := by
      intro hdir
      rw [Tree.at, if_neg hne] at hdir
      rcases hmore target with hsame | ⟨hbelow, -⟩
      · exact h.free (by rw [Tree.at, if_neg hne, ← hsame, hdir])
      · exact ne_of_mem_inits_dropLast hne (inits_dropLast hne ▸ (List.mem_inits ..).2 hbelow) rfl
    have hrename := answer_rename_file (hmore.reach_some hstage) htarget hfree
    have hcommit : execute (answer refuses) (commitTo describe stage bytes target) t =
        (.ok (bytes.length, sha256 bytes),
          Function.update (Function.update v stage none) target (some (.file body))) := by
      rw [commitTo, execute_bind_ok hdirs, execute_bind_ok (execute_canonicalDirectory_there hparent)]
      exact execute_bind_ok (execute_ask_eq_ok.2 hrename)
    exact ⟨_, _, hcommit⟩

/-- What is staged is found again. -/
theorem Staged.execute_stagePath (h : Staged refuses actionId path result resumeToken t) :
    execute (answer refuses) (stagePath describe [] actionId) t = (.ok (stageOf actionId), t) := by
  have hthere : ∀ q, q <+: staging → t.at q = some .directory := by
    intro q hq
    refine (reach_eq_ok.1 h.body).2.1 q ?_
    rw [inits_dropLast stageOf_ne_nil, stageOf, List.dropLast_concat]
    exact (List.mem_inits ..).2 hq
  have hreach : reach refuses t staging = .ok (some .directory) :=
    reach_eq_ok.2 ⟨h.accepted, fun q hq =>
      hthere q ((List.mem_inits ..).1 (List.mem_of_mem_dropLast hq)), hthere _ List.prefix_rfl⟩
  refine (execute_bind_ok (execute_createDirAll_there hthere)).trans ?_
  exact execute_bind_ok (execute_canonicalDirectory_there hreach)

/-- **A resume that nothing disturbs completes exactly if its target can be committed.** -/
theorem Staged.exists_resume_iff (h : Staged refuses actionId path result resumeToken t)
    (describe : IoError → String) (htarget : NTD97.scopedPath path = .ok target) :
    (∃ r u, execute (answer refuses) (resumeDownload describe [] actionId path resumeToken) t =
        (.ok r, u)) ↔ Committable refuses t target := by
  obtain ⟨rollback, htold⟩ := h.told
  have hscoped : execute (answer refuses) (scopedPath describe [] path) t = (.ok target, t) := by
    rw [execute_scopedPath, htarget]
  have hcommit : execute (answer refuses) (commitStaging describe [] actionId path
      (sha256 result.body).bytes) t = execute (answer refuses)
        (commitTo describe (stageOf actionId) result.body target) t := by
    rw [commitStaging_eq]
    refine (execute_bind_ok h.execute_stagePath).trans ?_
    refine (execute_bind_ok (execute_ask_eq_ok.2 (answer_read_file h.body))).trans ?_
    exact (execute_bind_ok (execute_refuse_no fun hne => hne rfl)).trans (execute_bind_ok hscoped)
  rw [← exists_execute_commitTo_iff describe result.body
    (scopedPath_ne_nil htarget) h.body, ← hcommit, resumeDownload,
    decodeArtifactResumeToken_of_encode htold]
  constructor
  · rintro ⟨r, u, hr⟩
    obtain ⟨decoded, v, hdecoded, hrest⟩ := execute_bind_eq_ok.1 hr
    cases hdecoded
    obtain ⟨a, v, ha, -⟩ := execute_bind_eq_ok.1 hrest
    exact ⟨a, v, ha⟩
  · rintro ⟨a, v, ha⟩
    exact ⟨_, _, (execute_bind_ok rfl).trans (execute_bind_ok ha)⟩

/-- **The staging directory is no target, and nothing below the staged file is one.** -/
theorem Staged.not_committable (h : Staged refuses actionId path result resumeToken t)
    (htarget : target = staging ∨ target.dropLast = stageOf actionId) :
    ¬ Committable refuses t target := by
  intro hcommit
  obtain ⟨-, hwalk, hat⟩ := reach_eq_ok.1 h.body
  rcases htarget with rfl | hparent
  · refine hcommit.free (hwalk staging (mem_inits_dropLast (List.prefix_append ..) ?_))
    exact fun heq => absurd (congrArg List.length heq) (by simp [staging, stageOf])
  · rcases hcommit.directories _ List.prefix_rfl with hdir | ⟨hnone, -⟩
    · rw [hparent, hat] at hdir
      cases hdir
    · rw [hparent, hat] at hnone
      cases hnone

/-- The end of staging: the body is written. -/
theorem meets_writeStaging {body : Bytes} {s : Tree} {Q : Except String Path → Tree → Prop}
    (hQ : ∀ e s, Q (.error e) s) (hok : ∀ s, refuses staging = none →
      reach refuses s (stageOf actionId) = .ok (some (.file body)) → Q (.ok (stageOf actionId)) s) :
    Meets (DoesOnly refuses fun _ => True) (fun _ _ => True) Q
      (writeStaging describe [] actionId body) s := by
  refine Meets.bind (Meets.refuse (fun _ => hQ _ _) fun _ => ?_)
  refine Meets.bind (Meets.weaken (show OnlyMakes refuses _ [] [] _ _ _ _ from
    onlyMakes_stagePath (D := fun _ => True) (fun _ _ _ => trivial) (MoreDirs.refl s)
      (fun e s _ => hQ e s) fun s _ hstaging => ?_) fun _ _ _ => trivial)
  refine Meets.bind ⟨trivial, fun r s₁ hcreate => ?_⟩
  rcases r with e | a
  · exact hQ _ _
  obtain ⟨⟨e, hreach, -⟩, rfl⟩ := answer_create_ok (doesFile_ok hcreate.1)
  refine Meets.bind ⟨trivial, fun r s₂ happend => ?_⟩
  rcases r with e | a
  · exact hQ _ _
  obtain rfl := answer_append_ok (doesFile_ok happend.1)
  refine Meets.bind ⟨trivial, fun r s₃ hsync => ?_⟩
  rcases r with e | a
  · exact hQ _ _
  obtain rfl := doesFile_quiet rfl (fun _ _ h => by cases h) hsync.1
  refine hok _ hstaging ?_
  rw [appended_update stageOf_ne_nil, List.nil_append]
  exact reach_update_self stageOf_ne_nil hreach body

/-- **A download that is suspended has staged its body.** -/
theorem staged_executeDownload {s : Tree} :
    Meets (DoesOnly refuses fun _ => True) (fun _ _ => True)
      (fun r s => ∀ token summary, r = .ok (.suspended token summary) →
        Staged refuses actionId path result token s)
      (executeDownload describe [] actionId path result) s := by
  unfold executeDownload
  have herror (e : String) (s : Tree) : ∀ token summary, Except.error e =
      Except.ok (AdapterResult.suspended token summary) →
        Staged refuses actionId path result token s := fun _ _ h => by cases h
  refine Meets.bind (Meets.refuse (fun _ => herror _ _) fun _ => ?_)
  refine Meets.bind (Meets.weaken (show OnlyMakes refuses _ [] [] _ _ _ _ from
    onlyMakes_scopedPath (I := fun _ => True) trivial (fun e s _ => herror e s)
      fun target htarget => ?_) fun _ _ _ => trivial)
  refine Meets.bind (Meets.trivial fun r s => ?_)
  rcases r with e | rollback
  · exact herror _ _
  refine Meets.bind (meets_writeStaging herror fun s hstaging hstaged => ?_)
  refine Meets.bind (Meets.check ?_)
  rcases htold : encodeArtifactResumeToken (sha256 result.body) rollback result.finalUrl with e | token
  · exact herror _ _
  · intro token' summary h
    cases h
    exact ⟨hstaging, hstaged, ⟨target, htarget⟩, rollback, htold⟩

end Completes

end Resume

/-! ## A download that stops between its rename and its sync -/

namespace ResumeSample

/-- An empty root. -/
def root : Tree := fun _ => none

def result : HttpsResult := ⟨"https://a/b", [97, 98, 99]⟩

def work (c : FileCall) (t : Tree) : Reply c × Tree := answer (fun _ => none) c t

/-- No sync succeeds. -/
def workUnsynced : (c : FileCall) → Tree → Reply c × Tree
  | .sync _, t => (.error (.host 5), t)
  | c, t => work c t

def executed : Except String AdapterResult × Tree :=
  execute work (executeDownload (fun _ => "io") [] ⟨1⟩ "b" result) root

def token : Bytes :=
  match executed.1 with
  | .ok (.suspended token _) => token
  | _ => []

def resume : FileProg String AdapterResult :=
  resumeDownload (fun _ => "io") [] ⟨1⟩ "b" token

/-- The tree that is left when the sync behind the rename fails. -/
def unsynced : Tree := (execute workUnsynced resume executed.2).2

def isSuspended : Except String AdapterResult → Bool
  | .ok (.suspended _ _) => true
  | _ => false

theorem sample_runs : isSuspended executed.1 = true ∧ (execute work resume executed.2).1.isOk = true ∧
    (execute workUnsynced resume executed.2).1.isOk = false ∧
    (execute work resume unsynced).1.isOk = false := by
  decide +kernel

theorem does_work (c : FileCall) (t : Tree) :
    DoesFile (fun _ => none) c t (work c t).1 (work c t).2 := .done c t

theorem does_workUnsynced (c : FileCall) (t : Tree) :
    DoesFile (fun _ => none) c t (workUnsynced c t).1 (workUnsynced c t).2 := by
  cases c with
  | sync path => exact .fails _ _ _
  | _ => exact .done _ _

theorem executed_eq : ∃ summary, executed = (.ok (.suspended token summary), executed.2) := by
  have hsuspended := sample_runs.1
  unfold token
  rcases hexecuted : executed with ⟨e | result, t⟩
  · rw [hexecuted] at hsuspended
    cases hsuspended
  · rw [hexecuted] at hsuspended
    cases result with
    | suspended token summary => exact ⟨summary, rfl⟩
    | _ => cases hsuspended

/-- The suspended download, as a run. -/
theorem run_executed : ∃ summary events, Run (DoesFile fun _ => none) root
    (executeDownload (fun _ => "io") [] ⟨1⟩ "b" result) events executed.2
    (.ret (.ok (.suspended token summary))) := by
  obtain ⟨summary, hexecuted⟩ := executed_eq
  have hrun := run_execute does_work (executeDownload (fun _ => "io") [] ⟨1⟩ "b" result) root
  change Run _ _ _ _ executed.2 (.ret executed.1) at hrun
  rw [hexecuted] at hrun
  exact ⟨summary, _, hrun⟩

theorem resumed : ∃ r u, execute work resume executed.2 = (.ok r, u) := by
  have hok := sample_runs.2.1
  rcases hresumed : execute work resume executed.2 with ⟨e | r, u⟩
  · rw [hresumed] at hok
    cases hok
  · exact ⟨r, u, rfl⟩

/-- No rename succeeds. -/
def workUnmoved : (c : FileCall) → Tree → Reply c × Tree
  | .rename _ _, t => (.error (.host 5), t)
  | c, t => work c t

/-- The tree that is left when the rename fails. -/
def unmoved : Tree := (execute workUnmoved resume executed.2).2

theorem does_workUnmoved (c : FileCall) (t : Tree) :
    DoesFile (fun _ => none) c t (workUnmoved c t).1 (workUnmoved c t).2 := by
  cases c with
  | rename source target => exact .fails _ _ _
  | _ => exact .done _ _

theorem committable_executed : Committable (fun _ => none) executed.2 ["b"] where
  directories q hq := .inl (by rw [List.prefix_nil.1 hq]; rfl)
  parent := rfl
  accepted := rfl
  free := by decide +kernel

/-- No event of the resume that could not rename is a rename that took effect. -/
theorem not_commits_unmoved : ∀ event ∈ calls workUnmoved resume executed.2, ¬ Commits event := by
  rintro event hevent ⟨source, target, rfl⟩
  obtain ⟨c, t, heq⟩ := exists_of_mem_calls hevent
  cases c <;> cases heq

end ResumeSample

end Stepwise

end NTD97
