import Mathlib
import NTD97.Lib.Links
import NTD97.PcFabric.Agent

/-!
# PcFabric/Artifacts — writing an artifact below the allowed roots

    requested ──candidate──▸ parent / name
                              │ canonicalize, below a root?
                              ▼
                        directory / name ──open, write──▸ where the name leads

The handler looks at where the parent really is, and opens the name in it afterwards.  A link at the
name is followed then, wherever it leads.
-/

namespace NTD97

open Guard Text Wire Files Steps Links

structure DesktopArtifactPolicy where
  allowedRoots : List Path
  allowWrite : Bool
  maxBytes : ℕ
  deriving DecidableEq

namespace Artifacts

/-! ## Paths -/

/-- `Path::is_absolute`. -/
def isAbsolute (path : String) : Bool := path.toList.head? = some '/'

/-- `Path::components`, without the root: empty parts and single dots are left out. -/
def components (path : String) : Path :=
  ((path.toList.splitOn '/').map String.ofList).filter fun part => part ≠ "" ∧ part ≠ "."

/-- `Path::file_name`. -/
def fileName (path : Path) : Option String := path.getLast?.filter (· ≠ "..")

/-- `Path::parent`. -/
def parent (path : Path) : Option Path := if path = [] then none else some path.dropLast

/-- The text of an absolute path. -/
def pathText (path : Path) : String := "/" ++ String.intercalate "/" path

def candidatePath (requested : String) (roots : List Path) : Except PcFabricError Path :=
  let requested := trim requested
  if requested.isEmpty then .error (.policyDenied "empty path")
  else if isAbsolute requested then .ok (components requested)
  else okOr (roots.head?.map fun root => root ++ components requested)
    (.policyDenied "no allowed root")

/-! ## The handler -/

section Handler

variable (describe : IoError → String)

/-- One call, its failure wrapped as `PcFabricError::Io`. -/
def io (c : FileCall) : FileProg PcFabricError c.Answer :=
  .call c fun reply => .ret (reply.mapError fun e => .io (describe e))

def resolveWritePath (requested : String) (roots : List Path) : FileProg PcFabricError Path := do
  let candidate ← Prog.check (candidatePath requested roots)
  let name ← okOr (fileName candidate) (.policyDenied "missing file name")
  let above ← okOr (parent candidate) (.policyDenied "missing parent directory")
  let above : Path ← io describe (.canonicalize above)
  refuse (¬ ∃ root ∈ roots, root <+: above) (.policyDenied "path is outside allowed roots")
  return above ++ [name]

/-- `fs::write`: the file is opened, emptied if it is there, and written. -/
def write (path : Path) (bytes : Bytes) : FileProg PcFabricError Unit := do
  io describe (.create path)
  io describe (.append path bytes)

/-- What the handler answers after a write. -/
def written (resolved : Path) (bytes : Bytes) : DesktopHandlerOutput where
  output := {
    summary := "remote artifact written"
    value := .fields (.ofList [("path", pathText resolved), ("bytes", toString bytes.length)])
    evidence := ["write-completed"] }
  artifacts := []

/-- `FileArtifactHandler::execute` of a handler in `ArtifactMode::Write`. -/
def executeWrite (policy : DesktopArtifactPolicy) :
    RemoteAction → FileProg PcFabricError DesktopHandlerOutput
  | .artifactWrite path bytes => do
    refuse (policy.allowWrite = false) (.policyDenied "artifact writes are disabled")
    refuse (policy.maxBytes < bytes.length) (.policyDenied "artifact exceeds byte limit")
    let resolved ← resolveWritePath describe path policy.allowedRoots
    write describe resolved bytes
    return written resolved bytes
  | _ => throw .invalidMessage

end Handler

/-! ## Below the roots -/

/-- Below one of the roots. -/
def Under (roots : List Path) (p : Path) : Prop := ∃ root ∈ roots, root <+: p

/-- **A program works below the roots only**, whatever the answers and wherever it is stopped: the
place each of its calls reads, writes or creates is there. -/
def StaysUnder {α : Type} (roots : List Path) (program : FileProg PcFabricError α) (t : LinkTree) :
    Prop :=
  ∀ events t' c k, Run DoesLinked t program events t' (.call c k) →
    ∀ p, Touches t' c p → Under roots p

/-- **What a request resolves to**: a name, in a directory below a root. -/
def Resolves (t : LinkTree) (roots : List Path) (requested : String) (directory : Path)
    (name : String) : Prop :=
  ∃ above, candidatePath requested roots = .ok (above ++ [name]) ∧ name ≠ ".." ∧
    Leads t [] above directory ∧ t.at directory ≠ none ∧ Under roots directory

/-- **If the name of an accepted write leads elsewhere** than to itself, it leads to a directory or
to a place below a root. -/
def LinksStay (t : LinkTree) (policy : DesktopArtifactPolicy) (action : RemoteAction) : Prop :=
  ∀ path bytes directory name, action = .artifactWrite path bytes → policy.allowWrite = true →
    bytes.length ≤ policy.maxBytes → Resolves t policy.allowedRoots path directory name →
      ∀ p, Leads t [] (directory ++ [name]) p → t.at p ≠ some .directory →
        p ≠ directory ++ [name] → Under policy.allowedRoots p

-- a path is not to be evaluated when a goal is looked at
seal candidatePath

section Proofs

variable {describe : IoError → String} {t : LinkTree} {policy : DesktopArtifactPolicy}
  {action : RemoteAction} {roots : List Path} {directory : Path} {requested name : String}
  {bytes : Bytes}

theorem fileName_eq_some {path : Path} : fileName path = some name ↔
    ∃ above, path = above ++ [name] ∧ name ≠ ".." := by
  rw [fileName, Option.filter_eq_some_iff, List.getLast?_eq_some_iff]
  constructor
  · rintro ⟨⟨above, rfl⟩, hname⟩
    exact ⟨above, rfl, by simpa using hname⟩
  · rintro ⟨above, rfl, hname⟩
    exact ⟨⟨above, rfl⟩, by simpa using hname⟩

theorem parent_concat (above : Path) : parent (above ++ [name]) = some above := by
  rw [parent, if_neg (List.append_ne_nil_of_right_ne_nil _ (List.cons_ne_nil name [])),
    List.dropLast_concat]

theorem Under.concat {roots : List Path} (h : Under roots directory) :
    Under roots (directory ++ [name]) := by
  obtain ⟨root, hroot, hprefix⟩ := h
  exact ⟨root, hroot, hprefix.trans (List.prefix_append directory [name])⟩

/-- A call whose places are below the roots. -/
def Below (roots : List Path) (c : FileCall) (t : LinkTree) : Prop :=
  ∀ p, Touches t c p → Under roots p

theorem meets_resolveWritePath :
    Meets DoesLinked (Below roots) (fun r s => s = t ∧ ∀ target, r = .ok target →
      ∃ directory name, target = directory ++ [name] ∧ Resolves t roots requested directory name)
      (resolveWritePath describe requested roots) t := by
  unfold resolveWritePath
  refine Meets.bind (Meets.check ?_)
  cases hcandidate : candidatePath requested roots with
  | error e => exact ⟨rfl, fun _ h => by cases h⟩
  | ok candidate =>
    refine Meets.goOn ?_
    cases hname : fileName candidate with
    | none => exact ⟨rfl, fun _ h => by cases h⟩
    | some name =>
      obtain ⟨above, rfl, hplain⟩ := fileName_eq_some.1 hname
      rw [parent_concat]
      refine Meets.bind ⟨fun p h => (by cases h), fun r s hdoes => ?_⟩
      cases hdoes with
      | refused _ _ e _ _ => exact ⟨rfl, fun _ h => by cases h⟩
      | @canonical _ _ directory hleads hat =>
        change Meets _ _ _ (refuse (¬ ∃ root ∈ roots, root <+: directory) _ >>= fun _ =>
          pure (directory ++ [name])) t
        refine Meets.bind (Meets.refuse (fun _ => ⟨rfl, fun _ h => by cases h⟩)
          fun hunder => ⟨rfl, fun target htarget => ?_⟩)
        obtain rfl := Except.ok.inj htarget
        exact ⟨directory, name, rfl, above, hcandidate, hplain, hleads, hat, not_not.1 hunder⟩

/-- **A write stays below the roots** if what it opens is there. -/
theorem meets_write {target : Path}
    (h : ∀ p, Leads t [] target p → t.at p ≠ some .directory → Under roots p) :
    Meets DoesLinked (Below roots) (fun _ _ => True) (write describe target bytes) t := by
  refine Meets.bind ⟨fun p hp => ?_, fun r s hdoes => ?_⟩
  · cases hp with
    | create hleads hat => exact h p hleads hat
  · cases hdoes with
    | refused => exact True.intro
    | @created _ _ p hleads hat =>
      -- the file that was opened is the one that is written
      have hsame := hleads.update (.nil t) hat []
      refine Meets.goOn ⟨fun q hq => ?_, fun _ _ _ => True.intro⟩
      cases hq with
      | append hq _ =>
        obtain rfl := hsame.unique hq
        exact h _ hleads hat

/-- **Where links stay below the roots, the handler does.** -/
theorem staysUnder_of_linksStay (h : LinksStay t policy action) :
    StaysUnder policy.allowedRoots (executeWrite describe policy action) t := by
  suffices hmeets : Meets DoesLinked (Below policy.allowedRoots) (fun _ _ => True)
      (executeWrite describe policy action) t from fun _ _ _ _ hrun => hmeets.next hrun
  cases action with
  | artifactWrite path bytes =>
    unfold executeWrite
    refine Meets.bind (Meets.refuse (fun _ => True.intro) fun hallowed => Meets.goOn ?_)
    refine Meets.bind (Meets.refuse (fun _ => True.intro) fun hsize => Meets.goOn ?_)
    refine Meets.bind (meets_resolveWritePath.imp fun r s ⟨hs, hr⟩ => ?_)
    subst hs
    cases r with
    | error e => exact True.intro
    | ok target =>
      obtain ⟨directory, name, rfl, hresolves⟩ := hr target rfl
      refine Meets.goOn (Meets.bind ((meets_write fun p hleads hat => ?_).imp fun r s _ => ?_))
      · by_cases hp : p = directory ++ [name]
        · obtain ⟨_, -, -, -, -, hunder⟩ := hresolves
          exact hp ▸ hunder.concat
        · exact h path bytes directory name rfl (by simpa using hallowed) (Nat.not_lt.1 hsize)
            hresolves p hleads hat hp
      · cases r <;> exact True.intro
  | observe => exact True.intro
  | execute => exact True.intro
  | artifactRead => exact True.intro

/-- **Where the handler stays below the roots, links do.** -/
theorem linksStay_of_staysUnder
    (h : StaysUnder policy.allowedRoots (executeWrite describe policy action) t) :
    LinksStay t policy action := by
  rintro path bytes directory name rfl hallowed hsize
    ⟨above, hcandidate, hplain, hleads, hthere, hunder⟩ p hopens hat -
  have hrun : Meets DoesLinked (Below policy.allowedRoots) (fun _ _ => True)
      (executeWrite describe policy (.artifactWrite path bytes)) t := Meets.of_next h
  rw [executeWrite, Prog.refuse_bind, if_neg (by simp [hallowed]), Prog.refuse_bind,
    if_neg (Nat.not_lt.2 hsize)] at hrun
  have hresolve := Meets.of_bind hrun
  rw [resolveWritePath, hcandidate, Prog.check_ok_bind,
    fileName_eq_some.2 ⟨above, rfl, hplain⟩, parent_concat] at hresolve
  have hcalled := hresolve.2 (.ok directory) t (.canonical hleads hthere)
  change Meets _ _ _ (refuse (¬ ∃ root ∈ policy.allowedRoots, root <+: directory) _ >>= fun _ =>
    pure (directory ++ [name])) t at hcalled
  rw [Prog.refuse_bind, if_neg fun hnot => hnot hunder] at hcalled
  exact hcalled.1 p (.create hopens hat)

/-- **The handler stays below the roots** exactly if links do. -/
theorem artifact_write_stays_iff (describe : IoError → String) (t : LinkTree)
    (policy : DesktopArtifactPolicy) (action : RemoteAction) :
    StaysUnder policy.allowedRoots (executeWrite describe policy action) t ↔
      LinksStay t policy action :=
  ⟨linksStay_of_staysUnder, staysUnder_of_linksStay⟩

end Proofs

/-! ## A link that leads out -/

namespace ArtifactSample

/-- A directory with a link to a file that is not there yet, outside. -/
def tree : LinkTree := fun p =>
  if p = ["files"] then some .directory
  else if p = ["files", "note"] then some (.link true ["secret"])
  else none

def policy : DesktopArtifactPolicy where
  allowedRoots := [["files"]]
  allowWrite := true
  maxBytes := 8

theorem candidate_note : candidatePath "note" [["files"]] = .ok (["files"] ++ ["note"]) := by
  decide +kernel

theorem physical_files : Physical tree ["files"] :=
  (Physical.nil tree).concat (by decide) (by decide)

theorem leads_note : Leads tree [] (["files"] ++ ["note"]) ["secret"] := by
  refine physical_files.leads_append.2 (.follow (by decide)
    (show tree.at _ = some (.link true ["secret"]) by decide) ?_)
  exact .missing (by decide) (by decide)

theorem not_linksStay : ¬ LinksStay tree policy (.artifactWrite "note" [1]) := by
  intro h
  have hresolves : Resolves tree [["files"]] "note" ["files"] "note" :=
    ⟨["files"], candidate_note, by decide, physical_files.leads, by decide,
      ["files"], List.mem_cons_self, List.prefix_refl _⟩
  obtain ⟨root, hroot, hinside⟩ := h "note" [1] ["files"] "note" rfl rfl (by decide) hresolves
    ["secret"] leads_note (by decide) (by decide)
  obtain rfl := List.mem_singleton.1 hroot
  exact absurd hinside (by decide)

end ArtifactSample

open ArtifactSample in
/-- **The handler does not stay below its roots on every tree.** -/
theorem not_artifact_write_stays :
    ¬ ∀ (describe : IoError → String) (t : LinkTree) (policy : DesktopArtifactPolicy)
      (action : RemoteAction), StaysUnder policy.allowedRoots
        (executeWrite describe policy action) t := fun h =>
  not_linksStay (linksStay_of_staysUnder
    (h (fun _ => "io") tree policy (.artifactWrite "note" [1])))

end Artifacts

end NTD97
