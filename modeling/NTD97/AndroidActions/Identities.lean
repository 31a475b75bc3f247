import Mathlib
import NTD97.AndroidActions.Executions

/-!
# AndroidActions/Identities — what a plan without approval does to the pairing identities

    every call spares the identities  ⟺  no identity changes, and nothing of a seed is told

Nothing keeps a plan from naming a profile, and no approval is asked for one that does.  Whether it
does any harm is decided by the calls it makes.  The first that does not spare the identities either
changes one of them, in one of two worlds that differ only in the seeds, or tells these worlds apart.
-/

namespace NTD97

open Guard Effect Secrecy Text Wire Files

section Identities

variable {N : Type} {debug : CapabilityError → String} {debugFabric : ActionFabricError → String}
  {env : AndroidEnv N} {actionPlan : ParsedActionPlan} {s : Session (AppWorld N)}
  {p : ActionPlanId} {g : AuthorityGrant} {pl pl' : ActionPlanState} {a : PlannedAction}
  {d : CapabilityDescriptor} {w w' : AppWorld N} {events : List Event} {text : String}
  {target : Path}

/-! ## The identities -/

/-- **What executing a plan does to the pairing identities** of a file system: nothing, and nothing
can be told of the seeds.  However far the plan is executed, in worlds that differ only in the seeds
no file below `pc-pairs` is changed, removed or added, and the actions have the same outputs; and a
chat turn with its polls leaves these files alone and answers with the same prompt. -/
structure Untouched (debug : CapabilityError → String) (debugFabric : ActionFabricError → String)
    (env : AndroidEnv N) (actionPlan : ParsedActionPlan) (w : AppWorld N) : Prop where
  unchanged : ∀ w', Twins w w' → ∀ task p g s, Prepared debug env task actionPlan w' p g s →
    ∀ n, identities ((callNext env p g)^[n] s).world = identities w'
  outputs : ∀ w', Twins w w' → ∀ task p g s s', Prepared debug env task actionPlan w p g s →
    Prepared debug env task actionPlan w' p g s' →
      ∀ n, ((callNext env p g)^[n] s).outputs p = ((callNext env p g)^[n] s').outputs p
  answered : ∀ w', Twins w w' → ∀ fabric, androidFabric debug env actionPlan = .ok fabric →
    ∀ task userMessage polls,
      let run := exec (executePlan debug debugFabric env task actionPlan userMessage polls)
      (run { fabric, world := w, trace := [] }).1 = (run { fabric, world := w', trace := [] }).1 ∧
        identities (run { fabric, world := w', trace := [] }).2.world = identities w'

/-- **Two executions of the plan**, in worlds that differ in the seeds only. -/
theorem Prepared.runs {task : CognitiveTask} {s' : Session (AppWorld N)}
    (hs : Prepared debug env task actionPlan w p g s)
    (hs' : Prepared debug env task actionPlan w' p g s')
    (hparse : parseNativeActionPlan text = .ok (.actions actionPlan))
    (hothers : OthersDiscreet env actionPlan) (htwins : Twins w w') :
    Bridged debug env actionPlan s ∧ Beside Twins s s' := by
  have hbridged := hs.bridged hparse
  obtain rfl := hs.world_eq hs'
  exact ⟨hbridged, hbridged.beside hothers rfl rfl (by rw [hs.world]; exact htwins)⟩

/-- A chat turn all whose calls spare the identities answers with the same prompt, and leaves them
alone. -/
theorem executePlan_of_spares {fabric : ActionFabric (AppWorld N)} {userMessage : String}
    {polls : ℕ} {task : CognitiveTask}
    (hparse : parseNativeActionPlan text = .ok (.actions actionPlan))
    (hothers : OthersDiscreet env actionPlan)
    (hspares : SparesIdentities debug env actionPlan w) (htwins : Twins w w')
    (hfabric : androidFabric debug env actionPlan = .ok fabric) :
    let run := exec (executePlan debug debugFabric env task actionPlan userMessage polls)
    (run { fabric, world := w, trace := [] }).1 = (run { fabric, world := w', trace := [] }).1 ∧
      identities (run { fabric, world := w', trace := [] }).2.world = identities w' := by
  unfold executePlan
  cases hauthority : androidAuthority debug actionPlan false with
  | error e => exact ⟨rfl, rfl⟩
  | ok g =>
    dsimp only
    rw [exec_check_ok_bind, exec_check_ok_bind]
    have hworld := exec_preparePlan_world task.id actionPlan.graph actionPlan.payloads
      { fabric, world := w, trace := [] } w'
    rw [exec_bind, exec_bind, exec_zoom, exec_zoom]
    dsimp only at hworld ⊢
    rcases hprepare : exec (preparePlan task.id actionPlan.graph actionPlan.payloads)
      { fabric, world := w, trace := [] } with ⟨e | p, s⟩
    · rw [hprepare] at hworld
      rw [hworld]
      exact ⟨rfl, rfl⟩
    · rw [hprepare] at hworld
      rw [hworld]
      have hs : Prepared debug env task actionPlan w p g s := ⟨hauthority, fabric, hfabric, hprepare⟩
      obtain ⟨hbridged, hbeside⟩ := hs.runs (hs.twin w') hparse hothers htwins
      have hstart : Spared debug env actionPlan p g (identities w) (identities w') s
          { s with world := w' } :=
        ⟨hbridged, hbeside, by rw [hs.world], rfl, hspares task p g s hs⟩
      obtain ⟨hanswer, hafter⟩ := (blind_pollPlan (fun _ _ h => h.beside.fabric)
        (blind_executeNext hothers) { task with graph := actionPlan.graph } userMessage
          polls).agrees hstart
      exact ⟨hanswer, hafter.kept'⟩

/-- **A plan all whose calls spare the identities leaves them alone.** -/
theorem untouched_of_spares (hparse : parseNativeActionPlan text = .ok (.actions actionPlan))
    (hothers : OthersDiscreet env actionPlan)
    (hspares : SparesIdentities debug env actionPlan w) :
    Untouched debug debugFabric env actionPlan w := by
  refine ⟨fun w' htwins task p g s' hs' n => ?_, fun w' htwins task p g s s' hs hs' n => ?_,
    fun w' htwins fabric hfabric task userMessage polls =>
      executePlan_of_spares hparse hothers hspares htwins hfabric⟩
  · have hs := hs'.twin w
    obtain ⟨hbridged, hbeside⟩ := hs.runs hs' hparse hothers htwins
    obtain ⟨-, -, -, hsame⟩ := spared_iterate hbridged hothers hbeside n fun m _ =>
      hspares task p g _ hs m
    rw [hsame, hs'.world]
  · obtain ⟨hbridged, hbeside⟩ := hs.runs hs' hparse hothers htwins
    obtain ⟨-, hafter, -, -⟩ := spared_iterate hbridged hothers hbeside n fun m _ =>
      hspares task p g _ hs m
    rw [Session.outputs, Session.outputs, Session.plans, Session.plans, hafter.fabric]

/-! ## The first call that does not spare them -/

section Calls

variable {path url : String} {bytes token hash rollback staged : Bytes} {finalUrl : String}

/-- What the files are behind a write that gets as far as its file. -/
theorem Bridged.file_of_opens (h : Bridged debug env actionPlan s) (hauth : Authorized s p g pl a d)
    (hc : a.capability.val = "file.write") (ha : a.action = .fileWrite path bytes)
    (hr : a.resumption = none)
    (ho : OpensWrite env.host.refuses s.world.tree a.id path bytes target) :
    (callNext env p g s).world.tree.file =
      filesWritten env.host.refuses s.world.tree.file a.id bytes target := by
  rw [h.world_callNext hauth (by rw [hc]; decide), attempt_of_file (by rw [hc]; decide) hr, ha,
    exec_executeScopedFile_write]
  have hends : WriteEnds env.host s.world a.id path bytes
      (exec (writeAtomic env.host a.id path bytes) s.world) := writeAtomic_ends
  generalize exec (writeAtomic env.host a.id path bytes) s.world = ends at hends
  cases hends with
  | closed e u hclosed hu => exact absurd ho (hclosed target)
  | opened target' answer u ho' hanswer hu =>
    obtain rfl := Except.ok.inj (ho'.leads.symm.trans ho.leads)
    exact hu

/-- What the files are behind a commit. -/
theorem Bridged.file_of_commits (h : Bridged debug env actionPlan s) (hauth : Authorized s p g pl a d)
    (hc : a.capability.val = "artifact.download") (ha : a.action = .artifactDownload url path)
    (hr : a.resumption = some token)
    (hdecode : decodeArtifactResumeToken token = .ok (hash, rollback, finalUrl))
    (hcommits : CommitsDownload env.host.refuses s.world.tree a.id path hash target staged) :
    (callNext env p g s).world.tree.file = filesCommitted s.world.tree.file a.id target staged := by
  rw [h.world_callNext hauth (by rw [hc]; decide), attempt_of_resumption hc hr, ha,
    exec_resumeArtifactDownload hdecode]
  have hends : CommitEnds env.host s.world a.id path hash
      (exec (commitStaging env.host a.id path hash) s.world) := commitStaging_ends
  dsimp only
  generalize exec (commitStaging env.host a.id path hash) s.world = ends at hends
  cases hends with
  | closed e u hclosed hu => exact absurd hcommits (hclosed target staged)
  | done target' staged' u hcommits' hu =>
    obtain rfl := Except.ok.inj (hcommits'.leads.symm.trans hcommits.leads)
    obtain rfl := Entry.file.inj (Option.some.inj (hcommits'.found.symm.trans hcommits.found))
    exact hu

/-- **A download that is staged is committed by the next call.** -/
theorem Bridged.file_of_stages {previous : Bytes} {result : HttpsResult}
    (h : Bridged debug env actionPlan s) (hauth : Authorized s p g pl a d)
    (hc : a.capability.val = "artifact.download") (ha : a.action = .artifactDownload url path)
    (hr : a.resumption = none)
    (hs : StagesDownload env.host s.world a.id url path target previous result) :
    (callNext env p g (callNext env p g s)).world.tree.file target = some result.body := by
  obtain ⟨token, note, u, rollback, hexec, htoken, hcommits⟩ := hs.exec
  obtain ⟨w, events, pl', hend, hnext⟩ := h.callNext_eq hauth
  have hbridged : Bridged debug env actionPlan (callNext env p g s) :=
    h.execution (executeNext_execution ..)
  rw [attempt_of_download hc hr, ha, hexec] at hend
  rw [hnext] at hbridged ⊢
  have hresumable := h.resumable hauth hc
  cases hend with
  | breach result message hno => exact absurd hresumable hno
  | suspended token note hd =>
    let a₁ : PlannedAction :=
      { a.started with status := .suspended, resumeToken := some token, lastError := some note }
    have hauth₁ (events : List Event) : Authorized (s.moved p.val (pl.put pl.cursor a₁ .suspended)
        { tree := u, net := (env.host.httpsFetch url s.world.net).2 } events) p g
        (pl.put pl.cursor a₁ .suspended) a₁ d :=
      ⟨getElem?_moved_self, rfl, getElem?_put_self hauth.at_cursor, hauth.validated, hauth.permitted,
        fun _ => hresumable, rfl⟩
    rw [hbridged.file_of_commits (hauth₁ _) hc ha rfl
      (Stepwise.decodeArtifactResumeToken_of_encode htoken) hcommits, filesCommitted,
      Function.update_self]

/-- A text that is read. -/
theorem exec_readText_ok {host : Host N} {text : String} (hleads : NTD97.scopedPath path = .ok target)
    (hread : readAt host.refuses w.tree target = .ok bytes)
    (hsmall : bytes.length ≤ maxPlatformTextBytes) (htext : utf8 text = bytes) :
    exec (readText host path) w = (.ok text, w) := by
  unfold readText
  rw [hleads, exec_check_ok_bind, exec_bind_ok (exec_readFile.trans (by rw [hread]; rfl)),
    exec_refuse_of_neg (not_lt.2 hsmall), ofUtf8_eq_some.2 htext]
  rfl

/-- What is trusted is committed with its output. -/
theorem Ending.commits_of_trusted {ad : CapabilityAdapter (AppWorld N)} {output : ActionOutput}
    {rollback : Option Bytes}
    (h : Ending ad (androidProductionVerifier env.trusted) p d pl a w (.ok (.completed output rollback))
      w' events pl')
    (htrusted : trustedEvidence env.trusted d a.action output = true ∧ isBlank output.summary = false) :
    ∃ a', a'.output = some output ∧ pl' = pl.commit a' := by
  obtain ⟨htrust, hblank⟩ := htrusted
  have hverdict {verdict : ActionVerification} {v : AppWorld N}
      (hv : (androidProductionVerifier env.trusted).verify d a.action output w = (verdict, v)) :
      verdict = .accept := by
    have heq := congrArg Prod.fst hv
    simp only [androidProductionVerifier, htrust, hblank] at heq
    exact heq.symm
  cases h with
  | breach result message hno => exact hno.elim
  | unverified | accepted => exact ⟨_, rfl, rfl⟩
  | retried output token reason v hver hv => cases hverdict hv
  | rejected output token reason v hver hv hno => cases hverdict hv
  | undone output token reason v v' hver hv hd hr => cases hverdict hv
  | stuck output token reason failure v v' hver hv hd hr => cases hverdict hv

/-- **The output of a read** holds the text. -/
theorem Bridged.outputs_of_read {text : String} (h : Bridged debug env actionPlan s)
    (hauth : Authorized s p g pl a d) (hc : a.capability.val = "file.read")
    (ha : a.action = .fileRead path) (hr : a.resumption = none)
    (hleads : NTD97.scopedPath path = .ok target)
    (hread : readAt env.host.refuses s.world.tree target = .ok bytes)
    (hsmall : bytes.length ≤ maxPlatformTextBytes) (htext : utf8 text = bytes) :
    ∃ outputs output, (callNext env p g s).outputs p = some outputs ∧
      outputs[pl.cursor]? = some (some output) ∧ output.value = .text text := by
  have hfile : a.capability.val ∈ ["file.read", "file.write"] := by
    rw [hc]
    decide
  have hown : a.capability.val ∈ appPrivateCapabilities := by
    rw [hc]
    decide
  obtain ⟨w, events, pl', hend, hnext⟩ := h.callNext_eq hauth
  obtain ⟨-, -, hfits, hd⟩ := h.found hauth
  have hexec : exec (executeScopedFile env.host a.id (.fileRead path)) s.world =
      (.ok (.completed {
        summary := "verified app-private file read: " ++ path
        value := .text text
        evidence := ["android-app-private-file", "path:" ++ path, "operation:read"] } none),
          s.world) :=
    (exec_bind_ok (exec_readText_ok hleads hread hsmall htext)).trans rfl
  have hattempt : (androidAdapter env.host env.adapters a.capability.val).attempt a s.world =
      exec (executeScopedFile env.host a.id (.fileRead path)) s.world := by
    rw [attempt_of_file hfile hr, ha]
  have htrusted := trusted_attempt (w := s.world) env.trusted hd hfits hown
    (congrArg Prod.fst (hattempt.trans hexec))
  rw [hattempt, hexec] at hend
  obtain ⟨a', houtput, rfl⟩ := hend.commits_of_trusted htrusted
  have hat : ((pl.commit a').actions.map (·.output))[pl.cursor]? = some a'.output := by
    rw [List.getElem?_map, ActionPlanState.commit,
      List.getElem?_set_self (List.getElem?_eq_some_iff.1 hauth.at_cursor).1]
    rfl
  refine ⟨_, _, ?_, hat.trans (congrArg some houtput), rfl⟩
  rw [hnext, Session.outputs, getElem?_moved_self]
  rfl

end Calls

section Twins

variable {task : CognitiveTask}

/-- What can be read at a path is its file. -/
theorem file_of_readAt {refuses : Path → Option IoError} {t : Tree} {bytes : Bytes} (hne : target ≠ [])
    (h : readAt refuses t target = .ok bytes) : t.file target = some bytes := by
  have hat := (reach_eq_ok.1 (readAt_eq_ok.1 h)).2.2
  rw [Tree.at, if_neg hne] at hat
  exact file_eq_some.2 hat

/-- **A twin of the execution**, whose profile has another seed. -/
structure TwinAt (debug : CapabilityError → String) (env : AndroidEnv N) (task : CognitiveTask)
    (actionPlan : ParsedActionPlan) (p : ActionPlanId) (g : AuthorityGrant) (w w' : AppWorld N)
    (s s' : Session (AppWorld N)) (target : Path) (v v' : Bytes) (n : ℕ) : Prop where
  twins : Twins w w'
  versions : SeedVersions target v v'
  ne : v ≠ v'
  prepared : Prepared debug env task actionPlan w' p g s'
  beside : Beside Twins ((callNext env p g)^[n] s) ((callNext env p g)^[n] s')
  stored : w.tree.file target = some v
  stored' : w'.tree.file target = some v'

/-- A profile that is stored when a call is made was stored from the start, with one of its seeds. -/
theorem exists_twinAt (hparse : parseNativeActionPlan text = .ok (.actions actionPlan))
    (hothers : OthersDiscreet env actionPlan) (hs : Prepared debug env task actionPlan w p g s) (n : ℕ)
    (hspares : ∀ m < n, SparesStep env p g ((callNext env p g)^[m] s))
    (hstored : StoredProfile ((callNext env p g)^[n] s).world.tree target) :
    ∃ w' s' v v', TwinAt debug env task actionPlan p g w w' s s' target v v' n := by
  have hruns {w' : AppWorld N} (htwins : Twins w w') := hs.runs (hs.twin w') hparse hothers htwins
  have hbridged := hs.bridged hparse
  obtain ⟨-, -, hsame, -⟩ := spared_iterate hbridged hothers (hruns (.refl w)).2 n hspares
  obtain ⟨v, v', hv, hne, hfile⟩ := hstored.exists_version
  have hw : w.tree.file target = some v := by
    rw [← hfile, ← hs.world]
    exact (file_eq_of_identities_eq hsame hv.inPcPairs).symm
  have htwins : Twins w { w with tree := Function.update w.tree target (some (.file v')) } :=
    ⟨versions_update hv (file_eq_some.1 hw), rfl⟩
  obtain ⟨-, hafter, -, -⟩ := spared_iterate hbridged hothers (hruns htwins).2 n hspares
  exact ⟨_, _, v, v', htwins, hv, hne, hs.twin _, hafter, hw, by simp⟩

section TwinAt

variable {s' : Session (AppWorld N)} {v v' : Bytes} {n : ℕ}
  (htwin : TwinAt debug env task actionPlan p g w w' s s' target v v' n)
include htwin

/-- The twin executes the plan as well. -/
theorem TwinAt.bridged (h : Bridged debug env actionPlan ((callNext env p g)^[n] s)) :
    Bridged debug env actionPlan ((callNext env p g)^[n] s') :=
  h.of_fabric_eq htwin.beside.fabric.symm

/-- It is about to make the same call. -/
theorem TwinAt.authorized (h : Authorized ((callNext env p g)^[n] s) p g pl a d) :
    Authorized ((callNext env p g)^[n] s') p g pl a d :=
  h.of_fabric_eq htwin.beside.fabric.symm

variable (h : Untouched debug debugFabric env actionPlan w)
  (hs : Prepared debug env task actionPlan w p g s)
include h hs

/-- If the identities are left alone, the profile is there at any time. -/
theorem TwinAt.file_eq (m : ℕ) : ((callNext env p g)^[m] s).world.tree.file target = some v :=
  (file_eq_of_identities_eq (h.unchanged w (.refl w) task p g s hs m) htwin.versions.inPcPairs).trans
    htwin.stored

omit hs in
/-- So is the profile of the twin. -/
theorem TwinAt.file_eq' (m : ℕ) : ((callNext env p g)^[m] s').world.tree.file target = some v' :=
  (file_eq_of_identities_eq (h.unchanged w' htwin.twins task p g s' htwin.prepared m)
    htwin.versions.inPcPairs).trans htwin.stored'

/-- The two never become the same. -/
theorem TwinAt.file_ne (m : ℕ) : ((callNext env p g)^[m] s).world.tree.file target ≠
    ((callNext env p g)^[m] s').world.tree.file target := by
  rw [htwin.file_eq h hs, htwin.file_eq' h]
  exact fun heq => htwin.ne (Option.some.inj heq)

end TwinAt

section Untouched

variable {path url : String} {bytes token : Bytes} {n : ℕ}
  (hparse : parseNativeActionPlan text = .ok (.actions actionPlan))
  (hothers : OthersDiscreet env actionPlan) (h : Untouched debug debugFabric env actionPlan w)

include h in
/-- A step of an execution in a world with other seeds. -/
theorem Untouched.identities_step {s' : Session (AppWorld N)} (htwins : Twins w w')
    (hs' : Prepared debug env task actionPlan w' p g s') (n : ℕ) :
    identities (callNext env p g ((callNext env p g)^[n] s')).world =
      identities ((callNext env p g)^[n] s').world := by
  rw [h.unchanged w' htwins task p g s' hs' n, ← h.unchanged w' htwins task p g s' hs' (n + 1),
    Function.iterate_succ_apply']

variable (hs : Prepared debug env task actionPlan w p g s)
  (hbefore : ∀ m < n, SparesStep env p g ((callNext env p g)^[m] s))
  (hauth : Authorized ((callNext env p g)^[n] s) p g pl a d)
include hparse hothers h hs hbefore hauth

/-- The outputs of two reads tell the seeds apart. -/
theorem sparesRead_of_untouched (hc : a.capability.val = "file.read") (ha : a.action = .fileRead path)
    (hr : a.resumption = none) :
    SparesRead env.host.refuses ((callNext env p g)^[n] s).world.tree path := by
  intro target bytes hleads hread hsmall hstored
  obtain ⟨w', s', v, v', htwin⟩ := exists_twinAt hparse hothers hs n hbefore hstored
  have hbridged := (hs.bridged hparse).iterate (p := p) (g := g) n
  have hne := Stepwise.scopedPath_ne_nil hleads
  obtain rfl : bytes = v :=
    Option.some.inj ((file_of_readAt hne hread).symm.trans (htwin.file_eq h hs n))
  obtain ⟨bytes', hread', hlength⟩ : ∃ bytes', readAt env.host.refuses
      ((callNext env p g)^[n] s').world.tree target = .ok bytes' ∧ bytes.length = bytes'.length := by
    rcases htwin.beside.world.tree.readAt_cases env.host.refuses target with
      heq | ⟨x, x', hx, -, -, hx₁, hx₂⟩
    · exact ⟨bytes, heq ▸ hread, rfl⟩
    · cases hx₁.symm.trans hread
      exact ⟨x', hx₂, hx.length_eq⟩
  obtain rfl : bytes' = v' :=
    Option.some.inj ((file_of_readAt hne hread').symm.trans (htwin.file_eq' h n))
  obtain ⟨text, htext⟩ := htwin.versions.exists_text
  obtain ⟨text', htext'⟩ := (SeedVersions.symm _ _ _ htwin.versions).exists_text
  obtain ⟨outs, output, houts, hat, hvalue⟩ :=
    hbridged.outputs_of_read hauth hc ha hr hleads hread hsmall htext
  obtain ⟨outs', output', houts', hat', hvalue'⟩ :=
    (htwin.bridged hbridged).outputs_of_read (htwin.authorized hauth) hc ha hr hleads hread'
      (hlength ▸ hsmall) htext'
  have hsame := h.outputs w' htwin.twins task p g s s' hs htwin.prepared (n + 1)
  rw [Function.iterate_succ_apply', Function.iterate_succ_apply', houts, houts'] at hsame
  cases hsame
  cases hat.symm.trans hat'
  cases hvalue.symm.trans hvalue'
  exact htwin.ne (htext.symm.trans htext')

/-- A file of the directory is written as it is, and is no profile: its twin would be written with
the same bytes. -/
theorem sparesWrite_of_untouched (hc : a.capability.val = "file.write")
    (ha : a.action = .fileWrite path bytes) (hr : a.resumption = none) :
    SparesWrite env.host.refuses ((callNext env p g)^[n] s).world.tree a.id path bytes := by
  intro target hopens hin
  have hbridged := (hs.bridged hparse).iterate (p := p) (g := g) n
  have hne := Stepwise.scopedPath_ne_nil hopens.leads
  have hfiles := (identities_written_iff hne hin (hbridged.file_of_opens hauth hc ha hr hopens)).1
    (h.identities_step (.refl w) hs n)
  by_cases haccepted : env.host.refuses target = none
  · rw [if_pos haccepted] at hfiles ⊢
    refine ⟨hfiles, fun hstored => ?_⟩
    obtain ⟨w', s', v, v', htwin⟩ := exists_twinAt hparse hothers hs n hbefore hstored
    have hfiles' := (identities_written_iff hne hin
      ((htwin.bridged hbridged).file_of_opens (htwin.authorized hauth) hc ha hr
        (hopens.of_apart plain_seedVersions htwin.beside.world))).1
          (h.identities_step htwin.twins htwin.prepared n)
    rw [if_pos haccepted] at hfiles'
    exact htwin.file_ne h hs n (hfiles.2.trans hfiles'.2.symm)
  · rw [if_neg haccepted] at hfiles ⊢
    exact hfiles

/-- What is staged over two profiles is committed over both. -/
theorem sparesStaging_of_untouched (hc : a.capability.val = "artifact.download")
    (ha : a.action = .artifactDownload url path) (hr : a.resumption = none) :
    SparesStaging env.host ((callNext env p g)^[n] s).world a.id url path := by
  intro target previous result hstages hstored
  obtain ⟨w', s', v, v', htwin⟩ := exists_twinAt hparse hothers hs n hbefore hstored
  have hbridged := (hs.bridged hparse).iterate (p := p) (g := g) n
  obtain ⟨previous', hstages'⟩ := hstages.of_apart plain_seedVersions htwin.beside.world
  have hcommitted := hbridged.file_of_stages hauth hc ha hr hstages
  have hcommitted' :=
    (htwin.bridged hbridged).file_of_stages (htwin.authorized hauth) hc ha hr hstages'
  refine htwin.file_ne h hs (n + 2) ?_
  simp only [Function.iterate_succ_apply']
  exact hcommitted.trans hcommitted'.symm

/-- A file of the directory is committed as it is, and is no profile. -/
theorem sparesCommit_of_untouched (hc : a.capability.val = "artifact.download")
    (ha : a.action = .artifactDownload url path) (hr : a.resumption = some token) :
    SparesCommit env.host.refuses ((callNext env p g)^[n] s).world.tree a.id path token := by
  intro hash rollback finalUrl hdecode target staged hcommits hin
  have hbridged := (hs.bridged hparse).iterate (p := p) (g := g) n
  have hfile := (identities_committed_iff hin
    (hbridged.file_of_commits hauth hc ha hr hdecode hcommits)).1 (h.identities_step (.refl w) hs n)
  refine ⟨hfile, fun hstored => ?_⟩
  obtain ⟨w', s', v, v', htwin⟩ := exists_twinAt hparse hothers hs n hbefore hstored
  have hfile' := (identities_committed_iff hin
    ((htwin.bridged hbridged).file_of_commits (htwin.authorized hauth) hc ha hr hdecode
      (hcommits.of_apart plain_seedVersions htwin.beside.world))).1
        (h.identities_step htwin.twins htwin.prepared n)
  exact htwin.file_ne h hs n (hfile.trans hfile'.symm)

end Untouched

/-- **A plan that leaves the identities alone makes no call that does not spare them.** -/
theorem spares_of_untouched (hparse : parseNativeActionPlan text = .ok (.actions actionPlan))
    (hothers : OthersDiscreet env actionPlan) (h : Untouched debug debugFabric env actionPlan w) :
    SparesIdentities debug env actionPlan w := by
  intro task p g s hs n
  induction n using Nat.strong_induction_on with
  | _ n ih =>
    intro pl a d hauth
    exact {
      read := fun path hc ha hr => sparesRead_of_untouched hparse hothers h hs ih hauth hc ha hr
      write := fun path bytes hc ha hr =>
        sparesWrite_of_untouched hparse hothers h hs ih hauth hc ha hr
      stage := fun url path hc ha hr =>
        sparesStaging_of_untouched hparse hothers h hs ih hauth hc ha hr
      commit := fun url path token hc ha hr =>
        sparesCommit_of_untouched hparse hothers h hs ih hauth hc ha hr }

end Twins

/-! ## When they are left alone -/

/-- A plan whose actions spare the identities in any world. -/
theorem SparesIdentities.of_actions (hparse : parseNativeActionPlan text = .ok (.actions actionPlan))
    (h : ∀ node ∈ actionPlan.graph.actions, ∀ a : PlannedAction, a.capability = node.capability →
      actionPlan.payloads[node.id]? = some a.action → ∀ w, SparesCall env.host w a) :
    SparesIdentities debug env actionPlan w := by
  intro task p g s hs n pl a d hauth
  have hbridged := (hs.bridged hparse).iterate (p := p) (g := g) n
  obtain ⟨-, node, hnode, hcapability, hpayload⟩ :=
    hbridged.planned _ _ hauth.stored a (List.mem_of_getElem? hauth.at_cursor)
  exact h node hnode a hcapability.symm hpayload _

end Identities

namespace Identities.Sample

/-- A host that refuses nothing, with a network that answers nothing. -/
def env : AndroidEnv Unit where
  host := {
    refuses := fun _ => none
    describe := fun _ => "refused"
    httpsFetch := fun _ w => (.error "offline", w) }
  adapters _ := { execute := fun _ _ w => (.error "offline", w) }
  trusted _ _ _ := false

def seed : String := "0000000000000000000000000000000000000000000000000000000000000000"

/-- The capability root: a profile, and two notes, one of them beside the profile. -/
def world : AppWorld Unit where
  tree path :=
    if path = ["pc-pairs"] then some .directory
    else if path = ["pc-pairs", "workstation.pcp97"] then
      some (.file (pcPairProfile "workstation" "10.0.0.2:45970" seed "02" "03"))
    else if path = ["pc-pairs", "notes.txt"] then some (.file [104, 105])
    else if path = ["notes.txt"] then some (.file [104, 105])
    else none
  net := ()

def task : CognitiveTask where
  id := 1
  goalId := none
  intent := Intent.new "do it"
  graph := {}
  status := .running
  stepsTaken := 0
  verificationFailures := 0
  lastObservation := none
  createdTick := 0
  updatedTick := 0

/-- The plan of a text. -/
def planOf (text : String) : ParsedActionPlan :=
  match parseNativeActionPlan text with
  | .ok (.actions plan) => plan
  | _ => { graph := {}, canonicalText := "", payloads := ∅ }

theorem parse_planOf {text : String} (h : (planOf text).graph.actions ≠ []) :
    parseNativeActionPlan text = .ok (.actions (planOf text)) := by
  unfold planOf at h ⊢
  split at h
  · next heq => rw [heq]
  · exact absurd rfl h

/-- A plan that asks for files and downloads only. -/
theorem othersDiscreet_of_all {plan : ParsedActionPlan}
    (h : (planCapabilities plan).all (· ∈ appPrivateCapabilities) = true) :
    OthersDiscreet env plan := fun capability hmem hno =>
  absurd (of_decide_eq_true (List.all_eq_true.1 h capability hmem)) hno

def fabricOf (plan : ParsedActionPlan) : ActionFabric (AppWorld Unit) :=
  (androidFabric (fun _ => "refused") env plan).toOption.getD
    { registry := .new, adapters := ∅, state := {} }

/-- Execute the plan of a text, with one poll. -/
def run (text : String) :
    Except String (Option (Except AssistantActionRunError VerifiedAssistantActionRun)) ×
      Session (AppWorld Unit) :=
  exec (executePlan (fun _ => "refused") (fun _ => "refused") env task (planOf text) "do it" 1)
    { fabric := fabricOf (planOf text), world, trace := [] }

def writing : String := "NTD97_ACTIONS_V1\n1|file.write|pc-pairs/workstation.pcp97\thello\nEND"

/-- A plan that spares the profiles, although it reads beside one. -/
def sparing : String :=
  "NTD97_ACTIONS_V1\n1|file.read|pc-pairs/notes.txt\n2|file.write|notes/new.txt\thello\nEND"

/-- The plan is read, needs no approval, finds its adapters and overwrites the profile. -/
theorem writing_overwrites : (planOf writing).graph.actions ≠ [] ∧
    (externalWriteApproval (planOf writing)).toOption = some none ∧
    (planCapabilities (planOf writing)).all (· ∈ appPrivateCapabilities) = true ∧
    (androidFabric (fun _ => "refused") env (planOf writing)).toOption.isSome ∧
    (run writing).2.world.tree.file ["pc-pairs", "workstation.pcp97"] ≠
      world.tree.file ["pc-pairs", "workstation.pcp97"] := by
  decide +kernel

/-- What the plan that spares the profiles does. -/
theorem sparing_actions : (planOf sparing).graph.actions ≠ [] ∧
    (planCapabilities (planOf sparing)).all (· ∈ appPrivateCapabilities) = true ∧
    ∀ node ∈ (planOf sparing).graph.actions, ∀ action ∈ (planOf sparing).payloads[node.id]?,
      action = .fileRead "pc-pairs/notes.txt" ∨ action = .fileWrite "notes/new.txt" (utf8 "hello") := by
  decide +kernel

/-- Its calls spare them in any world. -/
theorem sparesIdentities_sparing :
    SparesIdentities (fun _ => "refused") env (planOf sparing) world := by
  obtain ⟨hne, -, hactions⟩ := sparing_actions
  have hread : NTD97.scopedPath "pc-pairs/notes.txt" = .ok ["pc-pairs", "notes.txt"] := by
    decide +kernel
  have hwrite : NTD97.scopedPath "notes/new.txt" = .ok ["notes", "new.txt"] := by decide +kernel
  refine SparesIdentities.of_actions (parse_planOf hne) fun node hnode a hcapability hpayload w => ?_
  have haction := hactions node hnode a.action hpayload
  refine ⟨fun path _ ha _ target bytes hleads _ _ hstored => ?_,
    fun path bytes _ ha _ target hopens hin => ?_, fun url path _ ha => ?_, fun url path token _ ha => ?_⟩
  all_goals rw [ha] at haction
  · rcases haction with h | h
    · cases h
      cases hread.symm.trans hleads
      obtain ⟨v, v', ⟨peer, _, _, _, _, _, hpath, -⟩, -⟩ := hstored
      have hlast := congrArg (fun s : String => s.toList.getLast?)
        (List.cons.inj (List.cons.inj hpath).2).1
      simp at hlast
    · cases h
  · rcases haction with h | h
    · cases h
    · cases h
      cases hwrite.symm.trans hopens.leads
      exact absurd (Option.some.inj hin.1) (by decide)
  · rcases haction with h | h <;> cases h
  · rcases haction with h | h <;> cases h

end Identities.Sample

end NTD97
