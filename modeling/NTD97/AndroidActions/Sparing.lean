import Mathlib
import NTD97.AndroidActions.Profiles

/-!
# AndroidActions/Sparing — the calls that spare the pairing identities

    file.read          ──▸ a file that is no stored profile
    file.write         ──▸ a file outside `pc-pairs`, or a file of it as it is already
    artifact.download  ──▸ the same, when it is staged and when it is committed

Whether a call of the file and download adapters spares the identities can be told from the world
before it.  One that does changes no identity, and answers alike in worlds that differ only in the
seeds.
-/

namespace NTD97

open Guard Effect Secrecy Text Wire Files

-- a path is not to be evaluated when a goal is looked at
seal NTD97.scopedPath

/-! ## What a call must not do -/

section Spares

variable {N : Type} (refuses : Path → Option IoError) (host : Host N) (t : Tree) (w : AppWorld N)
  (id : ActionId) (url relative : String) (bytes token : Bytes)

/-- No stored profile is read. -/
def SparesRead : Prop := ∀ target bytes, NTD97.scopedPath relative = .ok target →
  readAt refuses t target = .ok bytes → bytes.length ≤ maxPlatformTextBytes → ¬ StoredProfile t target

/-- A write that gets as far as its file leaves the files below `pc-pairs` as they are, whatever the
seeds. -/
def SparesWrite : Prop :=
  ∀ target, OpensWrite refuses t id relative bytes target → InPcPairs target →
  if refuses target = none then
    (t.file (Stepwise.tempOf id target) = none ∧ t.file target = some bytes) ∧ ¬ StoredProfile t target
  else t.file (Stepwise.tempOf id target) = some bytes

/-- No download is staged over a stored profile. -/
def SparesStaging : Prop := ∀ target previous result,
  StagesDownload host w id url relative target previous result → ¬ StoredProfile w.tree target

/-- A commit leaves the files below `pc-pairs` as they are, whatever the seeds. -/
def SparesCommit : Prop := ∀ hash rollback finalUrl,
  decodeArtifactResumeToken token = .ok (hash, rollback, finalUrl) →
    ∀ target staged, CommitsDownload refuses t id relative hash target staged → InPcPairs target →
      t.file target = some staged ∧ ¬ StoredProfile t target

/-- **The call an attempt makes spares the identities.** -/
structure SparesCall (a : PlannedAction) : Prop where
  read : ∀ path, a.capability.val = "file.read" → a.action = .fileRead path → a.resumption = none →
    SparesRead host.refuses w.tree path
  write : ∀ path bytes, a.capability.val = "file.write" → a.action = .fileWrite path bytes →
    a.resumption = none → SparesWrite host.refuses w.tree a.id path bytes
  stage : ∀ url path, a.capability.val = "artifact.download" → a.action = .artifactDownload url path →
    a.resumption = none → SparesStaging host w a.id url path
  commit : ∀ url path token, a.capability.val = "artifact.download" →
    a.action = .artifactDownload url path → a.resumption = some token →
      SparesCommit host.refuses w.tree a.id path token

end Spares

/-! ## The adapters -/

/-- A call that neither changes an identity nor tells anything of a seed. -/
structure Unrevealing {N α : Type} (call : AppWorld N → α × AppWorld N) : Prop where
  blind : BlindCall Twins call
  unchanged : ∀ w, identities (call w).2 = identities w

/-- **An adapter that has nothing to do with the identities.** -/
structure Discreet {N : Type} (ad : CapabilityAdapter (AppWorld N)) : Prop where
  execute : ∀ id action, Unrevealing (ad.execute id action)
  resume : ∀ id action token, Unrevealing (ad.resume id action token)
  rollback : ∀ id action token, Unrevealing (ad.rollback id action token)

/-- The capabilities of the file and download adapters. -/
def appPrivateCapabilities : List String := ["file.read", "file.write", "artifact.download"]

/-- The action is one of the capability, as far as the file and download adapters are concerned. -/
structure FitsCapability (capability : String) (action : TypedAction) : Prop where
  read : capability = "file.read" → ∃ path, action = .fileRead path
  write : capability = "file.write" → ∃ path bytes, action = .fileWrite path bytes
  download : capability = "artifact.download" → ∃ url path, action = .artifactDownload url path

/-- What is parsed fits. -/
theorem fits_of_parsePayload {capability payload : String} {action : TypedAction}
    (h : parsePayload capability payload = .ok action) : FitsCapability capability action := by
  refine ⟨?_, ?_, ?_⟩ <;> rintro rfl
  · exact ⟨payload, (Except.ok.inj h).symm⟩
  · simp only [parsePayload, bind_eq_ok, pure_eq_ok, Prod.exists] at h
    obtain ⟨path, value, -, _, -, rfl⟩ := h
    exact ⟨_, _, rfl⟩
  · simp only [parsePayload, bind_eq_ok, pure_eq_ok, Prod.exists] at h
    obtain ⟨url, path, -, rfl⟩ := h
    exact ⟨_, _, rfl⟩

section Adapters

variable {N : Type} {host : Host N} {others : String → CapabilityAdapter (AppWorld N)}
  {w w' : AppWorld N} {a : PlannedAction} {id : ActionId} {path url : String} {bytes token : Bytes}

/-- **The call an attempt makes**, by its capability and whether it resumes. -/
inductive AttemptCall (host : Host N) (others : String → CapabilityAdapter (AppWorld N))
    (a : PlannedAction) : (AppWorld N → Except String AdapterResult × AppWorld N) → Prop
  | read (path : String) (hc : a.capability.val = "file.read") (ha : a.action = .fileRead path)
      (hr : a.resumption = none) :
      AttemptCall host others a (exec (executeScopedFile host a.id (.fileRead path)))
  | write (path : String) (bytes : Bytes) (hc : a.capability.val = "file.write")
      (ha : a.action = .fileWrite path bytes) (hr : a.resumption = none) :
      AttemptCall host others a (exec (executeScopedFile host a.id (.fileWrite path bytes)))
  | stage (url path : String) (hc : a.capability.val = "artifact.download")
      (ha : a.action = .artifactDownload url path) (hr : a.resumption = none) :
      AttemptCall host others a (exec (executeArtifactDownload host a.id (.artifactDownload url path)))
  | commit (url path : String) (token : Bytes) (hc : a.capability.val = "artifact.download")
      (ha : a.action = .artifactDownload url path) (hr : a.resumption = some token) :
      AttemptCall host others a
        (exec (resumeArtifactDownload host a.id (.artifactDownload url path) token))
  | refused (error : String) (hc : a.capability.val ∈ appPrivateCapabilities) :
      AttemptCall host others a fun w => (.error error, w)
  | other (hc : a.capability.val ∉ appPrivateCapabilities) :
      AttemptCall host others a ((others a.capability.val).attempt a)

/-- The file adapter, which resumes nothing. -/
theorem attempt_of_file (hc : a.capability.val ∈ ["file.read", "file.write"])
    (hr : a.resumption = none) : (androidAdapter host others a.capability.val).attempt a =
      exec (executeScopedFile host a.id a.action) := by
  rw [androidAdapter, if_pos hc]
  unfold CapabilityAdapter.attempt
  rw [hr]
  rfl

/-- The adapter of downloads. -/
theorem androidAdapter_download (hc : a.capability.val = "artifact.download") :
    androidAdapter host others a.capability.val = androidArtifactDownloadAdapter host := by
  rw [androidAdapter, if_neg, if_pos hc]
  rw [hc]
  decide

theorem attempt_of_download (hc : a.capability.val = "artifact.download")
    (hr : a.resumption = none) : (androidAdapter host others a.capability.val).attempt a =
      exec (executeArtifactDownload host a.id a.action) := by
  rw [androidAdapter_download hc]
  unfold CapabilityAdapter.attempt
  rw [hr]
  rfl

theorem attempt_of_resumption (hc : a.capability.val = "artifact.download")
    (hr : a.resumption = some token) : (androidAdapter host others a.capability.val).attempt a =
      exec (resumeArtifactDownload host a.id a.action token) := by
  rw [androidAdapter_download hc]
  unfold CapabilityAdapter.attempt
  rw [hr]
  rfl

/-- The capability of an action is one of the other adapters'. -/
theorem androidAdapter_other {capability : String} (hc : capability ∉ appPrivateCapabilities) :
    androidAdapter host others capability = others capability := by
  rw [androidAdapter, if_neg fun hfile => hc (List.mem_append_left ["artifact.download"] hfile),
    if_neg fun heq => hc (by rw [heq]; decide)]

/-- **Every attempt is one of these calls.** -/
theorem attemptCall (host : Host N) (others : String → CapabilityAdapter (AppWorld N))
    (hfits : FitsCapability a.capability.val a.action) :
    AttemptCall host others a ((androidAdapter host others a.capability.val).attempt a) := by
  by_cases hown : a.capability.val ∈ appPrivateCapabilities
  · rcases List.mem_append.1 (show _ ∈ ["file.read", "file.write"] ++ ["artifact.download"] from hown)
      with hfile | hdownload
    · cases hr : a.resumption with
      | some token =>
        rw [androidAdapter, if_pos hfile]
        unfold CapabilityAdapter.attempt
        rw [hr]
        exact .refused _ hown
      | none =>
        rw [attempt_of_file hfile hr]
        rw [List.mem_cons, List.mem_singleton] at hfile
        rcases hfile with hc | hc
        · obtain ⟨path, ha⟩ := hfits.read hc
          rw [ha]
          exact .read path hc ha hr
        · obtain ⟨path, bytes, ha⟩ := hfits.write hc
          rw [ha]
          exact .write path bytes hc ha hr
    · have hc := List.mem_singleton.1 hdownload
      obtain ⟨url, path, ha⟩ := hfits.download hc
      cases hr : a.resumption with
      | none =>
        rw [attempt_of_download hc hr, ha]
        exact .stage url path hc ha hr
      | some token =>
        rw [attempt_of_resumption hc hr, ha]
        exact .commit url path token hc ha hr
  · rw [androidAdapter_other hown]
    exact .other hown

/-- Whatever a discreet adapter is asked for. -/
theorem Discreet.attempt {ad : CapabilityAdapter (AppWorld N)} (h : Discreet ad)
    (a : PlannedAction) : Unrevealing (ad.attempt a) := by
  unfold CapabilityAdapter.attempt
  cases a.resumption with
  | none => exact h.execute _ _
  | some token => exact h.resume _ _ token

/-! ## What a call does to the identities -/

/-- A read changes nothing. -/
theorem exec_executeScopedFile_read :
    (exec (executeScopedFile host id (.fileRead path)) w).2 = w := by
  refine Keeps.final (I := fun v => v = w) ?_ rfl
  refine .bind (.bind (.checked ..) fun target => .bind (.of_final fun v hv => ?_) fun bytes =>
    .refuse_bind fun _ => .option ..) fun text => .ret _
  rw [exec_readFile]
  exact hv

/-- What a write does outside `pc-pairs` is no matter of the identities. -/
theorem identities_written {target : Path} (hne : target ≠ []) (hout : ¬ InPcPairs target)
    (h : w'.tree.file = filesWritten host.refuses w.tree.file id bytes target) :
    identities w' = identities w := by
  refine identities_congr fun p hp => ?_
  have htemp : p ≠ Stepwise.tempOf id target := fun heq => hout ((inPcPairs_tempOf hne).1 (heq ▸ hp))
  have htarget : p ≠ target := fun heq => hout (heq ▸ hp)
  rw [h, filesWritten]
  split
  · rw [Function.update_of_ne htarget, Function.update_of_ne htemp]
  · rw [Function.update_of_ne htemp]

theorem identities_committed {target : Path} {staged : Bytes} (hout : ¬ InPcPairs target)
    (h : w'.tree.file = filesCommitted w.tree.file id target staged) :
    identities w' = identities w := by
  refine identities_congr fun p hp => ?_
  have hstage : p ≠ Stepwise.stageOf id := fun heq => not_inPcPairs_stageOf (heq ▸ hp)
  have htarget : p ≠ target := fun heq => hout (heq ▸ hp)
  rw [h, filesCommitted, Function.update_of_ne htarget, Function.update_of_ne hstage]

/-- What a download answers when it was committed. -/
def downloaded (path : String) (rollback : Bytes) (finalUrl : String) (r : ℕ × Digest) :
    AdapterResult :=
  .completed {
    summary := "verified artifact download committed: " ++ path
    value := .fields (Std.ExtTreeMap.ofList [("path", path), ("bytes", toString r.1),
      ("sha256", digestHex r.2), ("url", finalUrl)])
    evidence := ["android-artifact-download", "operation:download",
      "sha256:" ++ digestHex r.2] } (some rollback)

/-- A download is resumed by committing what was staged. -/
theorem exec_resumeArtifactDownload {hash rollback : Bytes} {finalUrl : String}
    (hdecode : decodeArtifactResumeToken token = .ok (hash, rollback, finalUrl)) :
    exec (resumeArtifactDownload host id (.artifactDownload url path) token) w =
      ((exec (commitStaging host id path hash) w).1.map (downloaded path rollback finalUrl),
        (exec (commitStaging host id path hash) w).2) := by
  unfold resumeArtifactDownload
  dsimp only
  rw [hdecode, exec_check_ok_bind]
  exact exec_bind_pure ..

/-- A write changes what `write_atomic` changes. -/
theorem exec_executeScopedFile_write :
    (exec (executeScopedFile host id (.fileWrite path bytes)) w).2 =
      (exec (writeAtomic host id path bytes) w).2 :=
  congrArg Prod.snd (exec_bind_pure ..)

/-- A write that spares the identities. -/
theorem identities_executeScopedFile_write (h : SparesWrite host.refuses w.tree id path bytes) :
    identities (exec (executeScopedFile host id (.fileWrite path bytes)) w).2 = identities w := by
  rw [exec_executeScopedFile_write]
  have hends : WriteEnds host w id path bytes (exec (writeAtomic host id path bytes) w) :=
    writeAtomic_ends
  generalize exec (writeAtomic host id path bytes) w = ends at hends
  cases hends with
  | closed e u hclosed hu => exact identities_of_file_eq hu
  | opened target answer u hopens hanswer hu =>
    have hne := Stepwise.scopedPath_ne_nil hopens.leads
    by_cases hin : InPcPairs target
    · refine (identities_written_iff hne hin hu).2 ?_
      have hspared := h target hopens hin
      split at hspared
      · next haccepted =>
        rw [if_pos haccepted]
        exact hspared.1
      · next haccepted =>
        rw [if_neg haccepted]
        exact hspared
    · exact identities_written hne hin hu

/-- A commit that spares the identities. -/
theorem identities_resumeArtifactDownload (h : SparesCommit host.refuses w.tree id path token) :
    identities (exec (resumeArtifactDownload host id (.artifactDownload url path) token) w).2 =
      identities w := by
  cases hdecode : decodeArtifactResumeToken token with
  | error e =>
    unfold resumeArtifactDownload
    dsimp only
    rw [hdecode, exec_check_error_bind]
  | ok decoded =>
    obtain ⟨hash, rollback, finalUrl⟩ := decoded
    rw [exec_resumeArtifactDownload hdecode]
    dsimp only
    have hends : CommitEnds host w id path hash (exec (commitStaging host id path hash) w) :=
      commitStaging_ends
    generalize exec (commitStaging host id path hash) w = ends at hends
    cases hends with
    | closed e u hclosed hu => exact identities_of_file_eq hu
    | done target staged u hcommits hu =>
      by_cases hin : InPcPairs target
      · exact (identities_committed_iff hin hu).2
          (h hash rollback finalUrl hdecode target staged hcommits hin).1
      · exact identities_committed hin hu

/-- **A call that spares the identities leaves them as they are.** -/
theorem identities_attempt (hfits : FitsCapability a.capability.val a.action)
    (hspares : SparesCall host w a)
    (hothers : a.capability.val ∉ appPrivateCapabilities → Discreet (others a.capability.val)) :
    identities ((androidAdapter host others a.capability.val).attempt a w).2 = identities w := by
  have hcall := attemptCall host others hfits
  generalize (androidAdapter host others a.capability.val).attempt a = call at hcall
  cases hcall with
  | read path hc ha hr => rw [exec_executeScopedFile_read]
  | write path bytes hc ha hr =>
    exact identities_executeScopedFile_write (hspares.write path bytes hc ha hr)
  | stage url path hc ha hr =>
    exact identities_congr fun p hp => executeArtifactDownload_file fun heq =>
      not_inPcPairs_stageOf (heq ▸ hp)
  | commit url path token hc ha hr =>
    exact identities_resumeArtifactDownload (hspares.commit url path token hc ha hr)
  | refused error hc => rfl
  | other hc => exact ((hothers hc).attempt a).unchanged w

/-- **A call that spares the identities answers alike** in worlds that differ in the seeds only. -/
theorem agrees_attempt (hfits : FitsCapability a.capability.val a.action)
    (hspares : SparesCall host w a)
    (hothers : a.capability.val ∉ appPrivateCapabilities → Discreet (others a.capability.val))
    (h : Twins w w') :
    Agrees Twins ((androidAdapter host others a.capability.val).attempt a) w w' := by
  have hcall := attemptCall host others hfits
  generalize (androidAdapter host others a.capability.val).attempt a = call at hcall
  cases hcall with
  | read path hc ha hr =>
    refine Agrees.bind (agrees_readText plain_seedVersions h fun target bytes hleads hread hsmall => ?_)
      fun text v v' _ _ hv => ⟨rfl, hv⟩
    exact at_eq_of_not_storedProfile h.tree
      (hspares.read path hc ha hr target bytes hleads hread hsmall)
  | write path bytes hc ha hr =>
    refine Agrees.bind (agrees_writeAtomic plain_seedVersions h fun target hopens haccepted => ?_)
      fun rollback v v' _ _ hv => ⟨rfl, hv⟩
    refine at_eq_of_not_storedProfile h.tree fun hstored => ?_
    have hspared := hspares.write path bytes hc ha hr target hopens hstored.inPcPairs
    rw [if_pos haccepted] at hspared
    exact hspared.2 hstored
  | stage url path hc ha hr =>
    refine agrees_executeArtifactDownload plain_seedVersions h fun target previous result hstages => ?_
    exact at_eq_of_not_storedProfile h.tree
      (hspares.stage url path hc ha hr target previous result hstages)
  | commit url path token hc ha hr =>
    exact (oblivious_resumeArtifactDownload plain_seedVersions).agrees h
  | refused error hc => exact ⟨rfl, h⟩
  | other hc => exact ((hothers hc).attempt a).blind w w' h

/-- Undoing an action is blind to the seeds. -/
theorem blind_rollback (capability : String)
    (hothers : capability ∉ appPrivateCapabilities → Discreet (others capability)) (id : ActionId)
    (action : TypedAction) (token : Bytes) :
    BlindCall Twins ((androidAdapter host others capability).rollback id action token) := by
  by_cases hown : capability ∈ appPrivateCapabilities
  · rw [androidAdapter]
    split
    · refine Blind.call (Q := fun _ => True) ?_
      cases action with
      | fileWrite path bytes => exact oblivious_rollbackWrite
      | _ => exact .raise _
    · next hfile =>
      have hc : capability = "artifact.download" := by
        rcases List.mem_append.1
          (show _ ∈ ["file.read", "file.write"] ++ ["artifact.download"] from hown) with h | h
        · exact absurd h hfile
        · exact List.mem_singleton.1 h
      rw [if_pos hc]
      refine Blind.call (Q := fun _ => True) ?_
      cases action with
      | artifactDownload url path => exact oblivious_rollbackWrite
      | _ => exact .raise _
  · rw [androidAdapter_other hown]
    exact ((hothers hown).rollback id action token).blind

/-- **Whether a call spares the identities** does not depend on the seeds. -/
theorem SparesCall.of_twins (h : Twins w w') (hs : SparesCall host w a) : SparesCall host w' a := by
  have hstored {target : Path} (hno : ¬ StoredProfile w.tree target) :
      ¬ StoredProfile w'.tree target := fun hp => hno ((storedProfile_iff h.tree).2 hp)
  have hfile {target : Path} (hne : target ≠ []) (hno : ¬ StoredProfile w.tree target) :
      w.tree.file target = w'.tree.file target :=
    file_eq_of_at_eq hne (at_eq_of_not_storedProfile h.tree hno)
  refine ⟨fun path hc ha hr target bytes hleads hread' hsmall => ?_,
    fun path bytes hc ha hr target hopens' hin => ?_,
    fun url path hc ha hr target previous' result hstages' => ?_,
    fun url path token hc ha hr hash rollback finalUrl hdecode target staged hcommits' hin => ?_⟩
  · rcases h.tree.readAt_cases host.refuses target with heq | ⟨v, v', hv, -, -, hread, hread''⟩
    · exact hstored (hs.read path hc ha hr target bytes hleads (heq.trans hread') hsmall)
    · cases hread''.symm.trans hread'
      exact hstored (hs.read path hc ha hr target v hleads hread (hv.length_eq ▸ hsmall))
  · have hspared := hs.write path bytes hc ha hr target
      (hopens'.of_apart plain_seedVersions h.symm) hin
    have htemp := file_eq_of_at_eq tempOf_ne_nil
      (h.tree.at_eq (plain_seedVersions.temp a.id target))
    split at hspared
    · next haccepted =>
      obtain ⟨⟨hnone, hsome⟩, hno⟩ := hspared
      rw [if_pos haccepted]
      exact ⟨⟨htemp ▸ hnone, hfile hin.ne_nil hno ▸ hsome⟩, hstored hno⟩
    · next haccepted =>
      rw [if_neg haccepted]
      exact htemp ▸ hspared
  · obtain ⟨previous, hstages⟩ := hstages'.of_apart plain_seedVersions h.symm
    exact hstored (hs.stage url path hc ha hr target previous result hstages)
  · obtain ⟨hsome, hno⟩ := hs.commit url path token hc ha hr hash rollback finalUrl hdecode target
      staged (hcommits'.of_apart plain_seedVersions h.symm) hin
    exact ⟨hfile hin.ne_nil hno ▸ hsome, hstored hno⟩

/-! ## What the verifier says -/

/-- A text that does not begin with a blank is not blank. -/
theorem isBlank_verified (s t : String) (hs : isBlank s = false) : isBlank (s ++ t) = false := by
  rw [Bool.eq_false_iff] at hs ⊢
  exact fun h => hs (isBlank_append.1 h).1

/-- **What the file and download adapters complete is trusted.** -/
theorem trusted_attempt (trusted : CapabilityDescriptor → TypedAction → ActionOutput → Bool)
    {d : CapabilityDescriptor} (hd : d.id.val = a.capability.val)
    (hfits : FitsCapability a.capability.val a.action)
    (hown : a.capability.val ∈ appPrivateCapabilities)
    {output : ActionOutput} {rollback : Option Bytes}
    (h : ((androidAdapter host others a.capability.val).attempt a w).1 =
      .ok (.completed output rollback)) :
    trustedEvidence trusted d a.action output = true ∧ isBlank output.summary = false := by
  have hcall := attemptCall host others hfits
  generalize (androidAdapter host others a.capability.val).attempt a = call at hcall h
  cases hcall with
  | read path hc ha hr =>
    obtain ⟨text, v, -, htext⟩ := exists_of_exec_bind h
    cases Except.ok.inj htext
    refine ⟨?_, isBlank_verified _ _ (by decide +kernel)⟩
    simp [trustedEvidence, hd, hc, ha]
  | write path bytes hc ha hr =>
    obtain ⟨token, v, -, htoken⟩ := exists_of_exec_bind h
    cases Except.ok.inj htoken
    refine ⟨?_, isBlank_verified _ _ (by decide +kernel)⟩
    simp [trustedEvidence, hd, hc, ha]
  | stage url path hc ha hr =>
    obtain ⟨result, v, -, h⟩ := exists_of_exec_bind h
    obtain ⟨-, v, -, h⟩ := exists_of_exec_bind h
    obtain ⟨target, v, -, h⟩ := exists_of_exec_bind h
    obtain ⟨token, v, -, h⟩ := exists_of_exec_bind h
    obtain ⟨-, v, -, h⟩ := exists_of_exec_bind h
    obtain ⟨resume, v, -, h⟩ := exists_of_exec_bind h
    exact nomatch Except.ok.inj h
  | commit url path token hc ha hr =>
    obtain ⟨⟨hash, rollback', finalUrl⟩, v, -, h⟩ := exists_of_exec_bind h
    obtain ⟨⟨size, digest⟩, v, -, h⟩ := exists_of_exec_bind h
    cases Except.ok.inj h
    refine ⟨?_, isBlank_verified _ _ (by decide +kernel)⟩
    simp [trustedEvidence, hd, hc, ha]
  | refused error hc => exact nomatch h
  | other hc => exact absurd hown hc

end Adapters

end NTD97
