import Mathlib
import NTD97.AndroidFiles.Effects
import NTD97.Lib.Secrecy

/-!
# AndroidFiles/Secrecy — what the file adapters tell of the files they work on

    w  ──call──▸ (a, v)
    w' ──call──▸ (a, v')       w, w' hold versions of the same files, and so do v, v'

A read answers with what the file holds, and the tokens of a write and of a download hold what they
replace.  Nothing else in an answer depends on the content of a file.  So a read tells two worlds
apart only if it reaches a file with versions, and a write or a download only if it gets as far as
its token.
-/

namespace NTD97

open Guard Effect Secrecy Text Wire Files

/-! ## Versions of the files of a world -/

/-- Worlds that hold versions of the same files, and agree on all else. -/
structure Apart {N : Type} (V : Path → Bytes → Bytes → Prop) (w w' : AppWorld N) : Prop where
  tree : Versions V w.tree w'.tree
  net : w.net = w'.net

/-- The versions of a file are of one length, and none of the adapters' own files has any. -/
structure PlainVersions (V : Path → Bytes → Bytes → Prop) : Prop where
  length_eq : ∀ p v v', V p v v' → v.length = v'.length
  temp : ∀ id target v v', ¬ V (Stepwise.tempOf id target) v v'
  stage : ∀ id v v', ¬ V (Stepwise.stageOf id) v v'

section Adapters

variable {N : Type} {host : Host N} {V : Path → Bytes → Bytes → Prop} {w w' : AppWorld N}
  {id : ActionId} {target : Path} {relative : String} {bytes token : Bytes}

-- a path is not to be evaluated when a goal is looked at
seal NTD97.scopedPath

/-- A computation of an adapter that does not tell such worlds apart. -/
abbrev Oblivious {α : Type} (V : Path → Bytes → Bytes → Prop) (x : AppM N α) : Prop :=
  Blind (Apart V) (Apart V) x fun _ => True

/-- What does not tell the trees apart does not tell the worlds apart. -/
theorem oblivious_onFiles {α : Type} {what : String} {x : FilesM α} (h : Unversed V x) :
    Oblivious V (onFiles host what x) :=
  Blind.on_part h (fun _ _ hw => hw.tree) fun _ _ _ _ hw ht => ⟨ht, hw.net⟩

/-- A call on the files that succeeded did so on the tree. -/
theorem exec_onFiles_eq_ok {α : Type} {what : String} {x : FilesM α} {a : α} {v : AppWorld N}
    (h : exec (onFiles host what x) w = (.ok a, v)) :
    ∃ u, exec x w.tree = (.ok a, u) ∧ v = { w with tree := u } := by
  rw [exec_onFiles] at h
  rcases hrun : exec x w.tree with ⟨e | b, u⟩ <;> rw [hrun] at h
  · exact nomatch congrArg Prod.fst h
  · cases h
    exact ⟨u, rfl, rfl⟩

/-- A file is read as the tree has it. -/
theorem exec_readFile {what : String} : exec (onFiles host what (read host.refuses target)) w =
    ((readAt host.refuses w.tree target).mapError fun e => what ++ ": " ++ host.describe e, w) := by
  rw [exec_onFiles, exec_read]

/-! ## What a call needs -/

/-- Directories can be made alike. -/
theorem Makeable.of_versions {t t' : Tree} {path : Path} (hm : Makeable host.refuses t path)
    (h : Versions V t t') : Makeable host.refuses t' path := fun q hq =>
  (hm q hq).imp h.directory_iff.1 fun hnone => ⟨h.none_iff.1 hnone.1, hnone.2⟩

/-- A write gets as far. -/
theorem OpensWrite.of_apart (hV : PlainVersions V) (h : Apart V w w')
    (ho : OpensWrite host.refuses w.tree id relative bytes target) :
    OpensWrite host.refuses w'.tree id relative bytes target := by
  refine ⟨ho.small, ho.leads, ho.directories.of_versions h.tree, ?_, ho.accepted,
    fun hdir => ho.free (h.tree.directory_iff.2 hdir)⟩
  refine ho.kept.imp_right fun hkept => ?_
  refine ⟨hkept.1, fun hdir => hkept.2.1 (h.tree.directory_iff.2 hdir), fun previous hprevious => ?_⟩
  rcases h.tree.at_cases target with heq | ⟨v, v', hv, hat, hat'⟩
  · exact hkept.2.2 previous (heq.trans hprevious)
  · cases hat'.symm.trans hprevious
    exact hV.length_eq _ _ _ hv ▸ hkept.2.2 v hat

/-- A staged file is committed to the same target. -/
theorem CommitsDownload.of_apart {hash staged : Bytes} (hV : PlainVersions V) (h : Apart V w w')
    (hc : CommitsDownload host.refuses w.tree id relative hash target staged) :
    CommitsDownload host.refuses w'.tree id relative hash target staged :=
  ⟨hc.leads, hc.staging.of_versions h.tree, hc.readable,
    (h.tree.at_eq (hV.stage id)).symm.trans hc.found, hc.hash, hc.directories.of_versions h.tree,
    hc.accepted, fun hdir => hc.free (h.tree.directory_iff.2 hdir), hc.elsewhere⟩

/-- A download is staged over the same file, or over a version of it. -/
theorem StagesDownload.of_apart {url : String} {previous : Bytes} {result : HttpsResult}
    (hV : PlainVersions V) (h : Apart V w w')
    (hs : StagesDownload host w id url relative target previous result) :
    ∃ previous', StagesDownload host w' id url relative target previous' result := by
  have hstaged (previous' : Bytes) (hread : readAt host.refuses w'.tree target = .ok previous')
      (hkept : previous'.length ≤ maxPlatformTextBytes) :
      StagesDownload host w' id url relative target previous' result :=
    ⟨h.net ▸ hs.fetched, hs.small, hs.leads, hread, hkept, hs.staging.of_versions h.tree,
      hs.accepted, fun hdir => hs.free (h.tree.directory_iff.2 hdir), hs.short⟩
  rcases h.tree.readAt_cases host.refuses target with heq | ⟨v, v', hv, -, -, hread, hread'⟩
  · exact ⟨previous, hstaged previous (heq ▸ hs.read) hs.kept⟩
  · cases hread.symm.trans hs.read
    exact ⟨v', hstaged v' hread' (hV.length_eq _ _ _ hv ▸ hs.kept)⟩

/-! ## App-private files -/

/-- **A file is read alike** if its text, which the answer tells, is the same. -/
theorem agrees_readText (hV : PlainVersions V) (h : Apart V w w')
    (hsame : ∀ target bytes, NTD97.scopedPath relative = .ok target →
      readAt host.refuses w.tree target = .ok bytes → bytes.length ≤ maxPlatformTextBytes →
        w.tree.at target = w'.tree.at target) :
    Agrees (Apart V) (exec (readText host relative)) w w' := by
  unfold readText
  rcases hleads : NTD97.scopedPath relative with e | target
  · exact ⟨rfl, h⟩
  refine Agrees.of_eq (exec_check_ok_bind ..) (exec_check_ok_bind ..) ?_
  have hequal (heq : readAt host.refuses w.tree target = readAt host.refuses w'.tree target) :
      Agrees (Apart V) (exec (do
        let bytes ← onFiles host "read app-private file" (read host.refuses target)
        refuse (maxPlatformTextBytes < bytes.length) "app-private file exceeds native evidence limit"
        okOr (ofUtf8 bytes) "app-private file is not UTF-8 text" : AppM N String)) w w' := by
    refine Agrees.bind ?_ fun bytes u u' _ _ hu =>
      (Blind.refuse_bind fun _ => .option fun _ _ => trivial :
        Oblivious V (_ : AppM N String)).agrees hu
    rw [Agrees, exec_readFile, exec_readFile, heq]
    exact ⟨rfl, h⟩
  rcases h.tree.readAt_cases host.refuses target with heq | ⟨v, v', hv, hat, hat', hread, hread'⟩
  · exact hequal heq
  · by_cases hsmall : v.length ≤ maxPlatformTextBytes
    · have hentry := hsame target v hleads hread hsmall
      rw [hat, hat'] at hentry
      cases hentry
      exact hequal (hread.trans hread'.symm)
    · have hlarge := not_le.1 hsmall
      rw [Agrees, exec_bind_ok (exec_readFile.trans (by rw [hread]; rfl)),
        exec_refuse_of_pos hlarge, exec_bind_ok (exec_readFile.trans (by rw [hread']; rfl)),
        exec_refuse_of_pos (hV.length_eq _ _ _ hv ▸ hlarge)]
      exact ⟨rfl, h⟩

/-- What a write does behind its snapshot. -/
def finishWrite (host : Host N) (id : ActionId) (target : Path) (bytes token : Bytes) :
    AppM N Bytes := do
  onFiles host "create app-private temp file"
    (write host.refuses (Stepwise.tempOf id target) bytes)
  onFiles host "commit app-private file"
    (rename host.refuses (Stepwise.tempOf id target) target)
  return token

/-- The temporary file of a target with a name. -/
theorem exec_finishWrite (hne : target ≠ []) : exec (do
      let fileName ← okOr target.getLast? "invalid app-private file name"
      let temp := target.dropLast ++ ["." ++ fileName ++ ".ntd97-" ++ toString id.val]
      onFiles host "create app-private temp file" (write host.refuses temp bytes)
      onFiles host "commit app-private file" (rename host.refuses temp target)
      return token : AppM N Bytes) w = exec (finishWrite host id target bytes token) w := by
  have htemp : target.dropLast ++ ["." ++ target.getLast hne ++ ".ntd97-" ++ toString id.val] =
      Stepwise.tempOf id target := by
    rw [Stepwise.tempOf, List.getLast?_eq_some_getLast hne]
    rfl
  rw [List.getLast?_eq_some_getLast hne, exec_okOr_some_bind, htemp]
  rfl

theorem oblivious_finishWrite (hV : PlainVersions V) (token : Bytes) :
    Oblivious V (finishWrite host id target bytes token) :=
  Blind.bind (oblivious_onFiles (unversed_write bytes)) fun _ _ =>
    Blind.bind (oblivious_onFiles (unversed_rename (hV.temp _ _))) fun _ _ => .ret trivial

/-- A write whose temporary file cannot be opened does not tell its token. -/
theorem exec_finishWrite_of_not_free (h : ¬ Free host.refuses w.tree (Stepwise.tempOf id target))
    (token token' : Bytes) : exec (finishWrite host id target bytes token) w =
      exec (finishWrite host id target bytes token') w := by
  obtain ⟨e, he⟩ := exec_write_of_not_free bytes h
  rw [finishWrite, finishWrite, exec_bind_error (exec_onFiles_error he),
    exec_bind_error (exec_onFiles_error he)]

/-- A snapshot of a file that is not too large. -/
theorem exec_rollbackSnapshot_ok {limit overflow what : String} {previous : Bytes}
    (hread : readAt host.refuses w.tree target = .ok previous)
    (hlimit : ¬ maxPlatformTextBytes < previous.length) :
    exec (rollbackSnapshot host target limit overflow what) w =
      (.ok (1 :: leBytes 4 previous.length ++ previous), w) := by
  rw [exec_rollbackSnapshot, hread, rollbackToken_ok, if_neg hlimit]

/-- A snapshot of a file that is too large. -/
theorem exec_rollbackSnapshot_error {limit overflow what : String} {previous : Bytes}
    (hread : readAt host.refuses w.tree target = .ok previous)
    (hlimit : maxPlatformTextBytes < previous.length) :
    exec (rollbackSnapshot host target limit overflow what) w = (.error limit, w) := by
  rw [exec_rollbackSnapshot, hread, rollbackToken_ok, if_pos hlimit]

/-- **Two snapshots of versions of a file**, and what is done with their tokens: it must agree on
one token, and if there are two. -/
theorem agrees_rollbackSnapshot_bind {α : Type} {limit overflow what : String}
    {f : Bytes → AppM N α} (hV : PlainVersions V) (h : Apart V w w') (hf : ∀ token, Oblivious V (f token))
    (htwo : ∀ v v', w.tree.at target = some (.file v) → w'.tree.at target = some (.file v') →
      readAt host.refuses w.tree target = .ok v → v.length ≤ maxPlatformTextBytes →
        v'.length ≤ maxPlatformTextBytes → v ≠ v' →
          exec (f (1 :: leBytes 4 v.length ++ v)) w = exec (f (1 :: leBytes 4 v'.length ++ v')) w) :
    Agrees (Apart V) (exec (rollbackSnapshot host target limit overflow what >>= f)) w w' := by
  rcases h.tree.readAt_cases host.refuses target with heq | ⟨v, v', hv, hat, hat', hread, hread'⟩
  · refine Agrees.bind ?_ fun token u u' _ _ hu => (hf token).agrees hu
    rw [Agrees, exec_rollbackSnapshot, exec_rollbackSnapshot, heq]
    exact ⟨rfl, h⟩
  · have hlength := hV.length_eq _ _ _ hv
    by_cases hlimit : maxPlatformTextBytes < v.length
    · rw [Agrees, exec_bind_error (exec_rollbackSnapshot_error hread hlimit),
        exec_bind_error (exec_rollbackSnapshot_error hread' (hlength ▸ hlimit))]
      exact ⟨rfl, h⟩
    · rw [Agrees, exec_bind_ok (exec_rollbackSnapshot_ok hread hlimit),
        exec_bind_ok (exec_rollbackSnapshot_ok hread' (hlength ▸ hlimit))]
      by_cases heq : v = v'
      · rw [heq]
        exact (hf _).agrees h
      · rw [htwo v v' hat hat' hread (not_lt.1 hlimit) (hlength ▸ not_lt.1 hlimit) heq]
        exact (hf _).agrees h

/-- **A file is written alike** if what is replaced, which the token tells, is the same. -/
theorem agrees_writeAtomic (hV : PlainVersions V) (h : Apart V w w')
    (hsame : ∀ target, OpensWrite host.refuses w.tree id relative bytes target →
      host.refuses target = none → w.tree.at target = w'.tree.at target) :
    Agrees (Apart V) (exec (writeAtomic host id relative bytes)) w w' := by
  unfold writeAtomic
  by_cases hsmall : maxPlatformTextBytes < bytes.length
  · rw [Agrees, exec_refuse_of_pos hsmall, exec_refuse_of_pos hsmall]
    exact ⟨rfl, h⟩
  refine Agrees.of_eq (exec_refuse_of_neg hsmall _ _ _) (exec_refuse_of_neg hsmall _ _ _) ?_
  rcases hleads : NTD97.scopedPath relative with e | target
  · exact ⟨rfl, h⟩
  refine Agrees.of_eq (exec_check_ok_bind ..) (exec_check_ok_bind ..) ?_
  dsimp only
  have hne := Stepwise.scopedPath_ne_nil hleads
  refine ((oblivious_onFiles unversed_createDirAll).agrees h).bind fun _ v v' hmade hmade' hv => ?_
  obtain ⟨u, hu, rfl⟩ := exec_onFiles_eq_ok hmade
  obtain ⟨u', hu', rfl⟩ := exec_onFiles_eq_ok hmade'
  obtain ⟨-, hat⟩ := exec_createDirAll_above hu hne rfl
  obtain ⟨-, hat'⟩ := exec_createDirAll_above hu' hne rfl
  obtain ⟨-, htemp⟩ := exec_createDirAll_above hu tempOf_ne_nil (dropLast_tempOf id _)
  refine agrees_rollbackSnapshot_bind hV hv (fun token => ?_) fun b b' hb hb' hread hkept _ hne' => ?_
  · refine Blind.of_agrees fun x x' hx => Agrees.of_eq (exec_finishWrite hne)
      (exec_finishWrite hne) ((oblivious_finishWrite hV token).agrees hx)
  · rw [exec_finishWrite hne, exec_finishWrite hne]
    refine exec_finishWrite_of_not_free (fun hfree => hne' ?_) _ _
    have haccepted := (reach_eq_ok.1 (readAt_eq_ok.1 hread)).1
    have hfound : w.tree.at target = some (.file b) := hat ▸ hb
    have hopens : OpensWrite host.refuses w.tree id relative bytes target :=
      ⟨not_lt.1 hsmall, hleads, exec_createDirAll_iff.1 ⟨u, hu⟩,
        .inr ⟨haccepted, by simp [hfound], fun old hold => by
          cases hfound.symm.trans hold
          exact hkept⟩, hfree.accepted, htemp ▸ hfree.free⟩
    have hentry := hsame target hopens haccepted
    exact Entry.file.inj (Option.some.inj (hfound.symm.trans (hentry.trans (hat' ▸ hb'))))

/-- What is undone is undone alike, whatever a file holds by then. -/
theorem oblivious_rollbackWrite : Oblivious V (rollbackWrite host relative token) := by
  refine Blind.bind (Q := fun _ => True) (.checked fun _ _ => trivial) fun target _ => ?_
  split
  · refine Blind.refuse_bind fun _ => Blind.read_bind (fun w w' hw => ?_) fun w _ _ => ?_
    · rcases hw.tree.readAt_cases host.refuses target with heq | ⟨v, v', -, -, -, hread, hread'⟩
      · rw [heq]
      · rw [hread, hread']
    · split
      · exact .ret trivial
      · exact oblivious_onFiles unversed_removeFile
  · refine Blind.refuse_bind fun _ => Blind.refuse_bind fun _ => ?_
    refine Blind.bind (oblivious_onFiles unversed_createDirAll) fun _ _ => ?_
    exact oblivious_onFiles (unversed_write _)
  · exact .raise _

/-! ## Downloads -/

theorem oblivious_androidHttpsFetch {url : String} : Oblivious V (androidHttpsFetch host url) := by
  refine Blind.of_agrees fun v v' hv => ?_
  rw [Agrees, exec_androidHttpsFetch, exec_androidHttpsFetch, ← hv.net]
  exact ⟨rfl, hv.tree, rfl⟩

theorem oblivious_stagePath : Blind (Apart V) (Apart V) (stagePath host id) fun stage =>
    stage = Stepwise.stageOf id :=
  Blind.bind (oblivious_onFiles unversed_createDirAll) fun _ _ => .ret rfl

theorem oblivious_writeStaging {body : Bytes} : Oblivious V (writeStaging host id body) :=
  Blind.refuse_bind fun _ => Blind.bind oblivious_stagePath fun _ _ =>
    oblivious_onFiles (unversed_write body)

/-- What it takes to stage a body. -/
theorem exec_writeStaging_eq_ok {body : Bytes} {v : AppWorld N}
    (h : exec (writeStaging host id body) w = (.ok (), v)) :
    Makeable host.refuses w.tree Stepwise.staging ∧ host.refuses (Stepwise.stageOf id) = none ∧
      w.tree.at (Stepwise.stageOf id) ≠ some .directory := by
  unfold writeStaging at h
  by_cases hsmall : maxPlatformTextBytes < body.length
  · rw [exec_refuse_of_pos hsmall] at h
    exact nomatch congrArg Prod.fst h
  rw [exec_refuse_of_neg hsmall] at h
  rcases hmade : exec (createDirAll host.refuses Stepwise.staging) w.tree with ⟨e | ⟨⟨⟩⟩, u⟩
  · obtain ⟨e', he⟩ := exec_stagePath_error id hmade
    rw [exec_bind_error he] at h
    exact nomatch congrArg Prod.fst h
  rw [exec_bind_ok (exec_stagePath_ok hmade)] at h
  have hfree : Free host.refuses u (Stepwise.stageOf id) := by
    by_contra hno
    obtain ⟨e, he⟩ := exec_write_of_not_free body hno
    rw [exec_onFiles_error he] at h
    exact nomatch congrArg Prod.fst h
  refine ⟨exec_createDirAll_iff.1 ⟨u, hmade⟩, hfree.accepted, ?_⟩
  rw [← (exec_createDirAll_staging hmade).2 _ (stageOf_ne_staging _)]
  exact hfree.free

/-- **A download is staged alike** if the file it will replace, which the token tells, is the
same. -/
theorem agrees_executeArtifactDownload {url : String} (hV : PlainVersions V) (h : Apart V w w')
    (hsame : ∀ target previous result,
      StagesDownload host w id url relative target previous result →
      w.tree.at target = w'.tree.at target) :
    Agrees (Apart V) (exec (executeArtifactDownload host id (.artifactDownload url relative)))
      w w' := by
  unfold executeArtifactDownload
  dsimp only
  refine (oblivious_androidHttpsFetch.agrees h).bind fun result v v' hfetch hfetch' hv => ?_
  rw [exec_androidHttpsFetch] at hfetch hfetch'
  obtain ⟨hfetched, rfl⟩ := Prod.mk.inj hfetch
  obtain ⟨-, rfl⟩ := Prod.mk.inj hfetch'
  by_cases hsmall : maxPlatformTextBytes < result.body.length
  · rw [Agrees, exec_refuse_of_pos hsmall, exec_refuse_of_pos hsmall]
    exact ⟨rfl, hv⟩
  refine Agrees.of_eq (exec_refuse_of_neg hsmall _ _ _) (exec_refuse_of_neg hsmall _ _ _) ?_
  rcases hleads : NTD97.scopedPath relative with e | target
  · exact ⟨rfl, hv⟩
  refine Agrees.of_eq (exec_check_ok_bind ..) (exec_check_ok_bind ..) ?_
  refine agrees_rollbackSnapshot_bind hV hv (fun token => ?_) fun b b' hb hb' hread hkept hkept' hne => ?_
  · exact Blind.bind oblivious_writeStaging fun _ _ =>
      Blind.bind (.checked fun _ _ => trivial) fun _ _ => .ret trivial
  · rw [exec_bind, exec_bind]
    rcases hstaged : exec (writeStaging host id result.body)
      { w with net := (host.httpsFetch url w.net).2 } with ⟨e | ⟨⟨⟩⟩, x⟩
    · rfl
    obtain ⟨hstaging, haccepted, hfree⟩ := exec_writeStaging_eq_ok hstaged
    have hlong : 2 ^ 32 ≤ (utf8 result.finalUrl).length := by
      by_contra hshort
      have hstages : StagesDownload host w id url relative target b result :=
        ⟨hfetched, not_lt.1 hsmall, hleads, hread, hkept, hstaging, haccepted, hfree,
          not_le.1 hshort⟩
      have hentry := hsame target b result hstages
      exact hne (Entry.file.inj (Option.some.inj (hb.symm.trans (hentry.trans hb'))))
    dsimp only
    rw [encodeArtifactResumeToken_of_long _ (length_rollbackToken_lt hkept) hlong,
      encodeArtifactResumeToken_of_long _ (length_rollbackToken_lt hkept') hlong]

theorem oblivious_commitStaging (hV : PlainVersions V) {hash : Bytes} :
    Oblivious V (commitStaging host id relative hash) := by
  refine Blind.bind oblivious_stagePath fun stage hstage => ?_
  rw [hstage]
  refine Blind.bind (oblivious_onFiles (unversed_read (hV.stage id))) fun bytes _ => ?_
  refine Blind.refuse_bind fun _ => Blind.bind (Q := fun _ => True) (.checked fun _ _ => trivial)
    fun target _ => ?_
  refine Blind.bind (oblivious_onFiles unversed_createDirAll) fun _ _ => ?_
  exact Blind.bind (oblivious_onFiles (unversed_rename (hV.stage id))) fun _ _ => .ret trivial

/-- **A download is committed alike**, whatever it replaces. -/
theorem oblivious_resumeArtifactDownload (hV : PlainVersions V) {action : TypedAction} :
    Oblivious V (resumeArtifactDownload host id action token) := by
  cases action with
  | artifactDownload url relative =>
    refine Blind.bind (Q := fun _ => True) (.checked fun _ _ => trivial) fun decoded _ => ?_
    exact Blind.bind (oblivious_commitStaging hV) fun _ _ => .ret trivial
  | _ => exact .raise _

end Adapters

end NTD97
