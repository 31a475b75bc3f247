import Mathlib
import NTD97.Lib.Owners
import NTD97.PcPairs

/-!
# PcPairs/Provision — calls for pairing profiles that take turns

    nothing ──create_new──▸ its file ──write, sync, load──▸ receipt, and the file stays
                               └───────── remove ─────────▸ error, and no file

A provision owns the file of its peer from its `create_new` on (`Owns`).  A `create_new` that fails
breaks this: the provision then removes a file that is not its own.
-/

namespace NTD97

open Guard Text Wire Files Steps

namespace PcPairs

/-- **A turn that does no harm**: no `create_new` fails, and the host lets a profile be removed. -/
def Unfailed (t : Tree) (event : Called Reply) : Prop :=
  (∀ path e, event ≠ ⟨.createNew path, .error e⟩) ∧
    ∀ path e bytes, event = ⟨.remove path, .error e⟩ → t.at path ≠ some (.file bytes)

section Keeps

variable {refuses : Path → Option IoError} {describe : IoError → String} {path : Path}
  {own : Option Bytes} {α β : Type}

/-- **A program that keeps to the file at a path.** -/
abbrev Keeps (refuses : Path → Option IoError) (path : Path)
    (Q : Except String α → Option Bytes → Prop) (own : Option Bytes) (p : FileProg String α) :
    Prop :=
  Owns refuses (DoesFile refuses) Unfailed path Q own p

/-- A call that makes directories at most. -/
theorem keeps_ask {what : String} {c : FileCall} {Q : Except String c.Answer → Option Bytes → Prop}
    (hc : ∀ path bytes, c ≠ .append path bytes)
    (hmore : ∀ t a u, answer refuses c t = (.ok a, u) → MoreDirs (fun _ => True) t u)
    (herror : ∀ e, Q (.error e) own)
    (hok : ∀ t a u, Fits refuses path own t → answer refuses c t = (.ok a, u) → Q (.ok a) own) :
    Keeps refuses path Q own (ask describe what c) := by
  intro t r t' hfits hdoes _
  have hdirs : MoreDirs (fun _ => True) t t' := by
    cases r with
    | error e =>
      rw [doesFile_error hc hdoes]
      exact .refl t
    | ok a => exact hmore t a t' (doesFile_ok hdoes)
  refine ⟨own, .quiet hdirs, ?_, ?_⟩
  · cases own with
    | none => exact trivial
    | some bytes => exact hdirs.reach_some hfits
  · cases r with
    | error e => exact herror _
    | ok a => exact hok t a t' hfits (doesFile_ok hdoes)

/-- A call that only looks. -/
theorem keeps_look {what : String} {c : FileCall} {Q : Except String c.Answer → Option Bytes → Prop}
    (hc : ∀ path bytes, c ≠ .append path bytes) (hquiet : ∀ t, (answer refuses c t).2 = t)
    (herror : ∀ e, Q (.error e) own)
    (hok : ∀ t a, Fits refuses path own t → (answer refuses c t).1 = .ok a → Q (.ok a) own) :
    Keeps refuses path Q own (ask describe what c) := by
  refine keeps_ask hc (fun t a u h => ?_) herror fun t a u hfits h =>
    hok t a hfits (congrArg Prod.fst h)
  obtain rfl : t = u := (hquiet t).symm.trans (congrArg Prod.snd h)
  exact .refl t

theorem keeps_refuse {c : Prop} [Decidable c] {e : String}
    {Q : Except String Unit → Option Bytes → Prop} (herror : ∀ e, Q (.error e) own)
    (hok : ¬ c → Q (.ok ()) own) : Keeps refuses path Q own (refuse c e) := by
  unfold Guard.refuse
  split
  · exact herror _
  · next hc => exact hok hc

theorem keeps_check {r : Except String α} {Q : Except String α → Option Bytes → Prop}
    (h : Q r own) : Keeps refuses path Q own (Prog.check r) := h

theorem keeps_attempt {Q : Except String (Except String α) → Option Bytes → Prop} :
    ∀ {p : FileProg String α} {own : Option Bytes},
      Keeps refuses path (fun r own => Q (.ok r) own) own p → Keeps refuses path Q own p.attempt
  | .ret _, _, h => h
  | .call _ _, _, h => fun t r t' hfits hdoes hcondition => by
      obtain ⟨own', htakes, hfits', hrest⟩ := h t r t' hfits hdoes hcondition
      exact ⟨own', htakes, hfits', keeps_attempt hrest⟩

/-- One call after another, over a list. -/
theorem keeps_forM {γ : Type} {f : γ → FileProg String PUnit}
    {Q : Except String PUnit → Option Bytes → Prop} (herror : ∀ e, Q (.error e) own)
    (hok : Q (.ok ⟨⟩) own) : ∀ {l : List γ},
    (∀ x ∈ l, ∀ Q' : Except String PUnit → Option Bytes → Prop, (∀ e, Q' (.error e) own) →
      Q' (.ok ⟨⟩) own → Keeps refuses path Q' own (f x)) → Keeps refuses path Q own (l.forM f)
  | [], _ => hok
  | x :: _, h => Owns.bind (h x List.mem_cons_self _ herror (keeps_forM herror hok fun y hy =>
      h y (List.mem_cons_of_mem x hy)))

theorem answer_canonicalize {directory : Path} {t : Tree} {a : Path}
    (h : (answer refuses (.canonicalize directory) t).1 = .ok a) :
    a = directory ∧ refuses directory = none := by
  change Except.map _ (reach refuses t directory >>= kindOf) = _ at h
  rcases hreach : reach refuses t directory with e | there
  · rw [hreach] at h
    cases h
  · rw [hreach] at h
    refine ⟨?_, (reach_eq_ok.1 hreach).1⟩
    change Except.map _ (kindOf there) = _ at h
    rcases hkind : kindOf there with e | kind
    · rw [hkind] at h
      cases h
    · rw [hkind] at h
      exact (Except.ok.inj h).symm

theorem keeps_canonicalize {what : String} {directory : Path}
    {Q : Except String Path → Option Bytes → Prop} (herror : ∀ e, Q (.error e) own)
    (hok : refuses directory = none → Q (.ok directory) own) :
    Keeps refuses path Q own (ask describe what (.canonicalize directory)) := by
  refine keeps_look (fun _ _ h => by cases h) (fun _ => rfl) herror fun t (a : Path) _ ha => ?_
  obtain ⟨rfl, hrefuses⟩ := answer_canonicalize ha
  exact hok hrefuses

theorem keeps_makeDir {what : String} {target directory : Path}
    {Q : Except String Unit → Option Bytes → Prop} (herror : ∀ e, Q (.error e) own)
    (hok : Q (.ok ()) own) :
    Keeps refuses path Q own (ask describe what (.makeDir target directory)) :=
  keeps_ask (fun _ _ h => by cases h) (fun _ _ _ h => (answer_makeDir_ok (fun _ => trivial) h).2)
    herror fun _ _ _ _ _ => hok

/-! ## The directory -/

variable {root : Path}

theorem keeps_ensurePcPairs {pairs : Path} {Q : Except String Unit → Option Bytes → Prop}
    (herror : ∀ e, Q (.error e) own) (hok : Q (.ok ()) own) :
    Keeps refuses path Q own (ensurePcPairs describe pairs) := by
  intro t r t' hfits hdoes _
  obtain rfl := doesFile_quiet rfl (fun _ _ h => by cases h) hdoes
  refine ⟨own, .quiet (.refl _), hfits, ?_⟩
  have hcreate : Keeps refuses path Q own
      (ask describe "create paired-PC profile directory" (.createDir pairs)) := by
    refine keeps_ask (fun _ _ h => by cases h) (fun t a u h => ?_) herror fun _ _ _ _ _ => hok
    obtain ⟨hreach, rfl⟩ := exec_putNew_ok h
    have hnone := (reach_eq_ok.1 hreach).2.2
    exact moreDirs_update (ne_nil_of_at (by rw [hnone]; simp)) trivial hnone
  rcases r with e | (kind : Kind)
  · cases e with
    | notFound => exact hcreate
    | _ => exact herror _
  · cases kind with
    | directory => exact hok
    | _ => exact herror _

theorem keeps_onlyIf {create : Bool} {p : FileProg String Unit}
    {Q : Except String Unit → Option Bytes → Prop} (h : Keeps refuses path Q own p)
    (hok : Q (.ok ()) own) : Keeps refuses path Q own (onlyIf create p) := by
  cases create with
  | false => exact hok
  | true => exact h

theorem keeps_canonicalPcPairDirectory {create : Bool} {Q : Except String Path → Option Bytes → Prop}
    (herror : ∀ e, Q (.error e) own) (hok : Q (.ok (pcPairs root)) own) :
    Keeps refuses path Q own (canonicalPcPairDirectory describe root create) := by
  have hpairs (root' : Path) (hroot : root' = root) : Keeps refuses path Q own (do
      let pairs : Path ← ask describe "paired-PC profile directory is unavailable"
        (.canonicalize (pcPairs root'))
      refuse (¬ root' <+: pairs) "paired-PC profile directory escaped capability root"
      return pairs) := by
    subst hroot
    exact Owns.bind (keeps_canonicalize herror fun _ => Owns.bind (keeps_refuse herror fun _ => hok))
  have hrest : Keeps refuses path Q own (do
      let root : Path ← ask describe "canonicalize paired-PC capability root" (.canonicalize root)
      onlyIf create (ensurePcPairs describe (pcPairs root))
      let pairs : Path ← ask describe "paired-PC profile directory is unavailable"
        (.canonicalize (pcPairs root))
      refuse (¬ root <+: pairs) "paired-PC profile directory escaped capability root"
      return pairs) :=
    Owns.bind (keeps_canonicalize herror fun _ => Owns.bind (keeps_onlyIf
      (keeps_ensurePcPairs herror (hpairs root rfl)) (hpairs root rfl)))
  exact Owns.bind (keeps_onlyIf (keeps_forM herror hrest fun _ _ _ herror hok =>
    keeps_makeDir herror hok) hrest)

/-! ## Loading -/

section Load

variable {A : Type} {addresses : SocketAddrs A} {primitives : Primitives}
  {debug : PcFabricError → String} {display : Path → String} {peer : String}

/-- **A file is loaded as a profile**, whatever else happens between the calls. -/
def Loads (addresses : SocketAddrs A) (primitives : Primitives) (describe : IoError → String)
    (debug : PcFabricError → String) (refuses : Path → Option IoError) (root : Path) (peer : String)
    (bytes : Bytes) (profile : PcPairProfile A) : Prop :=
  Returns (answer refuses)
    (fun t => reach refuses t (pcPairFile root peer) = .ok (some (.file bytes))) (.ok profile)
    (loadPcPairProfile addresses primitives describe debug root peer)

theorem loads_of_decode {bytes : Bytes} {profile : PcPairProfile A}
    (halias : validPcPeerAlias peer = true) (hroot : refuses root = none)
    (hpairs : refuses (pcPairs root) = none) (hlength : bytes.length ≤ 4096)
    (hdecode : decodePcPairProfile addresses primitives debug peer bytes = .ok profile) :
    Loads addresses primitives describe debug refuses root peer bytes profile := by
  have hpairs' : pcPairs root <+: pcPairFile root peer := List.prefix_append _ _
  have hroot' : root <+: pcPairs root := List.prefix_append _ _
  have hne : pcPairs root ≠ pcPairFile root peer := by simp [pcPairFile]
  have hne' : root ≠ pcPairFile root peer := by simp [pcPairFile, pcPairs]
  refine Returns.bind ?_ (returns_refuse (not_not.2 halias))
  refine Returns.bind ?_ (returns_ask fun t hreach => congrArg Prod.fst
    (answer_canonicalize_there (reach_of_isPrefix hreach (hroot'.trans hpairs') hne' hroot)))
  refine Returns.bind ?_ (returns_ask fun t hreach => congrArg Prod.fst
    (answer_canonicalize_there (reach_of_isPrefix hreach hpairs' hne hpairs)))
  refine Returns.bind ?_ (returns_refuse (not_not.2 hroot'))
  refine Returns.bind ?_ (returns_ask fun t hreach => congrArg Prod.fst (answer_metadata_file hreach))
  refine Returns.bind ?_ (returns_refuse (not_not.2 (decide_eq_true hlength)))
  refine Returns.bind ?_ (returns_ask fun t hreach => congrArg Prod.fst
    (answer_canonicalize_there hreach))
  refine Returns.bind ?_ (returns_refuse (not_not.2 hpairs'))
  refine Returns.bind ?_ (returns_ask fun t hreach => congrArg Prod.fst (answer_read_file hreach))
  exact hdecode

/-- **What an owner loads, it loads again.** -/
theorem keeps_load {Q : Except String (PcPairProfile A) → Option Bytes → Prop}
    (herror : ∀ e, Q (.error e) own)
    (hok : ∀ profile, (∀ bytes, own = some bytes → path = pcPairFile root peer →
      Loads addresses primitives describe debug refuses root peer bytes profile) →
      Q (.ok profile) own) :
    Keeps refuses path Q own
      (loadPcPairProfile addresses primitives describe debug root peer) := by
  refine Owns.bind (keeps_refuse herror fun halias => ?_)
  refine Owns.bind (keeps_canonicalize herror fun hroot => ?_)
  refine Owns.bind (keeps_canonicalize herror fun hpairs => ?_)
  refine Owns.bind (keeps_refuse herror fun hescaped => ?_)
  refine Owns.bind (keeps_look (fun _ _ h => by cases h) (fun _ => rfl) herror
    fun t (kind : Kind) hfits hkind => ?_)
  refine Owns.bind (keeps_refuse herror fun hbounded => ?_)
  refine Owns.bind (keeps_canonicalize herror fun hfile => ?_)
  refine Owns.bind (keeps_refuse herror fun hescaped' => ?_)
  refine Owns.bind (keeps_look (fun _ _ h => by cases h) (fun _ => rfl) herror
    fun t' (bytes : Bytes) hfits' hbytes => ?_)
  change Q (decodePcPairProfile addresses primitives debug peer bytes) own
  rcases hdecode : decodePcPairProfile addresses primitives debug peer bytes with e | profile
  · exact herror e
  · refine hok profile fun owned hown hpath => ?_
    subst hown hpath
    have hsame := congrArg Prod.fst (answer_read_file hfits')
    obtain rfl : owned = bytes := Except.ok.inj (hsame.symm.trans hbytes)
    have hfile' := congrArg Prod.fst (answer_metadata_file hfits)
    obtain rfl : Kind.file owned.length = kind := Except.ok.inj (hfile'.symm.trans hkind)
    have hlength := of_decide_eq_true (not_not.1 hbounded)
    exact loads_of_decode (not_not.1 halias) hroot hpairs hlength hdecode

theorem keeps_load_any {Q : Except String (PcPairProfile A) → Option Bytes → Prop}
    (h : ∀ r, Q r own) : Keeps refuses path Q own
      (loadPcPairProfile addresses primitives describe debug root peer) :=
  keeps_load (fun e => h (.error e)) fun profile _ => h (.ok profile)

theorem keeps_listEntry {peers : List String} {entry : Except IoError (Option String)}
    {Q : Except String (List String) → Option Bytes → Prop} (h : ∀ r, Q r own) :
    Keeps refuses path Q own
      (listPcPairEntry addresses primitives describe debug root peers entry) := by
  refine Owns.bind (keeps_check ?_)
  rcases entry with e | name
  · exact h _
  · change Keeps refuses path Q own (listPcPairName addresses primitives describe debug root peers
      (name.bind (stripSuffix ".pcp97")))
    rcases name.bind (stripSuffix ".pcp97") with _ | peer
    · exact h _
    · rw [listPcPairName]
      split
      · exact Owns.bind (keeps_attempt (keeps_load_any fun r => h _))
      · exact h _

/-- **A listing leaves everything as it is.** -/
theorem keeps_list {listing : Except IoError (List (Except IoError (Option String)))}
    {Q : Except String (List String) → Option Bytes → Prop} (h : ∀ r, Q r own) :
    Keeps refuses path Q own
      (listPcPairProfiles addresses primitives describe debug root listing) := by
  have hfold : ∀ (entries : List (Except IoError (Option String))) (peers : List String)
      (Q : Except String (List String) → Option Bytes → Prop), (∀ r, Q r own) →
      Keeps refuses path Q own
        (entries.foldlM (listPcPairEntry addresses primitives describe debug root) peers) := by
    intro entries
    induction entries with
    | nil => exact fun _ _ h => h _
    | cons entry entries ih =>
      intro peers Q h
      refine Owns.bind (keeps_listEntry fun r => ?_)
      rcases r with e | peers
      · exact h _
      · exact ih peers Q h
  have hdirectory : Keeps refuses path Q own
      (listPcPairDirectory addresses primitives describe debug root listing) := by
    refine Owns.bind (keeps_canonicalPcPairDirectory (fun e => h _) (Owns.bind (keeps_check ?_)))
    rcases listing with e | entries
    · exact h _
    · refine Owns.bind (hfold entries [] _ fun r => ?_)
      rcases r with e | peers
      · exact h _
      · exact h _
  have hstat (directory : Path) {p : FileProg String (List String)} (hp : Keeps refuses path Q own p) :
      Keeps refuses path Q own (whereThere directory p) := by
    intro t r t' hfits hdoes _
    obtain rfl := doesFile_quiet rfl (fun _ _ h => by cases h) hdoes
    refine ⟨own, .quiet (.refl _), hfits, ?_⟩
    rcases r with e | a
    · exact h _
    · exact hp
  exact hstat root (hstat (pcPairs root) hdirectory)

end Load

/-! ## Provisioning -/

section Provision

variable {A : Type} [DecidableEq A] {addresses : SocketAddrs A} {primitives : Primitives}
  {debug : PcFabricError → String} {display : Path → String} {peer : String}

/-- An owner that rolls back owns nothing any more. -/
theorem keeps_rolledBack {error : String} {pairs : Path} {bytes : Bytes}
    {Q : Except String α → Option Bytes → Prop} (herror : ∀ e, Q (.error e) none) :
    Keeps refuses path Q (some bytes) (rolledBack describe display error pairs path) := by
  refine Owns.bind (keeps_attempt ?_)
  intro t r t' hfits hdoes hcondition
  rcases r with e | a
  · exact absurd (reach_eq_ok.1 hfits).2.2 (hcondition.2 path e bytes rfl)
  · have hanswer := doesFile_ok hdoes
    rw [answer_remove_file hfits] at hanswer
    obtain ⟨-, rfl⟩ := Prod.mk.inj hanswer
    refine ⟨none, .removes bytes, trivial, fun t r t' _ hdoes _ => ?_⟩
    obtain rfl := doesFile_quiet rfl (fun _ _ h => by cases h) hdoes
    refine ⟨none, .quiet (.refl _), trivial, ?_⟩
    rcases r with e | a
    · exact herror _
    · exact herror _

/-- What a write leaves: the file of the body, or some of it. -/
def Written (body : Bytes) : Except String Unit → Option Bytes → Prop
  | .ok _, own => own = some body
  | .error _, own => ∃ part, own = some part

theorem keeps_write {pairs : Path} {body : Bytes} :
    Keeps refuses path (Written body) none (writePcPairProfile describe pairs path body) := by
  refine Owns.bind fun t r t' _ hdoes hcondition => ?_
  rcases r with e | a
  · exact absurd rfl (hcondition.1 path e)
  obtain ⟨hreach, rfl⟩ := exec_putNew_ok (doesFile_ok hdoes)
  have hnone := (reach_eq_ok.1 hreach).2.2
  have hne : path ≠ [] := ne_nil_of_at (by rw [hnone]; simp)
  refine ⟨some [], .creates [] hnone, reach_update_self hne hreach [], ?_⟩
  refine Owns.bind fun t r t' hfits hdoes _ => ?_
  obtain ⟨part, rfl, hpart⟩ := doesFile_append hdoes
  have happended : appended t path part = Function.update t path (some (.file part)) := by
    rw [appended, (reach_eq_ok.1 hfits).2.2]
    rfl
  rw [happended]
  refine ⟨some part, .writes [] part, reach_update_self hne hfits part, ?_⟩
  rcases r with e | a
  · exact ⟨part, rfl⟩
  obtain rfl := hpart a rfl
  have herror (e : String) : Written part (.error e) (some part) := ⟨part, rfl⟩
  refine Owns.bind (keeps_look (fun _ _ h => by cases h) (fun _ => rfl) herror fun _ _ _ _ => ?_)
  exact keeps_look (fun _ _ h => by cases h) (fun _ => rfl) herror fun _ _ _ _ => rfl

theorem keeps_inspectAbsent {target : Path} {Q : Except String Unit → Option Bytes → Prop}
    (herror : ∀ e, Q (.error e) own) (hok : Q (.ok ()) own) :
    Keeps refuses path Q own (inspectAbsent describe target) := by
  intro t r t' hfits hdoes _
  obtain rfl := doesFile_quiet rfl (fun _ _ h => by cases h) hdoes
  refine ⟨own, .quiet (.refl _), hfits, ?_⟩
  rcases r with e | a
  · cases e with
    | notFound => exact hok
    | _ => exact herror _
  · exact herror _

/-- **What a provision leaves**: a file that is loaded as the profile of its receipt, or nothing. -/
def Provisioned (addresses : SocketAddrs A) (primitives : Primitives) (describe : IoError → String)
    (debug : PcFabricError → String) (refuses : Path → Option IoError) (root : Path)
    (peer : String) : Except String String → Option Bytes → Prop
  | .ok receipt, own => ∃ bytes profile, own = some bytes ∧
      Loads addresses primitives describe debug refuses root peer bytes profile ∧
      receipt = pcPairPublicReceipt addresses primitives profile
  | .error _, own => own = none

theorem keeps_provision {address remotePeerIdHex remoteVerifyKeyHex : String}
    {random : Except IoError (Block 32)} :
    Keeps refuses (pcPairFile root peer)
      (Provisioned addresses primitives describe debug refuses root peer) none
      (provisionPcPairProfile addresses primitives describe debug display root peer address
        remotePeerIdHex remoteVerifyKeyHex random) := by
  have herror (e : String) : Provisioned addresses primitives describe debug refuses root peer
      (.error e) none := rfl
  refine Owns.bind (keeps_refuse herror fun _ => Owns.bind (keeps_check ?_))
  rcases parsePcSocketAddress addresses address with e | address
  · exact herror e
  refine Owns.bind (keeps_check ?_)
  rcases decodeFixedHex 16 remotePeerIdHex with e | remotePeerId
  · exact herror e
  refine Owns.bind (keeps_check ?_)
  rcases decodeFixedHex 32 remoteVerifyKeyHex with e | remoteVerifyKey
  · exact herror e
  refine Owns.bind (keeps_check ?_)
  rcases checkPinnedIdentity primitives debug remotePeerId remoteVerifyKey with e | ⟨⟩
  · exact herror e
  refine Owns.bind (keeps_canonicalPcPairDirectory herror ?_)
  refine Owns.bind (keeps_inspectAbsent herror (Owns.bind (keeps_check ?_)))
  rcases random with e | localSeed
  · exact herror ("read OS random bytes: " ++ describe e)
  refine Owns.bind (keeps_attempt (keeps_write.imp fun r own hwritten => ?_))
  rcases r with e | a
  · obtain ⟨part, rfl⟩ := hwritten
    exact keeps_rolledBack herror
  obtain rfl := hwritten
  refine Owns.bind (keeps_attempt (keeps_load (fun e => keeps_rolledBack herror)
    fun profile hloads => ?_))
  change Keeps refuses (pcPairFile root peer)
    (Provisioned addresses primitives describe debug refuses root peer) _ (if _ then _ else _)
  split
  · exact keeps_rolledBack herror
  · exact ⟨_, profile, rfl, hloads _ rfl rfl, rfl⟩

/-! ## Any turns -/

variable {ι : Type} [DecidableEq ι]

/-- Where a call puts a file, if it does. -/
def fileOf (root : Path) : PcPairCall → Path
  | .provision peer _ _ _ _ => pcPairFile root peer
  | _ => []

/-- What a call leaves. -/
def Leaves (addresses : SocketAddrs A) (primitives : Primitives) (describe : IoError → String)
    (debug : PcFabricError → String) (refuses : Path → Option IoError) (root : Path) :
    PcPairCall → Except String (PcPairResult A) → Option Bytes → Prop
  | .provision peer _ _ _ _, .ok (.receipt receipt), own =>
    Provisioned addresses primitives describe debug refuses root peer (.ok receipt) own
  | _, .error _, own => own = none
  | .provision _ _ _ _ _, .ok _, _ => False
  | _, .ok _, own => own = none

theorem keeps_program (call : PcPairCall) :
    Keeps refuses (fileOf root call)
      (Leaves addresses primitives describe debug refuses root call) none
      (call.program addresses primitives describe debug display root) := by
  cases call with
  | provision peer address remotePeerIdHex remoteVerifyKeyHex random =>
    refine Owns.bind (keeps_provision.imp fun r own hr => ?_)
    cases r with
    | error e => exact hr
    | ok receipt => exact hr
  | load peer =>
    refine Owns.bind (keeps_load_any fun r => ?_)
    cases r <;> exact rfl
  | list listing =>
    refine Owns.bind (keeps_list fun r => ?_)
    cases r <;> exact rfl

/-- The calls of the application, before their first step. -/
def startOf (addresses : SocketAddrs A) (primitives : Primitives) (describe : IoError → String)
    (debug : PcFabricError → String) (display : Path → String) (root : Path) (t : Tree)
    (calls : ι → PcPairCall) : Threads ι Reply Tree String (PcPairResult A) :=
  ⟨t, fun i => (calls i).program addresses primitives describe debug display root⟩

/-- **From some turn on, a profile is loaded for a peer**: whatever turns are taken, also between the
calls of the load, the same file stands there. -/
def LoadedFrom (addresses : SocketAddrs A) (primitives : Primitives) (describe : IoError → String)
    (debug : PcFabricError → String) (refuses : Path → Option IoError) (root : Path)
    (threads : Threads ι Reply Tree String (PcPairResult A)) (peer : String)
    (profile : PcPairProfile A) : Prop :=
  ∃ bytes, Loads addresses primitives describe debug refuses root peer bytes profile ∧
    ∀ threads', Steps.Reached (DoesFile refuses) Unfailed threads threads' →
      reach refuses threads'.state (pcPairFile root peer) = .ok (some (.file bytes))

/-- **Provisioning is atomic**, whatever turns the calls take, as long as no `create_new` fails: a
receipt stands for a profile that is loaded from then on, the profiles of the beginning stay, and
every other one is of a provision that has not failed. -/
theorem provision_atomic {t : Tree} {calls : ι → PcPairCall}
    {threads : Threads ι Reply Tree String (PcPairResult A)}
    (h : Steps.Reached (DoesFile refuses) Unfailed
      (startOf addresses primitives describe debug display root t calls) threads) :
    (∀ i peer address remotePeerIdHex remoteVerifyKeyHex random receipt,
      calls i = .provision peer address remotePeerIdHex remoteVerifyKeyHex random →
      threads.programs i = .ret (.ok (.receipt receipt)) →
      ∃ profile, receipt = pcPairPublicReceipt addresses primitives profile ∧
        LoadedFrom addresses primitives describe debug refuses root threads peer profile) ∧
    (∀ q bytes, t.at q = some (.file bytes) → threads.state.at q = some (.file bytes)) ∧
    ∀ q bytes, threads.state.at q = some (.file bytes) → t.at q = some (.file bytes) ∨
      ∃ i peer address remotePeerIdHex remoteVerifyKeyHex random,
        calls i = .provision peer address remotePeerIdHex remoteVerifyKeyHex random ∧
        q = pcPairFile root peer ∧ ∀ e, threads.programs i ≠ .ret (.error e) := by
  obtain ⟨owned, hshared, -⟩ := (Shared.of_start (fun i => fileOf root (calls i))
    (fun i => Leaves addresses primitives describe debug refuses root (calls i))
    (startOf addresses primitives describe debug display root t calls)
    fun i => keeps_program (calls i)).reached h
  refine ⟨?_, fun q bytes hfile => ?_, fun q bytes hfile => ?_⟩
  · intro i peer address remotePeerIdHex remoteVerifyKeyHex random receipt hcall hreturned
    have howns := hshared.owns i
    rw [hreturned, hcall] at howns
    obtain ⟨bytes, profile, howned, hloads, hreceipt⟩ := howns
    refine ⟨profile, hreceipt, bytes, hloads, fun threads' hlater => ?_⟩
    obtain ⟨owned', hshared', hsame⟩ := hshared.reached hlater
    have hfits := hshared'.fits i
    rw [(hsame i _ hreturned).2, howned, hcall] at hfits
    exact hfits
  · refine (hshared.rest q bytes fun i hi hq => ?_).2 hfile
    exact hshared.fresh i bytes hi (hq ▸ hfile)
  · by_cases howner : ∃ i, owned i ≠ none ∧ fileOf root (calls i) = q
    · obtain ⟨i, hi, rfl⟩ := howner
      have howns := hshared.owns i
      cases hcall : calls i with
      | provision peer address remotePeerIdHex remoteVerifyKeyHex random =>
        refine .inr ⟨i, peer, address, remotePeerIdHex, remoteVerifyKeyHex, random, hcall, ?_,
          fun e he => ?_⟩
        · rfl
        · rw [he, hcall] at howns
          exact hi howns
      | load | list =>
        rw [hcall] at hfile
        cases hfile
    · exact .inl ((hshared.rest q bytes fun i hi hq => howner ⟨i, hi, hq⟩).1 hfile)

end Provision

end Keeps

/-! ## Two provisions of one peer -/

namespace ProvisionSample

def zeros (n : ℕ) : Block n := ⟨List.replicate n 0, List.length_replicate⟩

def addresses : SocketAddrs Unit := ⟨fun _ => some (), fun _ => "10.0.0.2:1", fun _ => true⟩

def primitives : Primitives where
  verifyingKey := id
  sign _ _ := zeros 64
  isKey _ := true
  verify _ _ _ := true
  x25519 := id
  diffieHellman _ _ := zeros 32
  expand _ _ _ := none

def work (c : FileCall) (t : Tree) : Reply c × Tree := answer (fun _ => none) c t

def empty : Tree := fun _ => none

/-- A provision of the identity whose key is zero. -/
def provision (peer : String) : PcPairCall :=
  .provision peer "10.0.0.2:1" "d82d8e88d6bdbeb202e342a126eb4612"
    "0000000000000000000000000000000000000000000000000000000000000000" (.ok (zeros 32))

def program (peer : String) : FileProg String (PcPairResult Unit) :=
  (provision peer).program addresses primitives (fun _ => "io") (fun _ => "") (fun _ => "") []

def load : FileProg String (PcPairProfile Unit) :=
  loadPcPairProfile addresses primitives (fun _ => "io") (fun _ => "") [] "pc"

def isReceipt : Except String (PcPairResult Unit) → Bool
  | .ok (.receipt _) => true
  | _ => false

/-- The first provision has found no profile; then one of another peer runs to its end. -/
def first : FileProg String (PcPairResult Unit) × Tree := advance work 6 (program "pc") empty

def second (peer : String) : Except String (PcPairResult Unit) × Tree :=
  execute work (program peer) first.2

def both (peer : String) : Except String (PcPairResult Unit) × Tree :=
  execute work first.1 (second peer).2

/-- No `create_new` and no removal failed. -/
def isHarmless : Called Reply → Bool
  | ⟨.createNew _, .error _⟩ => false
  | ⟨.remove _, .error _⟩ => false
  | _ => true

/-- Two provisions of two peers: both return their receipts. -/
theorem sample_turns : (((calls work (program "pc") empty).take 6).all isHarmless = true ∧
      (calls work (program "desk") first.2).all isHarmless = true ∧
      (calls work first.1 (second "desk").2).all isHarmless = true) ∧
    isReceipt (second "desk").1 = true ∧ isReceipt (both "desk").1 = true := by
  decide +kernel

/-- Two provisions of one peer: the first one fails, and there is no profile. -/
theorem sample_clash : isReceipt (second "pc").1 = true ∧ (both "pc").1.isOk = false ∧
    (execute work load (both "pc").2).1.isOk = false := by
  decide +kernel

theorem does_work (c : FileCall) (t : Tree) :
    DoesFile (fun _ => none) c t (work c t).1 (work c t).2 := .done c t

theorem unfailed_of_isHarmless {t : Tree} {event : Called Reply} (h : isHarmless event = true) :
    Unfailed t event := by
  constructor
  · rintro path e rfl
    cases h
  · rintro path e bytes rfl
    cases h

theorem receipt_of_isReceipt {r : Except String (PcPairResult Unit)} (h : isReceipt r = true) :
    ∃ receipt, r = .ok (.receipt receipt) := by
  rcases r with e | result
  · cases h
  · cases result with
    | receipt receipt => exact ⟨receipt, rfl⟩
    | _ => cases h

/-- Two calls, before their first step. -/
def start (peers : Bool → String) : Threads Bool Reply Tree String (PcPairResult Unit) :=
  startOf addresses primitives (fun _ => "io") (fun _ => "") (fun _ => "") [] empty
    fun i => provision (peers i)

/-- Two programs, the first of which waits while the second one runs to its end. -/
theorem reached_around {α : Type} {does : Does Reply Tree} {P : Tree → Called Reply → Prop}
    {t t₁ t₂ t₃ : Tree} {r₁ r₂ : Except String α} {p : Bool → FileProg String α}
    {q : FileProg String α} {events₁ events₂ events₃ : List (Called Reply)}
    (h₁ : Run (fun c s r s' => does c s r s' ∧ P s ⟨c, r⟩) t (p false) events₁ t₁ q)
    (h₂ : Run (fun c s r s' => does c s r s' ∧ P s ⟨c, r⟩) t₁ (p true) events₂ t₂
      (.ret r₂))
    (h₃ : Run (fun c s r s' => does c s r s' ∧ P s ⟨c, r⟩) t₂ q events₃ t₃ (.ret r₁)) :
    ∃ threads, Steps.Reached does P ⟨t, p⟩ threads ∧ threads.state = t₃ ∧
      threads.programs false = .ret r₁ ∧ threads.programs true = .ret r₂ := by
  have hstart : Steps.Reached does P ⟨t, p⟩ ⟨t, p⟩ := .start
  have hwaiting := hstart.of_run (i := false) rfl h₁
  have hreceived := hwaiting.of_run (i := true) rfl h₂
  have hended := hreceived.of_run (i := false) rfl h₃
  exact ⟨_, hended, rfl, rfl, rfl⟩

theorem unfailed_run {p p' : FileProg String (PcPairResult Unit)} {t t' : Tree}
    {events : List (Called Reply)} (h : Run (DoesFile fun _ => none) t p events t' p')
    (hharmless : ∀ event ∈ events, isHarmless event = true) :
    Run (fun c s r s' => DoesFile (fun _ => none) c s r s' ∧ Unfailed s ⟨c, r⟩) t p events t' p' :=
  (h.restrict hharmless).mono fun _ _ _ _ ⟨hdoes, hevent⟩ => ⟨hdoes, unfailed_of_isHarmless hevent⟩

/-- **One provision in the middle of another**, of another peer: both profiles are loaded. -/
theorem provision_atomic_around : ∃ threads : Threads Bool Reply Tree String (PcPairResult Unit),
    ∀ i : Bool, ∃ receipt profile, threads.programs i = .ret (.ok (.receipt receipt)) ∧
      receipt = pcPairPublicReceipt addresses primitives profile ∧
      LoadedFrom addresses primitives (fun _ => "io") (fun _ => "") (fun _ => none) [] threads
        (bif i then "desk" else "pc") profile := by
  obtain ⟨⟨hfirst, hsecond, hrest⟩, hdesk, hpc⟩ := sample_turns
  obtain ⟨receipt, hreceipt⟩ := receipt_of_isReceipt hdesk
  obtain ⟨receipt', hreceipt'⟩ := receipt_of_isReceipt hpc
  obtain ⟨threads, hreached, -, hended, hended'⟩ := reached_around
    (p := (start fun i => bif i then "desk" else "pc").programs)
    (unfailed_run (run_advance does_work 6 (program "pc") empty) (List.all_eq_true.1 hfirst))
    (unfailed_run (run_execute does_work (program "desk") first.2) (List.all_eq_true.1 hsecond))
    (unfailed_run (run_execute does_work first.1 (second "desk").2) (List.all_eq_true.1 hrest))
  have hreached' : Steps.Reached (DoesFile fun _ => none) Unfailed
    (start fun i => bif i then "desk" else "pc") threads := hreached
  obtain ⟨hloads, -, -⟩ := provision_atomic (A := Unit) hreached'
  have hreturned (i : Bool) : ∃ receipt, threads.programs i = .ret (.ok (.receipt receipt)) := by
    cases i
    · exact ⟨receipt', hended.trans (congrArg Prog.ret hreceipt')⟩
    · exact ⟨receipt, hended'.trans (congrArg Prog.ret hreceipt)⟩
  refine ⟨threads, fun i => ?_⟩
  obtain ⟨receipt, hi⟩ := hreturned i
  obtain ⟨profile, hprofile, hloaded⟩ := hloads i _ _ _ _ _ receipt rfl hi
  exact ⟨receipt, profile, hi, hprofile, hloaded⟩

/-- **The first of two provisions takes the file of the second one away**: its `create_new` fails, and
it removes what it did not make.  The second one has returned its receipt. -/
theorem provision_removes : ∃ threads : Threads Bool Reply Tree String (PcPairResult Unit),
    Steps.Reached (DoesFile fun _ => none) (fun _ _ => True) (start fun _ => "pc") threads ∧
    (∃ receipt, threads.programs true = .ret (.ok (.receipt receipt))) ∧
    ∀ profile t, execute work load threads.state ≠ (.ok profile, t) := by
  obtain ⟨hsecond, -, hload⟩ := sample_clash
  obtain ⟨receipt, hreceipt⟩ := receipt_of_isReceipt hsecond
  have hany {t t' : Tree} {p p' : FileProg String (PcPairResult Unit)} {events : List (Called Reply)}
      (h : Run (DoesFile fun _ => none) t p events t' p') :
      Run (fun c t r t' => DoesFile (fun _ => none) c t r t' ∧ True) t p events t' p' :=
    h.mono fun _ _ _ _ h => ⟨h, trivial⟩
  obtain ⟨threads, hreached, hstate, -, hreturned⟩ := reached_around (P := fun _ _ => True)
    (p := (start fun _ => "pc").programs) (hany (run_advance does_work 6 (program "pc") empty))
    (hany (run_execute does_work (program "pc") first.2))
    (hany (run_execute does_work first.1 (second "pc").2))
  refine ⟨threads, hreached, ⟨receipt, ?_⟩, fun profile t h => ?_⟩
  · rw [hreturned]
    exact congrArg Prog.ret hreceipt
  · rw [hstate] at h
    change execute work load (both "pc").2 = _ at h
    rw [h] at hload
    cases hload

end ProvisionSample

end PcPairs

end NTD97
