import Mathlib
import NTD97.AndroidFiles.Resume
import NTD97.Lib.Links

/-!
# AndroidFiles/Contained — the file adapters on a tree with links

    scoped_path: nothing on the way is a link that leads somewhere
      ──▸ read ▪ mkdir ▪ rename ▪ remove stay below the root
      ──▸ create goes where a dangling link, a link at the temp file or at the stage leads

The same programs as in `AndroidFiles/Steps`, whatever links stand below the root.  A name that is
not followed stays inside, since no link is above it; a path that is opened is only as safe as what
stands at it.
-/

namespace NTD97

open Guard Text Wire Files Steps Links

namespace Stepwise

section Contained

variable {describe : IoError → String} {root : Path} {t s : LinkTree} {path : Path}
  {relative what : String} {actionId : ActionId}

/-! ## Paths that were looked at -/

/-- **There is no link at a path**, unless it leads nowhere. -/
def Unlinked (t : LinkTree) (q : Path) : Prop :=
  ∀ above name, q = above ++ [name] → Physical t above → Reaches t above [name] →
    ∀ absolute names, t.at q ≠ some (.link absolute names)

theorem bounded_inspect {q : Path} (hplain : ".." ∉ q) :
    Bounded root (fun r s => s = t ∧ (r = .ok () → Unlinked t q)) (inspect describe q) t := by
  refine ⟨fun p h => (by cases h), fun r s h => ?_⟩
  cases h with
  | refused _ _ e h _ => exact absurd rfl (h q)
  | absent e h =>
    refine ⟨rfl, fun _ above name hq hreal ⟨p, hleads, hp⟩ => absurd ⟨p, ?_, hp⟩ h⟩
    rw [hq]
    exact hreal.leads_append.2 hleads
  | there h =>
    refine ⟨fun p h => (by cases h), fun r s h => ?_⟩
    cases h with
    | refused _ _ e h _ => exact ⟨rfl, fun hok => by cases hok⟩
    | @told _ _ p node hnames hat =>
      change Meets _ _ _ (refuse (node.kind = .link) _) t
      refine Meets.refuse (fun _ => ⟨rfl, fun hok => by cases hok⟩) fun hkind => ⟨rfl, fun _ => ?_⟩
      rintro above name rfl hreal - absolute names hlink
      have hname : name ≠ ".." := by
        rintro rfl
        exact hplain (by simp)
      rw [(hreal.names_iff hname).1 hnames, hlink] at hat
      obtain rfl := Option.some.inj hat
      exact hkind rfl

theorem scopedPath_plain {components : Path} (h : NTD97.scopedPath relative = .ok components) :
    ".." ∉ components := by
  obtain ⟨_, -, h⟩ := bind_eq_ok.1 h
  obtain ⟨_, hall, hpure⟩ := bind_eq_ok.1 h
  obtain rfl := pure_eq_ok.1 hpure
  intro hmem
  exact (refuse_eq_ok.1 (forM_eq_ok.1 hall _ hmem)) (.inr rfl)

/-- **What `scoped_path` accepts**: plain names below the root, none of them a link that leads
anywhere. -/
structure Scoped (t : LinkTree) (root : Path) (relative : String) (components : Path) : Prop where
  accepted : NTD97.scopedPath relative = .ok components
  unlinked : ∀ q, q <+: components → q ≠ [] → Unlinked t (root ++ q)

theorem bounded_scopedPath (hroot : Physical t root) :
    Bounded root (fun r s => s = t ∧ ∀ target, r = .ok target → ∃ components,
      target = root ++ components ∧ Scoped t root relative components)
      (scopedPath describe root relative) t := by
  refine Meets.bind (Meets.check ?_)
  cases hscoped : NTD97.scopedPath relative with
  | error e => exact ⟨rfl, fun _ h => by cases h⟩
  | ok components =>
    refine Meets.goOn (Meets.bind ?_)
    have hplain := scopedPath_plain hscoped
    have hloop : ∀ l : List Path, (∀ q ∈ l, q <+: components) → Bounded root
        (fun r s => s = t ∧ (r = .ok ⟨⟩ → ∀ q ∈ l, Unlinked t (root ++ q)))
        (l.forM fun part => inspect describe (root ++ part)) t := by
      intro l
      induction l with
      | nil => exact fun _ => ⟨rfl, fun _ q hq => absurd hq List.not_mem_nil⟩
      | cons part l ih =>
        intro hl
        obtain ⟨hpart, hl⟩ := List.forall_mem_cons.1 hl
        have hnames : ".." ∉ root ++ part := by
          rw [List.mem_append, not_or]
          exact ⟨hroot.plain, fun h => hplain (hpart.subset h)⟩
        refine Meets.bind ((bounded_inspect hnames).imp fun r s ⟨hs, hr⟩ => ?_)
        subst hs
        cases r with
        | error e => exact ⟨rfl, fun h => by cases h⟩
        | ok _ =>
          refine Meets.goOn ((ih hl).imp fun r s' ⟨hs', hr'⟩ => ⟨hs', fun hok => ?_⟩)
          exact List.forall_mem_cons.2 ⟨hr rfl, hr' hok⟩
    have hinits : ∀ q ∈ components.inits.tail, q <+: components := fun q hq =>
      (List.mem_inits q components).1 (List.mem_of_mem_tail hq)
    refine (hloop _ hinits).imp fun r s ⟨hs, hr⟩ => ?_
    cases r with
    | error e => exact ⟨hs, fun _ h => by cases h⟩
    | ok _ =>
      refine ⟨hs, fun target htarget => ⟨components, (Except.ok.inj htarget).symm, hscoped,
        fun q hq hne => hr rfl q ?_⟩⟩
      obtain ⟨name, rest, rfl⟩ := List.exists_cons_of_ne_nil hne
      have hmem := (List.mem_inits _ components).2 hq
      cases components with
      | nil => exact absurd (List.prefix_nil.1 hq) hne
      | cons first components =>
        rw [List.inits_cons] at hmem ⊢
        rcases List.mem_cons.1 hmem with hnil | hmem
        · exact absurd hnil hne
        · exact hmem

-- a path is not to be evaluated when a goal is looked at
seal NTD97.scopedPath

/-! ## Directories that are made -/

/-- **The same tree, but for directories on the way to a path** that were not there. -/
def Grown (t s : LinkTree) (path : Path) : Prop :=
  ∀ q, s q = t q ∨ (t.at q = none ∧ s.at q = some .directory ∧ q <+: path)

/-- A path that opens a directory, and stands in a real one. -/
def Opens (s : LinkTree) (q : Path) : Prop :=
  Physical s q.dropLast ∧ ∃ p, Leads s [] q p ∧ s.at p = some .directory

theorem Grown.refl (t : LinkTree) (path : Path) : Grown t t path := fun _ => .inl rfl

theorem Grown.mono {path' : Path} (h : Grown t s path) (hpath : path <+: path') : Grown t s path' :=
  fun q => (h q).imp_right fun ⟨hnone, hdir, hq⟩ => ⟨hnone, hdir, hq.trans hpath⟩

theorem Grown.at_eq (h : Grown t s path) (q : Path) :
    s.at q = t.at q ∨ (t.at q = none ∧ s.at q = some .directory ∧ q <+: path) := by
  rcases h q with heq | hnew
  · refine .inl ?_
    rw [LinkTree.at, LinkTree.at, heq]
  · exact .inr hnew

theorem Grown.real {q : Path} (h : Grown t s path) (hreal : Physical t q) : Physical s q := by
  refine ⟨hreal.plain, fun x hx => ?_⟩
  rcases h.at_eq x with heq | ⟨-, hdir, -⟩
  · rw [heq, hreal.directory x hx]
  · exact hdir

/-- **Nothing is made above a link.** -/
theorem Grown.eq_of_link {absolute : Bool} {names : List String} (hrooted : Rooted t)
    (h : Grown t s path) (hlink : s.at path = some (.link absolute names)) : s = t := by
  have hold : t.at path = some (.link absolute names) := by
    rcases h.at_eq path with heq | ⟨-, hdir, -⟩
    · rw [← heq, hlink]
    · rw [hlink] at hdir
      cases hdir
  rcases List.eq_nil_or_concat' path with rfl | ⟨above, name, rfl⟩
  · rw [at_nil] at hold
    cases hold
  · have habove : t.at above = some .directory :=
      hrooted above name (by rw [hold]; exact Option.some_ne_none _)
    funext q
    rcases h q with heq | ⟨hnone, -, hq⟩
    · exact heq
    · rcases List.prefix_concat_iff.1 hq with rfl | hq
      · rw [hold] at hnone
        cases hnone
      · rw [hrooted.directory habove q hq] at hnone
        cases hnone

/-- **What opens a directory is one**, where no link leads on. -/
theorem real_of_opens {q : Path} (hrooted : Rooted t) (hgrown : Grown t s q) (hopens : Opens s q)
    (hplain : ".." ∉ q) (h : Physical t q ∨ Unlinked t q) : Physical s q := by
  rcases h with hreal | hunlinked
  · exact hgrown.real hreal
  · rcases List.eq_nil_or_concat' q with rfl | ⟨above, name, rfl⟩
    · exact .nil s
    · have hname : name ≠ ".." := by
        rintro rfl
        exact hplain (by simp)
      obtain ⟨habove, p, hleads, hp⟩ := hopens
      rw [List.dropLast_concat] at habove
      have hlast := habove.leads_append.1 hleads
      have hno : ∀ absolute names, s.at (above ++ [name]) ≠ some (.link absolute names) := by
        intro absolute names hlink
        obtain rfl := hgrown.eq_of_link hrooted hlink
        exact hunlinked above name rfl habove ⟨p, hlast, by rw [hp]; exact Option.some_ne_none _⟩
          absolute names hlink
      obtain rfl := hlast.eq_of_no_link hname hno
      exact habove.concat hname hp

/-- One directory more. -/
theorem bounded_makeDir {whole above : Path} {name : String} (hroot : Physical t root)
    (hside : above ++ [name] <+: root ∨ root <+: above ++ [name]) (hname : name ≠ "..")
    (hgrown : Grown t s above) (hreal : Physical s above) :
    Bounded root (fun r u => r = .ok () → Grown t u (above ++ [name]) ∧ Opens u (above ++ [name]))
      (ask describe what (.makeDir whole (above ++ [name]))) s := by
  have hmore := hgrown.mono (List.prefix_append above [name])
  refine ⟨fun p h => ?_, fun r u h => ?_⟩
  · cases h with
    | makeDir hnames hat =>
      obtain rfl := (hreal.names_iff hname).1 hnames
      rcases hside with hbefore | hafter
      · rw [(hmore.real (hroot.of_isPrefix hbefore)).self] at hat
        cases hat
      · exact hafter
  · cases h with
    | refused _ _ e h _ => exact fun hok => by cases hok
    | isDirectory hleads hat =>
      refine fun _ => ⟨hmore, ?_, _, hleads, hat⟩
      rwa [List.dropLast_concat]
    | made hnames hat =>
      obtain rfl := (hreal.names_iff hname).1 hnames
      have hne : above ++ [name] ≠ [] := List.concat_ne_nil name above
      have hself : LinkTree.at (Function.update s (above ++ [name]) (some .directory))
          (above ++ [name]) = some .directory := by
        rw [LinkTree.at_update hne, if_pos rfl]
      have hreal' : Physical (Function.update s (above ++ [name]) (some .directory)) above := by
        refine ⟨hreal.plain, fun x hx => ?_⟩
        rw [LinkTree.at_update hne]
        split
        · rfl
        · exact hreal.directory x hx
      refine fun _ => ⟨fun q => ?_, ?_, above ++ [name], ?_, hself⟩
      · by_cases hq : q = above ++ [name]
        · subst hq
          refine .inr ⟨?_, hself, List.prefix_refl _⟩
          rcases hmore.at_eq (above ++ [name]) with heq | ⟨-, hdir, -⟩
          · rw [← heq, hat]
          · rw [hat] at hdir
            cases hdir
        · rcases hmore.at_eq q with heq | hnew
          · rcases hmore q with heq' | ⟨hnone, hdir, -⟩
            · exact .inl (by rw [Function.update_of_ne hq, heq'])
            · rw [heq, hnone] at hdir
              cases hdir
          · refine .inr ⟨hnew.1, ?_, hnew.2.2⟩
            rw [LinkTree.at_update hne, if_neg hq, hnew.2.1]
      · rwa [List.dropLast_concat]
      · exact hreal'.leads_append.2 (.down hname hself (.here _))

/-- **Directories are made below the root**, and then the path opens one. -/
theorem bounded_makeDirs {whole : Path} (hrooted : Rooted t) (hroot : Physical t root) :
    ∀ path : Path, (path <+: root ∨ root <+: path) → ".." ∉ path →
      (∀ q, q <+: path → q ≠ path → Physical t q ∨ Unlinked t q) →
      Bounded root (fun r s => r = .ok ⟨⟩ → Grown t s path ∧ Opens s path)
        (path.inits.forM fun part => ask describe what (.makeDir whole part)) t := by
  intro path
  induction path using List.reverseRecOn with
  | nil =>
    intro _ _ _
    refine Meets.bind ⟨fun p h => ?_, fun r s h => ?_⟩
    · cases h with
      | makeDir hnames =>
        obtain ⟨above, name, -, heq, -⟩ := hnames
        exact absurd heq.symm (List.concat_ne_nil name above)
    · cases h with
      | refused _ _ e h _ => exact fun hok => by cases hok
      | isDirectory hleads hat => exact fun _ => ⟨.refl t [], .nil t, _, hleads, hat⟩
      | made hnames =>
        obtain ⟨above, name, -, heq, -⟩ := hnames
        exact absurd heq.symm (List.concat_ne_nil name above)
  | append_singleton above name ih =>
    intro hside hplain hfree
    have hbegin := List.prefix_append above [name]
    have hne : above ≠ above ++ [name] := fun heq => by
      have hlength := congrArg List.length heq
      simp at hlength
    have hplain' : ".." ∉ above := fun h => hplain (hbegin.subset h)
    have hname : name ≠ ".." := by
      rintro rfl
      exact hplain (by simp)
    have hside' : above <+: root ∨ root <+: above := by
      rcases hside with hbefore | hafter
      · exact .inl (hbegin.trans hbefore)
      · rcases List.prefix_concat_iff.1 hafter with rfl | hafter
        · exact .inl hbegin
        · exact .inr hafter
    have hinits : (above ++ [name]).inits = above.inits ++ [above ++ [name]] := by
      rw [List.inits_append]
      rfl
    rw [hinits]
    refine Meets.forM_append ((ih hside' hplain' fun q hq hqne => hfree q (hq.trans hbegin)
      (by rintro rfl; exact hqne (hq.eq_of_length_le (by simp)))).imp fun r s hr => ?_)
    cases r with
    | error e => exact fun hok => by cases hok
    | ok _ =>
      obtain ⟨hgrown, hopens⟩ := hr rfl
      have hreal := real_of_opens hrooted hgrown hopens hplain' (hfree above hbegin hne)
      refine Meets.bind ((bounded_makeDir hroot hside hname hgrown hreal).imp fun r u hr => ?_)
      cases r with
      | error e => exact fun hok => by cases hok
      | ok _ => exact fun _ => hr rfl

/-- The names of a path that was accepted: the last one, in a directory of the others. -/
theorem Scoped.parts {components : Path} (h : Scoped t root relative components) :
    ∃ dirs name, components = dirs ++ [name] ∧ name ≠ ".." ∧ ".." ∉ dirs := by
  have hplain := scopedPath_plain h.accepted
  rcases List.eq_nil_or_concat' components with rfl | ⟨dirs, name, rfl⟩
  · exact absurd rfl (scopedPath_ne_nil h.accepted)
  · rw [List.mem_append, List.mem_singleton, not_or] at hplain
    exact ⟨dirs, name, rfl, Ne.symm hplain.2, hplain.1⟩

theorem Scoped.free {dirs : Path} {name : String} (h : Scoped t root relative (dirs ++ [name]))
    (hroot : Physical t root) {q : Path} (hq : q <+: root ++ dirs) :
    Physical t q ∨ Unlinked t q := by
  rcases List.prefix_or_prefix_of_prefix hq (List.prefix_append root dirs) with hbefore | ⟨x, rfl⟩
  · exact .inl (hroot.of_isPrefix hbefore)
  · rcases eq_or_ne x [] with rfl | hx
    · rw [List.append_nil]
      exact .inl hroot
    · exact .inr (h.unlinked x (((List.prefix_append_right_inj root).1 hq).trans
        (List.prefix_append dirs [name])) hx)

/-- **The parent of a path that was accepted** is a real directory, once it is made. -/
theorem bounded_createDirAll {dirs : Path} {name : String} (hrooted : Rooted t)
    (hroot : Physical t root) (h : Scoped t root relative (dirs ++ [name])) (hplain : ".." ∉ dirs) :
    Bounded root (fun r s => r = .ok ⟨⟩ → Grown t s (root ++ dirs) ∧ Physical s (root ++ dirs))
      (createDirAll describe what (root ++ dirs)) t := by
  have hnames : ".." ∉ root ++ dirs := by
    rw [List.mem_append, not_or]
    exact ⟨hroot.plain, hplain⟩
  refine (bounded_makeDirs hrooted hroot (root ++ dirs) (.inr (List.prefix_append root dirs)) hnames
    fun q hq _ => h.free hroot hq).imp fun r s hr hok => ?_
  obtain ⟨hgrown, hopens⟩ := hr hok
  exact ⟨hgrown, real_of_opens hrooted hgrown hopens hnames (h.free hroot (List.prefix_refl _))⟩

theorem bounded_canonicalDirectory {escaped : String} :
    Bounded root (fun r s => s = t ∧ ∀ p, r = .ok p → Leads t [] path p ∧ root <+: p)
      (canonicalDirectory describe root path what escaped) t := by
  refine Meets.bind ⟨fun p h => (by cases h), fun r s h => ?_⟩
  cases h with
  | refused _ _ e h _ => exact ⟨rfl, fun _ hok => by cases hok⟩
  | @canonical _ _ p hleads hat =>
    refine Meets.goOn (Meets.bind (Meets.refuse (fun _ => ⟨rfl, fun _ hok => by cases hok⟩)
      fun hinside => ⟨rfl, fun q hq => ?_⟩))
    obtain rfl := Except.ok.inj hq
    exact ⟨hleads, not_not.1 hinside⟩

/-! ## What is opened -/

/-- **A path that was accepted leads where it says**, if it leads to anything. -/
theorem eq_of_unlinked : ∀ {rest base p : Path}, Physical t base → ".." ∉ rest →
    (∀ q, q <+: rest → q ≠ [] → Unlinked t (base ++ q)) → Leads t base rest p → t.at p ≠ none →
    p = base ++ rest
  | [], base, p, _, _, _, h, _ => by
      cases h
      rw [List.append_nil]
  | name :: rest, base, p, hbase, hplain, hfree, h, hat => by
      rw [List.mem_cons, not_or] at hplain
      have hfirst : Reaches t base [name] := h.exists_append hat hbase rfl
      cases h with
      | up => exact absurd rfl hplain.1
      | missing => rfl
      | file => rfl
      | down hname hdir hrest =>
        have hmore := eq_of_unlinked (hbase.concat hname hdir) hplain.2 (fun q hq _ => ?_) hrest hat
        · rw [hmore, List.append_assoc, List.singleton_append]
        · rw [List.append_assoc, List.singleton_append]
          exact hfree (name :: q) (List.cons_prefix_cons.2 ⟨rfl, hq⟩) (List.cons_ne_nil name q)
      | follow _ hlink =>
        have hunlinked := hfree [name] (List.cons_prefix_cons.2 ⟨rfl, List.nil_prefix⟩)
          (List.cons_ne_nil name [])
        exact absurd hlink (hunlinked base name rfl hbase hfirst _ _)

theorem Scoped.eq_of_leads {components q p : Path} (h : Scoped t root relative components)
    (hroot : Physical t root) (hq : q <+: components) (hleads : Leads t [] (root ++ q) p)
    (hat : t.at p ≠ none) : p = root ++ q :=
  eq_of_unlinked hroot (fun hmem => scopedPath_plain h.accepted (hq.subset hmem))
    (fun x hx hne => h.unlinked x (hx.trans hq) hne) (hroot.leads_append.1 hleads) hat

/-- **What is opened for writing under a name is inside**: a new file, or an old one. -/
def OpensInside (t : LinkTree) (root directory : Path) (name : String) : Prop :=
  ∀ p, Leads t directory [name] p → t.at p ≠ some .directory → root <+: p

/-- What is safe to open is so in the directory that was made. -/
theorem OpensInside.grown {directory : Path} {name : String} (h : OpensInside t root directory name)
    (hrooted : Rooted t) (hgrown : Grown t s directory) (hinside : root <+: directory)
    (hname : name ≠ "..") : OpensInside s root directory name := by
  intro p hleads hat
  rcases hleads.eq_or_link hname with rfl | ⟨absolute, names, hlink⟩
  · exact hinside.trans (List.prefix_append directory [name])
  · obtain rfl := (hgrown.mono (List.prefix_append directory [name])).eq_of_link hrooted hlink
    exact h p hleads hat

/-- A file was opened for writing under a name, and written to. -/
def Written (s : LinkTree) (directory : Path) (name : String) (u : LinkTree) : Prop :=
  ∃ p bytes, Leads s directory [name] p ∧ s.at p ≠ some .directory ∧
    u = Function.update s p (some (.file bytes))

section Opened

variable {directory : Path} {name : String} {u : LinkTree}

theorem Written.physical {q : Path} (h : Written s directory name u) (hq : Physical s q) :
    Physical u q := by
  obtain ⟨p, bytes, -, hat, rfl⟩ := h
  exact hq.update hat bytes

theorem bounded_create (hreal : Physical s directory)
    (hinside : OpensInside s root directory name) : Bounded root (fun r u => r = .ok () → Written s directory name u)
      (ask describe what (.create (directory ++ [name]))) s := by
  refine ⟨fun p h => ?_, fun r u h => ?_⟩
  · cases h with
    | create hleads hat => exact hinside p (hreal.leads_append.1 hleads) hat
  · cases h with
    | refused _ _ e h _ => exact fun hok => by cases hok
    | created hleads hat => exact fun _ => ⟨_, [], hreal.leads_append.1 hleads, hat, rfl⟩

theorem bounded_append {bytes : Bytes} (hreal : Physical s directory)
    (hinside : OpensInside s root directory name) (h : Written s directory name u) :
    Bounded root (fun _ u' => Written s directory name u')
      (ask describe what (.append (directory ++ [name]) bytes)) u := by
  have hreal' := h.physical hreal
  obtain ⟨p, old, hleads, hat, rfl⟩ := h
  have hsame : ∀ {q : Path}, Leads (Function.update s p (some (.file old))) []
      (directory ++ [name]) q → q = p := fun hq =>
    (hleads.update hreal hat old).unique (hreal'.leads_append.1 hq)
  refine ⟨fun q hq => ?_, fun r u' h => ?_⟩
  · cases hq with
    | append hq _ =>
      rw [hsame hq]
      exact hinside p hleads hat
  · cases h with
    | refused => exact ⟨p, old, hleads, hat, rfl⟩
    | appended hq =>
      obtain rfl := hsame hq
      exact ⟨_, _, hleads, hat, Function.update_idem ..⟩

theorem bounded_sync {Q : Except String Unit → LinkTree → Prop} (hQ : ∀ r, Q r u) :
    Bounded root Q (ask describe what (.sync path)) u := by
  refine ⟨fun p h => (by cases h), fun r u' h => ?_⟩
  cases h with
  | refused => exact hQ _
  | synced => exact hQ _

theorem bounded_rename {directory' : Path} {name' : String} (hreal : Physical u directory)
    (hreal' : Physical u directory') (hname : name ≠ "..") (hname' : name' ≠ "..")
    (hinside : root <+: directory) (hinside' : root <+: directory') :
    Bounded root (fun _ _ => True)
      (ask describe what (.rename (directory ++ [name]) (directory' ++ [name']))) u := by
  refine ⟨fun p h => ?_, fun _ _ _ => trivial⟩
  cases h with
  | renameFrom h =>
    rw [(hreal.names_iff hname).1 h]
    exact hinside.trans (List.prefix_append directory [name])
  | renameTo h =>
    rw [(hreal'.names_iff hname').1 h]
    exact hinside'.trans (List.prefix_append directory' [name'])

end Opened

/-! ## The operations -/

/-- Nothing is asked of the end of a program. -/
abbrev anyEnd {α : Type} (_ : Except String α) (_ : LinkTree) : Prop := True

theorem bounded_okOr {α : Type} {o : Option α} {e : String} {Q : Except String α → LinkTree → Prop}
    (hsome : ∀ a, o = some a → Q (.ok a) t) (hnone : Q (.error e) t) :
    Bounded root Q (okOr o e : FileProg String α) t := by
  unfold okOr
  cases o with
  | none => exact hnone
  | some a => exact hsome a rfl

/-- **Reading stays inside.** -/
theorem bounded_readText (hroot : Physical t root) :
    Bounded root anyEnd (readText describe root relative) t := by
  unfold readText
  refine Meets.bind ((bounded_scopedPath hroot).imp fun r s ⟨hs, hr⟩ => ?_)
  subst hs
  cases r with
  | error e => exact trivial
  | ok target =>
    obtain ⟨components, rfl, hscoped⟩ := hr target rfl
    refine Meets.goOn (Meets.bind ⟨fun p h => ?_, fun r s _ => ?_⟩)
    · cases h with
      | read hleads hat =>
        rw [hscoped.eq_of_leads hroot (List.prefix_refl _) hleads
          (by rw [hat]; exact Option.some_ne_none _)]
        exact List.prefix_append root components
    · cases r with
      | error e => exact trivial
      | ok bytes =>
        exact Meets.bind (Meets.refuse (fun _ => trivial) fun _ =>
          bounded_okOr (fun _ _ => trivial) trivial)

theorem tempName_ne (fileName : String) : tempName actionId fileName ≠ ".." := by
  intro h
  have hlength := congrArg String.length h
  simp only [tempName, String.length_append] at hlength
  have hdot : ".".length = 1 := rfl
  have hmark : ".ntd97-".length = 7 := rfl
  have hdots : "..".length = 2 := rfl
  omega

/-- The name of a staged file. -/
def partName (actionId : ActionId) : String := toString actionId.val ++ ".part"

theorem partName_ne : partName actionId ≠ ".." := by
  intro h
  have hlength := congrArg String.length h
  simp only [partName, String.length_append] at hlength
  have hpart : ".part".length = 5 := rfl
  have hdots : "..".length = 2 := rfl
  omega

/-- Directories on the way to a path leave what stands in it. -/
theorem Grown.at_below {directory : Path} (h : Grown t s directory) (name : String) :
    s.at (directory ++ [name]) = t.at (directory ++ [name]) := by
  rcases h.at_eq (directory ++ [name]) with heq | ⟨-, -, hle⟩
  · exact heq
  · have hlength := hle.length_le
    simp at hlength

/-- A path that was accepted leads where it says, also when its parent is made. -/
theorem Scoped.eq_of_grown {dirs p : Path} {name : String}
    (h : Scoped t root relative (dirs ++ [name])) (hroot : Physical t root) (hrooted : Rooted t)
    (hname : name ≠ "..") (hgrown : Grown t s (root ++ dirs)) (hreal : Physical s (root ++ dirs))
    (hleads : Leads s [] (root ++ dirs ++ [name]) p) (hat : s.at p ≠ none) :
    p = root ++ dirs ++ [name] := by
  rcases (hreal.leads_append.1 hleads).eq_or_link hname with rfl | ⟨absolute, names, hlink⟩
  · rfl
  · obtain rfl := (hgrown.mono (List.prefix_append _ [name])).eq_of_link hrooted hlink
    rw [List.append_assoc] at hleads ⊢
    exact h.eq_of_leads hroot (List.prefix_refl _) hleads hat

/-- What stands at the target of a write can be kept for a rollback. -/
def Kept (t : LinkTree) (target : Path) : Prop :=
  t.at target ≠ some .directory ∧
    ∀ previous, t.at target = some (.file previous) → previous.length ≤ maxPlatformTextBytes

theorem length_of_rollbackToken {limit overflow : String} {previous token : Bytes}
    (h : rollbackToken describe limit overflow what (.ok previous) = .ok token) :
    previous.length ≤ maxPlatformTextBytes := by
  obtain ⟨_, hrefuse, -⟩ := bind_eq_ok.1 h
  exact Nat.le_of_not_lt (refuse_eq_ok.1 hrefuse)

theorem bounded_rollbackSnapshot {directory : Path} {name limit overflow : String}
    (hreal : Physical s directory) (hname : name ≠ "..")
    (hinside : ∀ p, Leads s [] (directory ++ [name]) p → s.at p ≠ none → root <+: p) :
    Bounded root (fun r u => u = s ∧ ∀ token, r = .ok token → Kept s (directory ++ [name]))
      (rollbackSnapshot describe (directory ++ [name]) limit overflow what) s := by
  have hdir : s.at (directory ++ [name]) = some .directory →
      Leads s [] (directory ++ [name]) (directory ++ [name]) := fun hat =>
    hreal.leads_append.2 (.down hname hat (.here _))
  have hfile : ∀ previous, s.at (directory ++ [name]) = some (.file previous) →
      Leads s [] (directory ++ [name]) (directory ++ [name]) := fun previous hat =>
    hreal.leads_append.2 (.file hname hat)
  refine ⟨fun p h => ?_, fun r u h => ?_⟩
  · cases h with
    | read hleads hat => exact hinside p hleads (by rw [hat]; exact Option.some_ne_none _)
  · cases h with
    | refused _ _ e h hread =>
      refine ⟨rfl, fun token hok => ?_⟩
      have hne := hread _ rfl
      cases e with
      | notFound => exact absurd rfl hne
      | notADirectory | isADirectory | alreadyExists | host => exact absurd hok (by intro h; cases h)
    | notThere h =>
      refine ⟨rfl, fun _ _ => ⟨fun hat => h ⟨_, hdir hat, ?_⟩, fun previous hat =>
        absurd ⟨_, hfile previous hat, ?_⟩ h⟩⟩
      · rw [hat]
        exact Option.some_ne_none _
      · rw [hat]
        exact Option.some_ne_none _
    | holds hleads hat =>
      refine ⟨rfl, fun token hok => ⟨fun hat' => ?_, fun previous hat' => ?_⟩⟩
      · rw [hleads.unique (hdir hat'), hat] at hat'
        cases hat'
      · rw [hleads.unique (hfile previous hat'), hat] at hat'
        obtain rfl := Node.file.inj (Option.some.inj hat')
        exact length_of_rollbackToken hok

/-- **The temp file of a write is inside**, where the write comes to it. -/
def TempInside (t : LinkTree) (root : Path) (actionId : ActionId) (relative : String)
    (bytes : Bytes) : Prop :=
  bytes.length ≤ maxPlatformTextBytes → ∀ dirs name, Scoped t root relative (dirs ++ [name]) →
    Kept t (root ++ dirs ++ [name]) → OpensInside t root (root ++ dirs) (tempName actionId name)

/-- **A write stays inside** as long as its temp file does. -/
theorem bounded_writeAtomic {bytes : Bytes} (hrooted : Rooted t) (hroot : Physical t root)
    (htemp : TempInside t root actionId relative bytes) :
    Bounded root anyEnd (writeAtomic describe root actionId relative bytes) t := by
  unfold writeAtomic
  refine Meets.bind (Meets.refuse (fun _ => trivial) fun hlimit => Meets.goOn (Meets.bind
    ((bounded_scopedPath hroot).imp fun r s ⟨hs, hr⟩ => ?_)))
  subst hs
  cases r with
  | error e => exact trivial
  | ok target =>
    obtain ⟨components, rfl, hscoped⟩ := hr target rfl
    obtain ⟨dirs, name, rfl, hname, hplain⟩ := hscoped.parts
    rw [← List.append_assoc]
    refine Meets.goOn ?_
    rw [List.dropLast_concat, List.getLast?_concat]
    refine Meets.bind ((bounded_createDirAll hrooted hroot hscoped hplain).imp fun r u hr => ?_)
    cases r with
    | error e => exact trivial
    | ok _ =>
      obtain ⟨hgrown, hreal⟩ := hr rfl
      refine Meets.goOn (Meets.bind (bounded_canonicalDirectory.imp fun r v ⟨hv, hr⟩ => ?_))
      subst hv
      cases r with
      | error e => exact trivial
      | ok canonicalParent =>
        obtain rfl := hreal.leads.unique (hr _ rfl).1
        have hinside := List.prefix_append root dirs
        refine Meets.goOn (Meets.bind ((bounded_rollbackSnapshot hreal hname
          fun p hleads hat => ?_).imp fun r v ⟨hv, hr⟩ => ?_))
        · rw [hscoped.eq_of_grown hroot hrooted hname hgrown hreal hleads hat, List.append_assoc]
          exact List.prefix_append root _
        subst hv
        cases r with
        | error e => exact trivial
        | ok rollback =>
          have hkept : Kept s (root ++ dirs ++ [name]) := by
            have hkept := hr rollback rfl
            rwa [Kept, hgrown.at_below] at hkept
          have hopens := (htemp (Nat.le_of_not_lt hlimit) dirs name hscoped hkept).grown hrooted
            hgrown hinside (tempName_ne name)
          refine Meets.goOn (Meets.bind (Meets.goOn (Meets.bind ((bounded_create hreal hopens).imp
            fun r w hr => ?_))))
          cases r with
          | error e => exact trivial
          | ok _ =>
            refine Meets.goOn (Meets.bind ((bounded_append hreal hopens (hr rfl)).imp
              fun r w hwritten => ?_))
            cases r with
            | error e => exact trivial
            | ok _ =>
              refine Meets.goOn (Meets.bind (bounded_sync fun r => ?_))
              cases r with
              | error e => exact trivial
              | ok _ =>
                refine Meets.goOn (Meets.bind ((bounded_rename (hwritten.physical hreal)
                  (hwritten.physical hreal) (tempName_ne name) hname hinside hinside).imp
                    fun r w _ => ?_))
                cases r with
                | error e => exact trivial
                | ok _ => exact Meets.goOn trivial

/-- **What a rollback would create through a dangling link is inside.** -/
def TargetInside (t : LinkTree) (root : Path) (relative : String) (token : Bytes) : Prop :=
  token.head? = some 1 → 5 ≤ token.length → ofLe ((token.drop 1).take 4) ≤ maxPlatformTextBytes →
    token.length = ofLe ((token.drop 1).take 4) + 5 → ∀ dirs name,
      Scoped t root relative (dirs ++ [name]) → ∀ p, Leads t (root ++ dirs) [name] p →
        t.at p = none → root <+: p

theorem bounded_removeWritten {components : Path} (hroot : Physical t root)
    (hscoped : Scoped t root relative components) :
    Bounded root anyEnd (removeWritten describe (root ++ components)) t := by
  obtain ⟨dirs, name, rfl, hname, hplain⟩ := hscoped.parts
  refine ⟨fun p h => ?_, fun r s _ => ?_⟩
  · cases h with
    | remove h =>
      obtain ⟨above, last, d, heq, -, hleads, hat, rfl⟩ := h
      rw [← List.append_assoc] at heq
      obtain ⟨rfl, -⟩ := List.append_inj' heq rfl
      rw [hscoped.eq_of_leads hroot (List.prefix_append dirs [name]) hleads
        (by rw [hat]; exact Option.some_ne_none _), List.append_assoc]
      exact List.prefix_append root _
  · cases r with
    | ok _ => exact trivial
    | error e => cases e <;> exact trivial

/-- A token that says neither that there was no file nor what it held. -/
theorem token_other {token : Bytes} {zero one : Bytes → FileProg String Unit}
    {program other : FileProg String Unit}
    (h : program = match token with
      | 0 :: rest => zero rest
      | 1 :: rest => one rest
      | _ => other)
    (hzero : ∀ rest, token = 0 :: rest → False) (hone : ∀ rest, token = 1 :: rest → False) :
    program = other := by
  rw [h]
  split
  · exact (hzero _ rfl).elim
  · exact (hone _ rfl).elim
  · rfl

/-- **A rollback stays inside** as long as no dangling link at its target leads out. -/
theorem bounded_rollbackWrite {token : Bytes} (hrooted : Rooted t) (hroot : Physical t root)
    (htarget : TargetInside t root relative token) :
    Bounded root anyEnd (rollbackWrite describe root relative token) t := by
  unfold rollbackWrite
  refine Meets.bind ((bounded_scopedPath hroot).imp fun r s ⟨hs, hr⟩ => ?_)
  subst hs
  cases r with
  | error e => exact trivial
  | ok target =>
    obtain ⟨components, rfl, hscoped⟩ := hr target rfl
    refine Meets.goOn ?_
    split
    · exact Meets.bind (Meets.refuse (fun _ => trivial) fun _ =>
        Meets.goOn (bounded_removeWritten hroot hscoped))
    · next rest =>
      refine Meets.bind (Meets.refuse (fun _ => trivial) fun hlong => Meets.goOn (Meets.bind
        (Meets.refuse (fun _ => trivial) fun hlen => Meets.goOn ?_)))
      rw [not_or, not_not, Nat.not_lt] at hlen
      obtain ⟨dirs, name, rfl, hname, hplain⟩ := hscoped.parts
      rw [← List.append_assoc, List.dropLast_concat]
      refine Meets.bind ((bounded_createDirAll hrooted hroot hscoped hplain).imp fun r u hr => ?_)
      cases r with
      | error e => exact trivial
      | ok _ =>
        obtain ⟨hgrown, hreal⟩ := hr rfl
        have hinside := List.prefix_append root dirs
        have hopens : OpensInside u root (root ++ dirs) name := by
          intro p hleads hat
          by_cases hnone : u.at p = none
          · rcases hleads.eq_or_link hname with rfl | ⟨absolute, names, hlink⟩
            · exact hinside.trans (List.prefix_append _ _)
            · obtain rfl := (hgrown.mono (List.prefix_append _ [name])).eq_of_link hrooted hlink
              refine htarget rfl ?_ hlen.1 ?_ dirs name hscoped p hleads hnone
              · simp only [List.length_cons]
                omega
              · simp only [List.length_cons, List.drop_succ_cons, List.drop_zero]
                omega
          · rw [hscoped.eq_of_grown hroot hrooted hname hgrown hreal
              (hreal.leads_append.2 hleads) hnone]
            exact hinside.trans (List.prefix_append _ [name])
        refine Meets.goOn (Meets.bind ((bounded_create hreal hopens).imp fun r w hr => ?_))
        cases r with
        | error e => exact trivial
        | ok _ =>
          exact Meets.goOn ((bounded_append hreal hopens (hr rfl)).imp fun _ _ _ => trivial)
    · next hzero hone =>
      have hthrow : ∀ p : FileProg String Unit,
          p = throw "invalid app-private rollback token" → Bounded root anyEnd p s := by
        rintro _ rfl
        exact trivial
      refine hthrow _ ?_
      exact token_other rfl hzero hone

/-! ## Staging -/

/-- Where downloads are staged. -/
def stagingOf (root : Path) : Path := root ++ [".ntd97-download"]

/-- **What is opened of a staged file is inside**, in a staging directory that is. -/
def StageInside (t : LinkTree) (root : Path) (actionId : ActionId) : Prop :=
  ∀ directory, Leads t [] (stagingOf root) directory → root <+: directory →
    OpensInside t root directory (partName actionId)

/-- The same, if it is only read. -/
def StageReads (t : LinkTree) (root : Path) (actionId : ActionId) : Prop :=
  ∀ directory, Leads t [] (stagingOf root) directory → root <+: directory →
    ∀ p bytes, Leads t directory [partName actionId] p → t.at p = some (.file bytes) → root <+: p

/-- **The staging directory** that a call has made, or found, and where its files are. -/
structure Stage (t s : LinkTree) (root directory : Path) : Prop where
  real : Physical s directory
  inside : root <+: directory
  leads : Leads s [] (stagingOf root) directory
  grown : Grown t s (stagingOf root)

theorem bounded_stagePath (hrooted : Rooted t) (hroot : Physical t root) :
    Bounded root (fun r s => ∀ stage, r = .ok stage → ∃ directory,
      stage = directory ++ [partName actionId] ∧ Stage t s root directory)
      (stagePath describe root actionId) t := by
  unfold stagePath
  have hplain : ".." ∉ stagingOf root := by
    rw [stagingOf, List.mem_append, List.mem_singleton, not_or]
    exact ⟨hroot.plain, by decide⟩
  have hfree : ∀ q, q <+: stagingOf root → q ≠ stagingOf root → Physical t q ∨ Unlinked t q := by
    intro q hq hne
    rcases List.prefix_concat_iff.1 hq with rfl | hq
    · exact absurd rfl hne
    · exact .inl (hroot.of_isPrefix hq)
  refine Meets.bind ((bounded_makeDirs hrooted hroot (stagingOf root)
    (.inr (List.prefix_append root _)) hplain hfree).imp fun r s hr => ?_)
  cases r with
  | error e => exact fun _ h => by cases h
  | ok _ =>
    obtain ⟨hgrown, -, p, hleads, hat⟩ := hr rfl
    refine Meets.goOn (Meets.bind (bounded_canonicalDirectory.imp fun r u ⟨hu, hr⟩ => ?_))
    subst hu
    cases r with
    | error e => exact fun _ h => by cases h
    | ok canonical =>
      obtain ⟨hcanonical, hinside⟩ := hr canonical rfl
      obtain rfl := hleads.unique hcanonical
      refine Meets.goOn fun stage hstage => ⟨canonical, (Except.ok.inj hstage).symm, ?_⟩
      exact ⟨hleads.real (.nil _) hat, hinside, hleads, hgrown⟩

/-- Below a link nothing was made. -/
theorem Stage.eq_of_link {directory : Path} (h : Stage t s root directory) (hrooted : Rooted t)
    {name : String} {absolute : Bool} {names : List String}
    (hlink : s.at (directory ++ [name]) = some (.link absolute names)) (hroot : Physical t root) :
    s = t := by
  rcases ((h.grown.real hroot).leads_append.1 h.leads).eq_or_link (by decide) with
    rfl | ⟨_, _, hlinked⟩
  · exact (h.grown.mono (List.prefix_append _ [name])).eq_of_link hrooted hlink
  · exact h.grown.eq_of_link hrooted hlinked

theorem Stage.opensInside {directory : Path} (h : Stage t s root directory) (hrooted : Rooted t)
    (hroot : Physical t root) (hstage : StageInside t root actionId) :
    OpensInside s root directory (partName actionId) := by
  intro p hleads hat
  rcases hleads.eq_or_link partName_ne with rfl | ⟨absolute, names, hlink⟩
  · exact h.inside.trans (List.prefix_append _ _)
  · obtain rfl := h.eq_of_link hrooted hlink hroot
    exact hstage directory h.leads h.inside p hleads hat

theorem Stage.readsInside {directory p : Path} {bytes : Bytes} (h : Stage t s root directory)
    (hrooted : Rooted t) (hroot : Physical t root) (hstage : StageReads t root actionId)
    (hleads : Leads s directory [partName actionId] p) (hat : s.at p = some (.file bytes)) :
    root <+: p := by
  rcases hleads.eq_or_link partName_ne with rfl | ⟨absolute, names, hlink⟩
  · exact h.inside.trans (List.prefix_append _ _)
  · obtain rfl := h.eq_of_link hrooted hlink hroot
    exact hstage directory h.leads h.inside p bytes hleads hat

/-- **Staging stays inside** as long as the staged file does. -/
theorem bounded_writeStaging {body : Bytes} (hrooted : Rooted t) (hroot : Physical t root)
    (hstage : body.length ≤ maxPlatformTextBytes → StageInside t root actionId) :
    Bounded root anyEnd (writeStaging describe root actionId body) t := by
  unfold writeStaging
  refine Meets.bind (Meets.refuse (fun _ => trivial) fun hlimit => Meets.goOn (Meets.bind
    ((bounded_stagePath hrooted hroot).imp fun r s hr => ?_)))
  cases r with
  | error e => exact trivial
  | ok stage =>
    obtain ⟨directory, rfl, hdirectory⟩ := hr stage rfl
    have hopens := hdirectory.opensInside hrooted hroot (hstage (Nat.le_of_not_lt hlimit))
    refine Meets.goOn (Meets.bind ((bounded_create hdirectory.real hopens).imp fun r u hr => ?_))
    cases r with
    | error e => exact trivial
    | ok _ =>
      refine Meets.goOn (Meets.bind ((bounded_append hdirectory.real hopens (hr rfl)).imp
        fun r u _ => ?_))
      cases r with
      | error e => exact trivial
      | ok _ =>
        refine Meets.goOn (Meets.bind (bounded_sync fun r => ?_))
        cases r with
        | error e => exact trivial
        | ok _ => exact Meets.goOn trivial

/-- Entries stand in directories, also in those that were made. -/
theorem Grown.rooted (h : Grown t s path) (hrooted : Rooted t) (hreal : Physical s path.dropLast) :
    Rooted s := by
  intro p name hat
  rcases h.at_eq (p ++ [name]) with heq | ⟨-, -, hle⟩
  · rw [heq] at hat
    rcases h.at_eq p with heq' | ⟨-, hdir, -⟩
    · rw [heq', hrooted p name hat]
    · exact hdir
  · obtain ⟨rest, rfl⟩ := hle
    refine hreal.directory p ?_
    rw [List.append_assoc, List.singleton_append,
      List.dropLast_append_of_ne_nil (List.cons_ne_nil name rest)]
    exact List.prefix_append p _

/-- **A commit stays inside** as long as the staged file it reads does. -/
theorem bounded_commitStaging {expectedHash : Bytes} (hrooted : Rooted t) (hroot : Physical t root)
    (hstage : StageReads t root actionId) :
    Bounded root anyEnd (commitStaging describe root actionId relative expectedHash) t := by
  unfold commitStaging
  refine Meets.bind ((bounded_stagePath hrooted hroot).imp fun r s hr => ?_)
  cases r with
  | error e => exact trivial
  | ok stage =>
    obtain ⟨directory, rfl, hdirectory⟩ := hr stage rfl
    have hroot' := hdirectory.grown.real hroot
    have hrooted' : Rooted s := hdirectory.grown.rooted hrooted (by
      rwa [stagingOf, List.dropLast_concat])
    refine Meets.goOn (Meets.bind ⟨fun p h => ?_, fun r u h => ?_⟩)
    · cases h with
      | read hleads hat =>
        exact hdirectory.readsInside hrooted hroot hstage (hdirectory.real.leads_append.1 hleads) hat
    · have hsame : u = s := by
        cases h <;> rfl
      subst hsame
      cases r with
      | error e => exact trivial
      | ok bytes =>
        refine Meets.goOn (Meets.bind (Meets.refuse (fun _ => trivial) fun _ => Meets.goOn (Meets.bind
          ((bounded_scopedPath hroot').imp fun r v ⟨hv, hr⟩ => ?_))))
        subst hv
        cases r with
        | error e => exact trivial
        | ok target =>
          obtain ⟨components, rfl, hscoped⟩ := hr target rfl
          obtain ⟨dirs, name, rfl, hname, hplain⟩ := hscoped.parts
          rw [← List.append_assoc]
          refine Meets.goOn ?_
          rw [List.dropLast_concat]
          refine Meets.bind ((bounded_createDirAll hrooted' hroot' hscoped hplain).imp
            fun r w hr => ?_)
          cases r with
          | error e => exact trivial
          | ok _ =>
            obtain ⟨hgrown, hreal⟩ := hr rfl
            refine Meets.goOn (Meets.bind (bounded_canonicalDirectory.imp fun r x ⟨hx, _⟩ => ?_))
            subst hx
            cases r with
            | error e => exact trivial
            | ok canonicalParent =>
              refine Meets.goOn (Meets.bind ((bounded_rename (hgrown.real hdirectory.real) hreal
                partName_ne hname hdirectory.inside (List.prefix_append root dirs)).imp
                  fun r y _ => ?_))
              cases r with
              | error e => exact trivial
              | ok _ =>
                refine Meets.goOn (Meets.bind (bounded_sync fun r => ?_))
                cases r with
                | error e => exact trivial
                | ok _ => exact Meets.goOn trivial

/-! ## Runs that come to a call -/

/-- **A program that may come to an end** of its own: what holds in the end of all its runs holds
there. -/
def Passes {α : Type} (root : Path) (program : FileProg String α) (t : LinkTree) (a : α) : Prop :=
  ∀ Q : Except String α → LinkTree → Prop, Bounded root Q program t → Q (.ok a) t

theorem Passes.forM {γ : Type} {f : γ → FileProg String PUnit} : ∀ {l : List γ},
    (∀ x ∈ l, Passes root (f x) t ⟨⟩) → Passes root (l.forM f) t ⟨⟩
  | [], _, _, h => h
  | x :: l, hl, Q, h => by
      obtain ⟨hx, hl⟩ := List.forall_mem_cons.1 hl
      exact Passes.forM hl Q (hx _ (Meets.of_bind h))

theorem passes_inspect {above : Path} {name : String} (hreal : Physical t above)
    (hname : name ≠ "..") (hunlinked : Unlinked t (above ++ [name])) :
    Passes root (inspect describe (above ++ [name])) t () := by
  intro Q h
  by_cases hreaches : Reaches t [] (above ++ [name])
  · obtain ⟨p, hleads, hp⟩ := hreaches
    have hleads' := hreal.leads_append.1 hleads
    have hno := hunlinked above name rfl hreal ⟨p, hleads', hp⟩
    obtain rfl := hleads'.eq_of_no_link hname hno
    obtain ⟨node, hnode⟩ := Option.ne_none_iff_exists'.1 hp
    have hkind : ¬ node.kind = .link := by
      cases node with
      | file bytes => exact fun h => by cases h
      | directory => exact fun h => by cases h
      | link absolute names => exact absurd hnode (hno absolute names)
    have hrest := (h.2 _ _ (.there ⟨_, hleads, hp⟩)).2 _ _
      (.told ((hreal.names_iff hname).2 rfl) hnode)
    change Meets _ _ _ (refuse (node.kind = .link) _) t at hrest
    rw [Guard.refuse, if_neg hkind] at hrest
    exact hrest
  · exact h.2 _ _ (.absent .notFound hreaches)

theorem passes_scopedPath {dirs : Path} {name : String} (hreal : Physical t (root ++ dirs))
    (h : Scoped t root relative (dirs ++ [name])) :
    Passes root (scopedPath describe root relative) t (root ++ (dirs ++ [name])) := by
  intro Q hbounded
  have hrest := Meets.of_bind hbounded
  rw [h.accepted] at hrest
  refine Passes.forM (fun x hx => ?_) _ (Meets.of_bind hrest)
  have hle : x <+: dirs ++ [name] := (List.mem_inits _ _).1 (List.mem_of_mem_tail hx)
  have hne : x ≠ [] := by
    rintro rfl
    cases dirs <;> simp at hx
  obtain ⟨above, last, rfl⟩ := (List.eq_nil_or_concat' x).resolve_left hne
  have habove : above <+: dirs := by
    rcases List.prefix_concat_iff.1 hle with heq | hle
    · rw [(List.append_inj' heq rfl).1]
    · exact (List.prefix_append above [last]).trans hle
  rw [← List.append_assoc]
  refine passes_inspect (hreal.of_isPrefix ((List.prefix_append_right_inj root).2 habove)) ?_ ?_
  · rintro rfl
    exact scopedPath_plain h.accepted (hle.subset (by simp))
  · rw [List.append_assoc]
    exact h.unlinked _ hle hne

theorem passes_createDirAll (h : ∀ q, q <+: path → ∃ p, Leads t [] q p ∧ t.at p = some .directory) :
    Passes root (createDirAll describe what path) t ⟨⟩ := by
  refine Passes.forM fun q hq => ?_
  intro Q hbounded
  obtain ⟨p, hleads, hat⟩ := h q ((List.mem_inits _ _).1 hq)
  exact hbounded.2 _ _ (.isDirectory hleads hat)

theorem passes_canonicalDirectory {escaped : String} {p : Path} (hleads : Leads t [] path p)
    (hat : t.at p ≠ none) (hinside : root <+: p) :
    Passes root (canonicalDirectory describe root path what escaped) t p := by
  intro Q hbounded
  have hrest := (Meets.of_bind hbounded).2 _ _ (.canonical hleads hat)
  change Meets _ _ Q (refuse (¬ root <+: p) escaped >>= fun _ => pure p) t at hrest
  rw [Guard.refuse, if_neg (not_not.2 hinside)] at hrest
  exact hrest

theorem passes_rollbackSnapshot {directory : Path} {name limit overflow : String}
    (hreal : Physical t directory) (hname : name ≠ "..") (hkept : Kept t (directory ++ [name]))
    (hunlinked : Unlinked t (directory ++ [name])) :
    ∃ token, Passes root
      (rollbackSnapshot describe (directory ++ [name]) limit overflow what) t token := by
  by_cases hfile : ∃ previous, t.at (directory ++ [name]) = some (.file previous)
  · obtain ⟨previous, hat⟩ := hfile
    have hlength := hkept.2 previous hat
    have hsmall : previous.length < 2 ^ 32 := hlength.trans_lt (by decide)
    refine ⟨1 :: leBytes 4 previous.length ++ previous, fun Q h => ?_⟩
    have hread := h.2 _ _ (.holds (hreal.leads_append.2 (.file hname hat)) hat)
    have htoken : rollbackToken describe limit overflow what (.ok previous) =
        .ok (1 :: leBytes 4 previous.length ++ previous) := by
      rw [rollbackToken, Guard.refuse, if_neg (Nat.not_lt.2 hlength), Guard.refuse,
        if_neg (Nat.not_le.2 hsmall)]
      rfl
    change Q (rollbackToken describe limit overflow what (.ok previous)) t at hread
    rwa [htoken] at hread
  · refine ⟨[0], fun Q h => h.2 _ _ (.notThere ?_)⟩
    rintro ⟨p, hleads, hp⟩
    have hleads' := hreal.leads_append.1 hleads
    have hno := hunlinked directory name rfl hreal ⟨p, hleads', hp⟩
    obtain rfl := hleads'.eq_of_no_link hname hno
    obtain ⟨node, hnode⟩ := Option.ne_none_iff_exists'.1 hp
    cases node with
    | file previous => exact hfile ⟨previous, hnode⟩
    | directory => exact hkept.1 hnode
    | link absolute names => exact hno absolute names hnode

/-- **A file of a real directory that a program comes to open** is inside. -/
theorem inside_of_create {α : Type} {directory p : Path} {name : String}
    {f : Unit → FileProg String α} {Q : Except String α → LinkTree → Prop}
    (h : Bounded root Q (ask describe what (.create (directory ++ [name])) >>= f) t)
    (hreal : Physical t directory) (hleads : Leads t directory [name] p)
    (hat : t.at p ≠ some .directory) : root <+: p :=
  h.1 p (.create (hreal.leads_append.2 hleads) hat)

/-- Only in a directory a name leads elsewhere. -/
theorem inside_of_not_directory {directory p : Path} {name : String} (hrooted : Rooted t)
    (hname : name ≠ "..") (hinside : root <+: directory) (hleads : Leads t directory [name] p)
    (h : t.at directory = some .directory → root <+: p) : root <+: p := by
  rcases hleads.eq_or_link hname with rfl | ⟨absolute, names, hlink⟩
  · exact hinside.trans (List.prefix_append directory [name])
  · exact h (hrooted directory name (by rw [hlink]; exact Option.some_ne_none _))

/-- A directory in plain names is a real one. -/
theorem real_of_directory {p : Path} (hrooted : Rooted t) (hplain : ".." ∉ p)
    (hat : t.at p = some .directory) : Physical t p := ⟨hplain, hrooted.directory hat⟩

theorem leads_of_real {q : Path} (hreal : Physical t path) (hq : q <+: path) :
    ∃ p, Leads t [] q p ∧ t.at p = some .directory :=
  ⟨q, (hreal.of_isPrefix hq).leads, (hreal.of_isPrefix hq).self⟩

theorem tempInside_of_stays {bytes : Bytes} (hrooted : Rooted t) (hroot : Physical t root)
    (h : Stays root (writeAtomic describe root actionId relative bytes) t) :
    TempInside t root actionId relative bytes := by
  intro hlimit dirs name hscoped hkept p hleads hat
  have hinside := List.prefix_append root dirs
  refine inside_of_not_directory hrooted (tempName_ne name) hinside hleads fun hdir => ?_
  have hplain := scopedPath_plain hscoped.accepted
  rw [List.mem_append, List.mem_singleton, not_or] at hplain
  have hreal : Physical t (root ++ dirs) := by
    refine real_of_directory hrooted ?_ hdir
    rw [List.mem_append, not_or]
    exact ⟨hroot.plain, hplain.1⟩
  have hbounded := h.bounded
  unfold writeAtomic at hbounded
  rw [Guard.refuse, if_neg (Nat.not_lt.2 hlimit)] at hbounded
  have h₁ := passes_scopedPath hreal hscoped _ (Meets.of_bind hbounded)
  rw [← List.append_assoc] at h₁
  simp only [Meets.thenMeets, List.dropLast_concat, List.getLast?_concat] at h₁
  have h₂ := passes_createDirAll (fun q hq => leads_of_real hreal hq) _ (Meets.of_bind h₁)
  have h₃ := passes_canonicalDirectory hreal.leads (by rw [hdir]; exact Option.some_ne_none _)
    hinside _ (Meets.of_bind h₂)
  have hunlinked : Unlinked t (root ++ dirs ++ [name]) := by
    rw [List.append_assoc]
    exact hscoped.unlinked _ (List.prefix_refl _) (List.concat_ne_nil name dirs)
  obtain ⟨token, htoken⟩ : ∃ token, Passes root (rollbackSnapshot describe (root ++ dirs ++ [name])
      "existing app-private file exceeds rollback limit" "rollback length overflow"
      "snapshot app-private file for rollback") t token :=
    passes_rollbackSnapshot hreal (Ne.symm hplain.2) hkept hunlinked
  have h₄ := htoken _ (Meets.of_bind h₃)
  exact inside_of_create h₄ hreal hleads hat

theorem targetInside_of_stays {token : Bytes} (hrooted : Rooted t) (hroot : Physical t root)
    (h : Stays root (rollbackWrite describe root relative token) t) :
    TargetInside t root relative token := by
  intro hhead hlong hlimit hlength dirs name hscoped p hleads hat
  have hinside := List.prefix_append root dirs
  have hplain := scopedPath_plain hscoped.accepted
  rw [List.mem_append, List.mem_singleton, not_or] at hplain
  refine inside_of_not_directory hrooted (Ne.symm hplain.2) hinside hleads fun hdir => ?_
  have hreal : Physical t (root ++ dirs) := by
    refine real_of_directory hrooted ?_ hdir
    rw [List.mem_append, not_or]
    exact ⟨hroot.plain, hplain.1⟩
  obtain ⟨rest, rfl⟩ := List.head?_eq_some_iff.1 hhead
  rw [List.length_cons] at hlong hlength
  rw [List.drop_succ_cons, List.drop_zero] at hlimit hlength
  have hbounded := h.bounded
  unfold rollbackWrite at hbounded
  have h₁ := passes_scopedPath hreal hscoped _ (Meets.of_bind hbounded)
  rw [← List.append_assoc] at h₁
  change Meets _ _ _ (refuse (rest.length < 4) _ >>= fun _ => refuse (maxPlatformTextBytes <
    ofLe (rest.take 4) ∨ rest.length ≠ ofLe (rest.take 4) + 4) _ >>= fun _ => _) t at h₁
  rw [Guard.refuse, if_neg (by omega), Guard.refuse, if_neg (by omega)] at h₁
  simp only [List.dropLast_concat] at h₁
  have h₂ := passes_createDirAll (fun q hq => leads_of_real hreal hq) _ (Meets.of_bind h₁)
  exact inside_of_create h₂ hreal hleads (by rw [hat]; exact (Option.some_ne_none _).symm)

/-- **A staging directory inside** is found, whatever links lead to it. -/
theorem passes_stagePath {directory : Path} (hroot : Physical t root)
    (hleads : Leads t [] (stagingOf root) directory) (hinside : root <+: directory)
    (hat : t.at directory = some .directory) :
    Passes root (stagePath describe root actionId) t (directory ++ [partName actionId]) := by
  intro Q h
  unfold stagePath at h
  have h₁ := passes_createDirAll (fun q (hq : q <+: stagingOf root) => ?_) _ (Meets.of_bind h)
  · exact passes_canonicalDirectory hleads (by rw [hat]; exact Option.some_ne_none _) hinside _
      (Meets.of_bind h₁)
  · rcases List.prefix_concat_iff.1 hq with rfl | hq
    · exact ⟨directory, hleads, hat⟩
    · exact leads_of_real hroot hq

theorem stageInside_of_stays {body : Bytes} (hrooted : Rooted t) (hroot : Physical t root)
    (h : Stays root (writeStaging describe root actionId body) t)
    (hlimit : body.length ≤ maxPlatformTextBytes) : StageInside t root actionId := by
  intro directory hdirectory hinside p hleads hat
  refine inside_of_not_directory hrooted partName_ne hinside hleads fun hdir => ?_
  have hbounded := h.bounded
  unfold writeStaging at hbounded
  rw [Guard.refuse, if_neg (Nat.not_lt.2 hlimit)] at hbounded
  have h₁ := passes_stagePath hroot hdirectory hinside hdir _ (Meets.of_bind hbounded)
  exact inside_of_create h₁ (hdirectory.real (.nil t) hdir) hleads hat

theorem stageReads_of_stays {expectedHash : Bytes} (hrooted : Rooted t) (hroot : Physical t root)
    (h : Stays root (commitStaging describe root actionId relative expectedHash) t) :
    StageReads t root actionId := by
  intro directory hdirectory hinside p bytes hleads hat
  refine inside_of_not_directory hrooted partName_ne hinside hleads fun hdir => ?_
  have hbounded := h.bounded
  unfold commitStaging at hbounded
  have h₁ := passes_stagePath hroot hdirectory hinside hdir _ (Meets.of_bind hbounded)
  exact h₁.1 p (.read ((hdirectory.real (.nil t) hdir).leads_append.2 hleads) hat)

/-- **When the file adapters stay below the root**, whatever links there are: reading always does;
a write does exactly if what it opens as its temp file is inside, a rollback if no dangling link at
its target leads out, staging if what it opens as the staged file is inside, and a commit if what it
reads as the staged file is. -/
theorem files_stay_iff (describe : IoError → String) {t : LinkTree} {root : Path}
    (hrooted : Rooted t) (hroot : Physical t root) :
    (∀ relative, Stays root (readText describe root relative) t) ∧
    (∀ actionId relative bytes, Stays root (writeAtomic describe root actionId relative bytes) t ↔
      TempInside t root actionId relative bytes) ∧
    (∀ relative token, Stays root (rollbackWrite describe root relative token) t ↔
      TargetInside t root relative token) ∧
    (∀ actionId body, Stays root (writeStaging describe root actionId body) t ↔
      (body.length ≤ maxPlatformTextBytes → StageInside t root actionId)) ∧
    ∀ actionId relative expectedHash,
      Stays root (commitStaging describe root actionId relative expectedHash) t ↔
        StageReads t root actionId :=
  ⟨fun _ => (bounded_readText hroot).stays,
    fun _ _ _ => ⟨tempInside_of_stays hrooted hroot,
      fun h => (bounded_writeAtomic hrooted hroot h).stays⟩,
    fun _ _ => ⟨targetInside_of_stays hrooted hroot,
      fun h => (bounded_rollbackWrite hrooted hroot h).stays⟩,
    fun _ _ => ⟨stageInside_of_stays hrooted hroot,
      fun h => (bounded_writeStaging hrooted hroot h).stays⟩,
    fun _ _ _ => ⟨stageReads_of_stays hrooted hroot,
      fun h => (bounded_commitStaging hrooted hroot h).stays⟩⟩

end Contained

/-! ## Links that lead out -/

namespace LinkedSample

def describe (_ : IoError) : String := "io"

/-- The link at the temp file of action 7 leads to a file that is not there yet, outside. -/
def tree : LinkTree := fun p =>
  if p = ["files"] then some .directory
  else if p = ["files", ".note.ntd97-7"] then some (.link true ["secret"])
  else none

theorem rooted_tree : Rooted tree := by
  intro p name hat
  rw [at_append, tree] at hat
  split at hat
  · next h =>
    obtain ⟨rfl, -⟩ := List.append_inj' (show p ++ [name] = [] ++ ["files"] from h) rfl
    exact at_nil tree
  · split at hat
    · next h =>
      have hsplit : p ++ [name] = ["files"] ++ [".note.ntd97-7"] := h
      obtain ⟨rfl, -⟩ := List.append_inj' hsplit rfl
      rfl
    · exact absurd rfl hat

theorem physical_files : Physical tree ["files"] := by
  refine ⟨by decide, fun q hq => ?_⟩
  rcases List.prefix_concat_iff.1 (show q <+: [] ++ ["files"] from hq) with rfl | hq
  · rfl
  · rw [List.prefix_nil.1 hq]
    exact at_nil tree

theorem scoped_note : Scoped tree ["files"] "note" ([] ++ ["note"]) := by
  refine ⟨by decide, fun q hq hne above name heq _ _ absolute names hlink => ?_⟩
  rcases List.prefix_concat_iff.1 hq with rfl | hq
  · have hat : tree.at (["files"] ++ ([] ++ ["note"])) = none := by decide
    rw [hat] at hlink
    cases hlink
  · exact hne (List.prefix_nil.1 hq)

theorem kept_note : Kept tree (["files"] ++ [] ++ ["note"]) := by
  have hat : tree.at (["files"] ++ [] ++ ["note"]) = none := by decide
  refine ⟨by rw [hat]; exact (Option.some_ne_none _).symm, fun previous h => ?_⟩
  rw [hat] at h
  cases h

theorem leads_secret :
    Leads tree (["files"] ++ []) [tempName ⟨7⟩ "note"] ["secret"] := by
  refine .follow (tempName_ne "note") (show tree.at _ = some (.link true ["secret"]) by decide) ?_
  exact .missing (by decide) (by decide)

/-- A write to `note` goes through its temp file to a place outside. -/
theorem not_tempInside : ¬ TempInside tree ["files"] ⟨7⟩ "note" [] := by
  intro h
  have hinside := h (Nat.zero_le _) [] "note" scoped_note kept_note ["secret"] leads_secret
    (by decide)
  exact absurd hinside (by decide)

end LinkedSample

open LinkedSample

/-- Where the link at the temp file leads out, reading stays inside, and the write does not. -/
theorem files_stay_iff_linked : Stays ["files"] (readText describe ["files"] "note") tree ∧
    ¬ Stays ["files"] (writeAtomic describe ["files"] ⟨7⟩ "note" []) tree :=
  ⟨(files_stay_iff describe rooted_tree physical_files).1 "note", fun h =>
    not_tempInside (((files_stay_iff describe rooted_tree physical_files).2.1 _ _ _).1 h)⟩

/-- **The file adapters do not stay below the root on every tree.** -/
theorem not_files_stay : ¬ ∀ (describe : IoError → String) (t : LinkTree) (root : Path),
    Rooted t → Physical t root →
      (∀ relative, Stays root (readText describe root relative) t) ∧
      (∀ actionId relative bytes,
        Stays root (writeAtomic describe root actionId relative bytes) t) ∧
      (∀ relative token, Stays root (rollbackWrite describe root relative token) t) ∧
      (∀ actionId body, Stays root (writeStaging describe root actionId body) t) ∧
      ∀ actionId relative expectedHash,
        Stays root (commitStaging describe root actionId relative expectedHash) t := fun h =>
  not_tempInside (tempInside_of_stays rooted_tree physical_files
    ((h describe tree ["files"] rooted_tree physical_files).2.1 ⟨7⟩ "note" []))

end Stepwise

end NTD97
