import Mathlib
import NTD97.Lib.FileCalls

/-!
# Lib/Links — a tree of files with symbolic links

    names ──walk down, follow what is a link──▸ the place they lead to

A call is given names.  `Leads` walks them down from a directory and follows the links on the way,
so the place it comes to may be anywhere; the last name need not be there yet.  On a `Physical` path
nothing is a link, and names lead where they say.
-/

namespace Steps.Meets

variable {C : Type} {R : C → Type} {S ε α β : Type} {does : Does R S} {P : C → S → Prop}

/-- What holds of one program after another holds of the first. -/
theorem of_bind {Q : Except ε β → S → Prop} {f : α → Prog R ε β} : ∀ {p : Prog R ε α} {s : S},
    Meets does P Q (p >>= f) s → Meets does P (thenMeets does P Q f) p s
  | .ret (.ok _), _, h => h
  | .ret (.error _), _, h => h
  | .call _ _, _, h => ⟨h.1, fun r s' hdoes => of_bind (h.2 r s' hdoes)⟩

/-- What every next call of every run is, the calls are. -/
theorem of_next : ∀ {p : Prog R ε α} {s : S},
    (∀ events s' c k, Run does s p events s' (.call c k) → P c s') →
      Meets does P (fun _ _ => True) p s
  | .ret _, _, _ => True.intro
  | .call c k, s, h => ⟨h [] s c k (.stop _ _), fun r _ hdoes => of_next fun events s' c' k' hrun =>
      h (⟨c, r⟩ :: events) s' c' k' (.step hdoes hrun)⟩

/-- A program that goes through one list and then another. -/
theorem forM_append {γ : Type} {f : γ → Prog R ε PUnit} {Q : Except ε PUnit → S → Prop}
    {l' : List γ} : ∀ {l : List γ} {s : S},
      Meets does P (thenMeets does P Q fun _ => l'.forM f) (l.forM f) s →
        Meets does P Q ((l ++ l').forM f) s
  | [], _, h => h
  | _ :: _, _, h => by
      refine bind ((of_bind h).imp fun r s hr => ?_)
      cases r with
      | error e => exact hr
      | ok a => exact forM_append hr

end Steps.Meets

namespace Links

open Steps Files

inductive Node where
  | file (bytes : List UInt8)
  | directory
  /-- Names to go on with, from the top or from where the link stands. -/
  | link (absolute : Bool) (names : List String)
  deriving DecidableEq

/-- The entries below the top. -/
abbrev LinkTree := Path → Option Node

/-- What stands at a place. -/
def LinkTree.at (t : LinkTree) (p : Path) : Option Node := if p = [] then some .directory else t p

/-- Entries stand in directories. -/
def Rooted (t : LinkTree) : Prop :=
  ∀ p name, t.at (p ++ [name]) ≠ none → t.at p = some .directory

/-! ## Where names lead -/

/-- **From a directory, names lead to a place**, links followed; there may be nothing at it yet. -/
inductive Leads (t : LinkTree) : Path → List String → Path → Prop
  | here (cur : Path) : Leads t cur [] cur
  | up {cur p : Path} {rest : List String} (h : Leads t cur.dropLast rest p) :
      Leads t cur (".." :: rest) p
  | missing {cur : Path} {name : String} (hname : name ≠ "..") (h : t.at (cur ++ [name]) = none) :
      Leads t cur [name] (cur ++ [name])
  | file {cur : Path} {name : String} {bytes : List UInt8} (hname : name ≠ "..")
      (h : t.at (cur ++ [name]) = some (.file bytes)) : Leads t cur [name] (cur ++ [name])
  | down {cur p : Path} {name : String} {rest : List String} (hname : name ≠ "..")
      (hat : t.at (cur ++ [name]) = some .directory) (h : Leads t (cur ++ [name]) rest p) :
      Leads t cur (name :: rest) p
  | follow {cur p : Path} {name : String} {rest names : List String} {absolute : Bool}
      (hname : name ≠ "..") (hat : t.at (cur ++ [name]) = some (.link absolute names))
      (h : Leads t (if absolute then [] else cur) (names ++ rest) p) : Leads t cur (name :: rest) p

/-- **The place a name stands at**, a link not followed. -/
def Names (t : LinkTree) (path p : Path) : Prop :=
  ∃ above name d, path = above ++ [name] ∧ name ≠ ".." ∧ Leads t [] above d ∧
    t.at d = some .directory ∧ p = d ++ [name]

/-- Something stands where the names lead. -/
def Reaches (t : LinkTree) (cur : Path) (names : List String) : Prop :=
  ∃ p, Leads t cur names p ∧ t.at p ≠ none

/-- **A path without links**: a directory at each place on the way. -/
structure Physical (t : LinkTree) (p : Path) : Prop where
  plain : ".." ∉ p
  directory : ∀ q, q <+: p → t.at q = some .directory

variable {t t' : LinkTree} {cur p q : Path} {names rest : List String} {name : String}

@[simp] theorem at_nil (t : LinkTree) : t.at [] = some .directory := if_pos rfl

theorem at_of_ne (h : p ≠ []) : t.at p = t p := if_neg h

theorem at_append (t : LinkTree) (p : Path) (name : String) :
    t.at (p ++ [name]) = t (p ++ [name]) :=
  at_of_ne (List.append_ne_nil_of_right_ne_nil p (List.cons_ne_nil name []))

namespace Physical

theorem nil (t : LinkTree) : Physical t [] :=
  ⟨List.not_mem_nil, fun q hq => by rw [List.prefix_nil.1 hq, at_nil]⟩

theorem self (h : Physical t p) : t.at p = some .directory := h.directory p (List.prefix_refl p)

theorem of_isPrefix (h : Physical t p) (hq : q <+: p) : Physical t q :=
  ⟨fun hmem => h.plain (hq.subset hmem), fun x hx => h.directory x (hx.trans hq)⟩

theorem concat (h : Physical t p) (hname : name ≠ "..")
    (hat : t.at (p ++ [name]) = some .directory) : Physical t (p ++ [name]) := by
  refine ⟨?_, fun q hq => ?_⟩
  · rw [List.mem_append, List.mem_singleton, not_or]
    exact ⟨h.plain, hname.symm⟩
  · rcases List.prefix_concat_iff.1 hq with rfl | hq
    · exact hat
    · exact h.directory q hq

end Physical

/-- Directories stand in directories. -/
theorem Rooted.directory (h : Rooted t) : ∀ {p : Path}, t.at p = some .directory → ∀ q, q <+: p →
    t.at q = some .directory := by
  intro p
  induction p using List.reverseRecOn with
  | nil =>
    intro _ q hq
    rw [List.prefix_nil.1 hq, at_nil]
  | append_singleton p name ih =>
    intro hat q hq
    rcases List.prefix_concat_iff.1 hq with rfl | hq
    · exact hat
    · exact ih (h p name (by rw [hat]; exact Option.some_ne_none _)) q hq

/-- Names lead to one place. -/
theorem Leads.unique (h : Leads t cur names p) : ∀ {p' : Path}, Leads t cur names p' → p' = p := by
  induction h with
  | here cur =>
    intro p' h'
    cases h'
    rfl
  | up h ih =>
    intro p' h'
    cases h' with
    | up h' => exact ih h'
    | missing hname => exact absurd rfl hname
    | file hname => exact absurd rfl hname
    | down hname => exact absurd rfl hname
    | follow hname => exact absurd rfl hname
  | missing hname hat =>
    intro p' h'
    cases h' with
    | up => exact absurd rfl hname
    | missing => rfl
    | file => rfl
    | down _ hat' => rw [hat] at hat'; cases hat'
    | follow _ hat' => rw [hat] at hat'; cases hat'
  | file hname hat =>
    intro p' h'
    cases h' with
    | up => exact absurd rfl hname
    | missing => rfl
    | file => rfl
    | down _ hat' => rw [hat] at hat'; cases hat'
    | follow _ hat' => rw [hat] at hat'; cases hat'
  | down hname hat h ih =>
    intro p' h'
    cases h' with
    | up => exact absurd rfl hname
    | missing _ hat' => rw [hat] at hat'; cases hat'
    | file _ hat' => rw [hat] at hat'; cases hat'
    | down _ _ h' => exact ih h'
    | follow _ hat' => rw [hat] at hat'; cases hat'
  | follow hname hat h ih =>
    intro p' h'
    cases h' with
    | up => exact absurd rfl hname
    | missing _ hat' => rw [hat] at hat'; cases hat'
    | file _ hat' => rw [hat] at hat'; cases hat'
    | down _ hat' => rw [hat] at hat'; cases hat'
    | follow _ hat' h' =>
      rw [hat] at hat'
      cases hat'
      exact ih h'

/-- **On a real path the walk starts below it.** -/
theorem Physical.leads_append (h : Physical t p) : Leads t [] (p ++ rest) q ↔ Leads t p rest q := by
  induction p using List.reverseRecOn generalizing rest with
  | nil => rw [List.nil_append]
  | append_singleton p name ih =>
    have hname : name ≠ ".." := by
      rintro rfl
      exact h.plain (by simp)
    have hat := h.self
    rw [List.append_assoc, ih (h.of_isPrefix (List.prefix_append p [name])), List.singleton_append]
    constructor
    · intro hleads
      cases hleads with
      | up => exact absurd rfl hname
      | missing _ hat' => rw [hat] at hat'; cases hat'
      | file _ hat' => rw [hat] at hat'; cases hat'
      | down _ _ hrest => exact hrest
      | follow _ hat' => rw [hat] at hat'; cases hat'
    · exact fun hrest => .down hname hat hrest

/-- A real path leads to itself. -/
theorem Physical.leads (h : Physical t p) : Leads t [] p p := by
  have hself : Leads t [] (p ++ []) p := h.leads_append.2 (.here p)
  rwa [List.append_nil] at hself

theorem Physical.names_iff (h : Physical t p) (hname : name ≠ "..") : Names t (p ++ [name]) q ↔
    q = p ++ [name] := by
  constructor
  · rintro ⟨above, name', d, heq, -, hleads, -, rfl⟩
    obtain ⟨rfl, hnames⟩ := List.append_inj' heq rfl
    obtain rfl := List.singleton_inj.1 hnames
    rw [h.leads.unique hleads]
  · rintro rfl
    exact ⟨p, name, p, rfl, hname, h.leads, h.self, rfl⟩

/-- Below a real path a name leads to itself, unless it is a link. -/
theorem Leads.eq_of_no_link (h : Leads t cur [name] q) (hname : name ≠ "..")
    (hat : ∀ absolute names, t.at (cur ++ [name]) ≠ some (.link absolute names)) :
    q = cur ++ [name] := by
  cases h with
  | up => exact absurd rfl hname
  | missing => rfl
  | file => rfl
  | down _ _ hrest => cases hrest; rfl
  | follow _ hat' => exact absurd hat' (hat _ _)

/-- **A name leads to itself, or it is a link.** -/
theorem Leads.eq_or_link (h : Leads t cur [name] q) (hname : name ≠ "..") :
    q = cur ++ [name] ∨ ∃ absolute names, t.at (cur ++ [name]) = some (.link absolute names) := by
  by_cases hlink : ∃ absolute names, t.at (cur ++ [name]) = some (.link absolute names)
  · exact .inr hlink
  · exact .inl (h.eq_of_no_link hname fun absolute names hat => hlink ⟨absolute, names, hat⟩)

/-- **Where names lead is below directories.** -/
theorem Leads.real (h : Leads t cur names p) (hcur : Physical t cur)
    (hat : t.at p = some .directory) : Physical t p := by
  induction h with
  | here => exact hcur
  | up h ih => exact ih (hcur.of_isPrefix (List.dropLast_prefix _)) hat
  | missing hname hnone => rw [hnone] at hat; cases hat
  | file hname hfile => rw [hfile] at hat; cases hat
  | down hname hdir h ih => exact ih (hcur.concat hname hdir) hat
  | @follow cur p name rest names absolute hname hlink h ih =>
    refine ih ?_ hat
    cases absolute with
    | true => exact .nil t
    | false => exact hcur

/-- Names do not lead to a link. -/
theorem Leads.not_link (h : Leads t cur names p) (hcur : Physical t cur) (absolute : Bool)
    (l : List String) : t.at p ≠ some (.link absolute l) := by
  induction h with
  | here =>
    rw [hcur.self]
    exact fun h => by cases h
  | up h ih => exact ih (hcur.of_isPrefix (List.dropLast_prefix _))
  | missing hname hnone =>
    rw [hnone]
    exact fun h => by cases h
  | file hname hfile =>
    rw [hfile]
    exact fun h => by cases h
  | down hname hdir h ih => exact ih (hcur.concat hname hdir)
  | @follow cur p name rest names absolute hname hlink h ih =>
    refine ih ?_
    cases absolute with
    | true => exact .nil t
    | false => exact hcur

/-- **Where names lead to something, the first of them do so too.** -/
theorem Leads.exists_append (h : Leads t cur names p) (hat : t.at p ≠ none)
    (hcur : Physical t cur) : ∀ {first rest : List String}, names = first ++ rest → Reaches t cur first := by
  have hstay : ∀ {cur : Path}, Physical t cur → Reaches t cur [] := fun {cur} hcur =>
    ⟨cur, .here cur, by rw [hcur.self]; exact Option.some_ne_none _⟩
  induction h with
  | here =>
    intro first rest heq
    obtain ⟨rfl, -⟩ := List.append_eq_nil_iff.1 heq.symm
    exact hstay hcur
  | up h ih =>
    intro first rest heq
    rcases first with _ | ⟨n, first⟩
    · exact hstay hcur
    · obtain ⟨rfl, rfl⟩ := List.cons.inj heq
      obtain ⟨q, hleads, hq⟩ := ih hat (hcur.of_isPrefix (List.dropLast_prefix _)) rfl
      exact ⟨q, .up hleads, hq⟩
  | missing hname hnone =>
    intro first rest _
    exact absurd hnone hat
  | file hname hfile =>
    intro first rest heq
    rcases first with _ | ⟨n, first⟩
    · exact hstay hcur
    · obtain ⟨rfl, hnil⟩ := List.cons.inj heq
      obtain ⟨rfl, -⟩ := List.append_eq_nil_iff.1 hnil.symm
      exact ⟨_, .file hname hfile, hat⟩
  | down hname hdir h ih =>
    intro first rest heq
    rcases first with _ | ⟨n, first⟩
    · exact hstay hcur
    · obtain ⟨rfl, rfl⟩ := List.cons.inj heq
      obtain ⟨q, hleads, hq⟩ := ih hat (hcur.concat hname hdir) rfl
      exact ⟨q, .down hname hdir hleads, hq⟩
  | @follow cur p name rest' names absolute hname hlink h ih =>
    intro first rest heq
    rcases first with _ | ⟨n, first⟩
    · exact hstay hcur
    · obtain ⟨rfl, rfl⟩ := List.cons.inj heq
      have hstart : Physical t (if absolute then [] else cur) := by
        cases absolute with
        | true => exact .nil t
        | false => exact hcur
      obtain ⟨q, hleads, hq⟩ := ih hat hstart (List.append_assoc names first rest).symm
      exact ⟨q, .follow hname hlink hleads, hq⟩

theorem LinkTree.at_update (hp : p ≠ []) (node : Option Node) :
    LinkTree.at (Function.update t p node) q = if q = p then node else t.at q := by
  by_cases hq : q = p
  · rw [hq, at_of_ne hp, Function.update_self, if_pos rfl]
  · rw [if_neg hq, LinkTree.at, LinkTree.at, Function.update_of_ne hq]

/-- **Another file where names lead** does not lead them elsewhere. -/
theorem Leads.update (h : Leads t cur names p) (hcur : Physical t cur)
    (hdir : t.at p ≠ some .directory) (bytes : List UInt8) :
    Leads (Function.update t p (some (.file bytes))) cur names p := by
  have hlink := h.not_link hcur
  clear hcur
  have hp : p ≠ [] := by
    rintro rfl
    exact hdir (at_nil t)
  induction h with
  | here => exact .here _
  | up h ih => exact .up (ih hdir hlink hp)
  | missing hname hnone => exact .file hname (by rw [LinkTree.at_update hp, if_pos rfl])
  | file hname hfile => exact .file hname (by rw [LinkTree.at_update hp, if_pos rfl])
  | down hname hat h ih =>
    refine .down hname ?_ (ih hdir hlink hp)
    rw [LinkTree.at_update hp, if_neg (by rintro rfl; exact hdir hat), hat]
  | follow hname hat h ih =>
    refine .follow hname ?_ (ih hdir hlink hp)
    rw [LinkTree.at_update hp, if_neg (by rintro rfl; exact hlink _ _ hat), hat]

/-- A file instead of nothing, or of a file, does not touch the directories. -/
theorem Physical.update (h : Physical t q) (hdir : t.at p ≠ some .directory) (bytes : List UInt8) :
    Physical (Function.update t p (some (.file bytes))) q := by
  have hp : p ≠ [] := by
    rintro rfl
    exact hdir (at_nil t)
  refine ⟨h.plain, fun x hx => ?_⟩
  rw [LinkTree.at_update hp, if_neg (by rintro rfl; exact hdir (h.directory _ hx))]
  exact h.directory x hx

/-! ## Calls -/

/-- What `symlink_metadata` tells about an entry. -/
def Node.kind : Node → Kind
  | .file bytes => .file bytes.length
  | .directory => .directory
  | .link _ _ => .link

/-- **What a call may do** on a tree with links, and what it may answer.  The host may refuse any
call but the question whether something is there; that there is nothing to read is no refusal. -/
inductive DoesLinked : Does Reply LinkTree
  | refused (c : FileCall) (t : LinkTree) (e : IoError) (h : ∀ path, c ≠ .stat path)
      (hread : ∀ path, c = .read path → e ≠ .notFound) : DoesLinked c t (.error e) t
  | notThere {t : LinkTree} {path : Path} (h : ¬ Reaches t [] path) :
      DoesLinked (.read path) t (.error .notFound) t
  | there {t : LinkTree} {path : Path} (h : Reaches t [] path) :
      DoesLinked (.stat path) t (.ok ()) t
  | absent {t : LinkTree} {path : Path} (e : IoError) (h : ¬ Reaches t [] path) :
      DoesLinked (.stat path) t (.error e) t
  | told {t : LinkTree} {path p : Path} {node : Node} (h : Names t path p)
      (hat : t.at p = some node) : DoesLinked (.metadata path) t (.ok node.kind) t
  | canonical {t : LinkTree} {path p : Path} (h : Leads t [] path p) (hat : t.at p ≠ none) :
      DoesLinked (.canonicalize path) t (.ok p) t
  | isDirectory {t : LinkTree} {target path p : Path} (h : Leads t [] path p)
      (hat : t.at p = some .directory) : DoesLinked (.makeDir target path) t (.ok ()) t
  | made {t : LinkTree} {target path p : Path} (h : Names t path p) (hat : t.at p = none) :
      DoesLinked (.makeDir target path) t (.ok ()) (Function.update t p (some .directory))
  | madeNew {t : LinkTree} {path p : Path} (h : Names t path p) (hat : t.at p = none) :
      DoesLinked (.createDir path) t (.ok ()) (Function.update t p (some .directory))
  | holds {t : LinkTree} {path p : Path} {bytes : List UInt8} (h : Leads t [] path p)
      (hat : t.at p = some (.file bytes)) : DoesLinked (.read path) t (.ok bytes) t
  | created {t : LinkTree} {path p : Path} (h : Leads t [] path p)
      (hat : t.at p ≠ some .directory) : DoesLinked (.create path) t (.ok ()) (Function.update t p (some (.file [])))
  | createdNew {t : LinkTree} {path p : Path} (h : Names t path p) (hat : t.at p = none) :
      DoesLinked (.createNew path) t (.ok ()) (Function.update t p (some (.file [])))
  | appended {t : LinkTree} {path p : Path} {bytes part old : List UInt8} {r : Except IoError Unit}
      (h : Leads t [] path p) (hat : t.at p = some (.file old)) (hpart : part <+: bytes)
      (hr : r = .ok () → part = bytes) :
      DoesLinked (.append path bytes) t r (Function.update t p (some (.file (old ++ part))))
  | synced (t : LinkTree) (path : Path) : DoesLinked (.sync path) t (.ok ()) t
  | renamed {t : LinkTree} {source target p q : Path} (hp : Names t source p)
      (hq : Names t target q) (hat : t.at p ≠ none ∧ t.at p ≠ some .directory)
      (hat' : t.at q ≠ some .directory) : DoesLinked (.rename source target) t (.ok ())
        (Function.update (Function.update t p none) q (t.at p))
  | removed {t : LinkTree} {path p : Path} (h : Names t path p)
      (hat : t.at p ≠ none ∧ t.at p ≠ some .directory) :
      DoesLinked (.remove path) t (.ok ()) (Function.update t p none)

/-- **The places a call works on**: it reads a file, writes one or creates it, makes a directory, or
takes or gives a name. -/
inductive Touches (t : LinkTree) : FileCall → Path → Prop
  | makeDir {target path p : Path} (h : Names t path p) (hat : t.at p = none) :
      Touches t (.makeDir target path) p
  | createDir {path p : Path} (h : Names t path p) (hat : t.at p = none) :
      Touches t (.createDir path) p
  | read {path p : Path} {bytes : List UInt8} (h : Leads t [] path p)
      (hat : t.at p = some (.file bytes)) : Touches t (.read path) p
  | create {path p : Path} (h : Leads t [] path p) (hat : t.at p ≠ some .directory) :
      Touches t (.create path) p
  | createNew {path p : Path} (h : Names t path p) (hat : t.at p = none) :
      Touches t (.createNew path) p
  | append {path p : Path} {bytes : List UInt8} (h : Leads t [] path p)
      (hat : t.at p ≠ some .directory) : Touches t (.append path bytes) p
  | renameFrom {source target p : Path} (h : Names t source p) : Touches t (.rename source target) p
  | renameTo {source target p : Path} (h : Names t target p) : Touches t (.rename source target) p
  | remove {path p : Path} (h : Names t path p) : Touches t (.remove path) p

/-- What the calls of a program work on is below the root, before each of them. -/
def Inside (root : Path) (c : FileCall) (t : LinkTree) : Prop := ∀ p, Touches t c p → root <+: p

/-- **A program stays below the root**, whatever the answers and wherever it is stopped: every call
it comes to works inside. -/
def Stays {α : Type} (root : Path) (program : FileProg String α) (t : LinkTree) : Prop :=
  ∀ events t' c k, Run DoesLinked t program events t' (.call c k) → Inside root c t'

/-- Calls that all work inside. -/
abbrev Bounded {α : Type} (root : Path) (Q : Except String α → LinkTree → Prop)
    (program : FileProg String α) (t : LinkTree) : Prop :=
  Meets DoesLinked (Inside root) Q program t

theorem Bounded.stays {α : Type} {root : Path} {Q : Except String α → LinkTree → Prop}
    {program : FileProg String α} (h : Bounded root Q program t) : Stays root program t :=
  fun _ _ _ _ hrun => h.next hrun

theorem Stays.bounded {α : Type} {root : Path} {program : FileProg String α} {t : LinkTree}
    (h : Stays root program t) : Bounded root (fun _ _ => True) program t := Meets.of_next h

end Links
