import Mathlib
import NTD97.Lib.Files
import NTD97.Lib.Steps

/-!
# Lib/Inodes — the names of one directory, and the files under them

    temporary name ──rename──▸ name          name ──▸ file ──▸ bytes

A name and the file under it are two things: whoever has a file open writes to it wherever its name
has gone, and a name may stand for another file than the one that was made under it.  Writers make
their files under temporary names, and rename what stands there when they are done.  They may meet
under one temporary name; what then keeps every published file whole is that no renaming takes a
file that somebody is still writing.
-/

namespace Inodes

open Steps
open Files (IoError)

variable {N ε ε' α β ι : Type}

/-- **A directory**: the file under each name, what is in each file, and the next file to be made. -/
structure Disk (N : Type) where
  names : N → Option ℕ
  bytes : ℕ → List UInt8
  next : ℕ

inductive DiskCall (N : Type) where
  /-- `fs::metadata`. -/
  | stat (name : N)
  /-- `fs::read`. -/
  | read (name : N)
  /-- `OpenOptions::create_new`. -/
  | createNew (name : N)
  /-- One `write` to an open file. -/
  | write (file : ℕ) (left : List UInt8)
  /-- `sync_all` of an open file. -/
  | sync (file : ℕ)
  /-- `fs::rename`. -/
  | rename (source target : N)
  /-- `fs::remove_file`. -/
  | remove (name : N)

def DiskCall.Answer : DiskCall N → Type
  | .read _ => List UInt8
  | .createNew _ => ℕ
  | .write _ _ => ℕ
  | _ => Unit

/-- The answer to a call, or why it failed. -/
abbrev Reply (c : DiskCall N) : Type := Except IoError c.Answer

abbrev DiskProg (N : Type) := Prog (Reply (N := N))

/-- One call, with whatever it answers. -/
def ask (c : DiskCall N) : DiskProg N ε (Reply c) := .call c fun r => .ret (.ok r)

/-! ## What the calls do -/

namespace Disk

variable [DecidableEq N]

/-- An empty file under a name. -/
def made (d : Disk N) (name : N) : Disk N where
  names := Function.update d.names name (some d.next)
  bytes := Function.update d.bytes d.next []
  next := d.next + 1

omit [DecidableEq N] in
/-- More bytes at the end of a file. -/
def grown (d : Disk N) (file : ℕ) (more : List UInt8) : Disk N :=
  { d with bytes := Function.update d.bytes file (d.bytes file ++ more) }

/-- Nothing under a name. -/
def without (d : Disk N) (name : N) : Disk N :=
  { d with names := Function.update d.names name none }

/-- A file under another name. -/
def moved (d : Disk N) (source target : N) (file : ℕ) : Disk N :=
  { d with names := Function.update (Function.update d.names source none) target (some file) }

end Disk

/-- **What a call may do.**  A write may take some of the bytes only, and a call that fails leaves
the directory as it was. -/
inductive DoesDisk [DecidableEq N] : Does (Reply (N := N)) (Disk N)
  | stat {d : Disk N} {name : N} {file : ℕ} (h : d.names name = some file) :
      DoesDisk (.stat name) d (.ok ()) d
  | read {d : Disk N} {name : N} {file : ℕ} (h : d.names name = some file) :
      DoesDisk (.read name) d (.ok (d.bytes file)) d
  | createNew {d : Disk N} {name : N} (h : d.names name = none) :
      DoesDisk (.createNew name) d (.ok d.next) (d.made name)
  | taken {d : Disk N} {name : N} {file : ℕ} (h : d.names name = some file) :
      DoesDisk (.createNew name) d (.error .alreadyExists) d
  | write {d : Disk N} {file count : ℕ} {left : List UInt8} (h : count ≤ left.length) :
      DoesDisk (.write file left) d (.ok count) (d.grown file (left.take count))
  | sync {d : Disk N} {file : ℕ} : DoesDisk (.sync file) d (.ok ()) d
  | rename {d : Disk N} {source target : N} {file : ℕ} (h : d.names source = some file) :
      DoesDisk (.rename source target) d (.ok ()) (d.moved source target file)
  | remove {d : Disk N} {name : N} {file : ℕ} (h : d.names name = some file) :
      DoesDisk (.remove name) d (.ok ()) (d.without name)
  | fails {d : Disk N} (c : DiskCall N) (e : IoError) (h : e ≠ .alreadyExists) :
      DoesDisk c d (.error e) d

/-! ## A host that nothing disturbs -/

section Undisturbed

variable [DecidableEq N] {d : Disk N} {temp dest name : N} {bytes : List UInt8}

/-- **What a call answers** when nothing fails that does not have to, and a write takes all. -/
def answer : (c : DiskCall N) → Disk N → Reply c × Disk N
  | .stat name, d =>
    match d.names name with
    | some _ => (.ok (), d)
    | none => (.error .notFound, d)
  | .read name, d =>
    match d.names name with
    | some file => (.ok (d.bytes file), d)
    | none => (.error .notFound, d)
  | .createNew name, d =>
    match d.names name with
    | some _ => (.error .alreadyExists, d)
    | none => (.ok d.next, d.made name)
  | .write file left, d => (.ok left.length, d.grown file left)
  | .sync _, d => (.ok (), d)
  | .rename source target, d =>
    match d.names source with
    | some file => (.ok (), d.moved source target file)
    | none => (.error .notFound, d)
  | .remove name, d =>
    match d.names name with
    | some _ => (.ok (), d.without name)
    | none => (.error .notFound, d)

/-- Such a host is one of those that there may be. -/
theorem doesDisk_answer (c : DiskCall N) (d : Disk N) :
    DoesDisk c d (answer c d).1 (answer c d).2 := by
  have hnone {c : DiskCall N} : DoesDisk c d (.error .notFound) d := .fails c _ (by decide)
  cases c with
  | stat name =>
    rw [answer]
    split
    · next hname => exact .stat hname
    · exact hnone
  | read name =>
    rw [answer]
    split
    · next hname => exact .read hname
    · exact hnone
  | createNew name =>
    rw [answer]
    split
    · next hname => exact .taken hname
    · next hname => exact .createNew hname
  | write file left =>
    have hall : DoesDisk (.write file left) d (.ok left.length)
        (d.grown file (left.take left.length)) := .write le_rfl
    rwa [List.take_length] at hall
  | sync file => exact .sync
  | rename source target =>
    rw [answer]
    split
    · next hname => exact .rename hname
    · exact hnone
  | remove name =>
    rw [answer]
    split
    · next hname => exact .remove hname
    · exact hnone

namespace Disk

/-- The bytes under a name. -/
def contents (d : Disk N) (name : N) : Option (List UInt8) := (d.names name).map d.bytes

/-- Every file under a name has been made. -/
def Numbered (d : Disk N) : Prop := ∀ name file, d.names name = some file → file < d.next

/-- The bytes are written under a temporary name, whatever stands there, and renamed. -/
def published (d : Disk N) (temp dest : N) (bytes : List UInt8) : Disk N :=
  (((d.without temp).made temp).grown d.next bytes).moved temp dest d.next

theorem without_of_none (h : d.names temp = none) : d.without temp = d := by
  rw [without, ← h, Function.update_eq_self]

omit [DecidableEq N] in
theorem grown_nil (file : ℕ) : d.grown file [] = d := by
  rw [grown, List.append_nil, Function.update_eq_self]

theorem names_published : (d.published temp dest bytes).names name =
    if name = dest then some d.next else if name = temp then none else d.names name := by
  change Function.update (Function.update (Function.update (Function.update d.names temp none) temp
    (some d.next)) temp none) dest (some d.next) name = _
  rw [Function.update_idem, Function.update_idem, Function.update_apply, Function.update_apply]

/-- **What is published stands under its name**, and the rest but the temporary name is as it was. -/
theorem contents_published (h : d.Numbered) (htemp : name ≠ temp) :
    (d.published temp dest bytes).contents name =
      if name = dest then some bytes else d.contents name := by
  have hbytes (file : ℕ) : (d.published temp dest bytes).bytes file =
      if file = d.next then bytes else d.bytes file := by
    change Function.update (Function.update d.bytes d.next []) d.next
      (Function.update d.bytes d.next [] d.next ++ bytes) file = _
    rw [Function.update_self, List.nil_append, Function.update_idem, Function.update_apply]
  rw [contents, names_published]
  split
  · rw [Option.map_some, hbytes, if_pos rfl]
  · rw [contents]
    cases hname : d.names name with
    | none => rfl
    | some file => rw [Option.map_some, Option.map_some, hbytes, if_neg (h name file hname).ne]

theorem Numbered.published (h : d.Numbered) : (d.published temp dest bytes).Numbered := by
  intro name file hname
  change file < d.next + 1
  rw [names_published] at hname
  split at hname
  · cases hname
    exact Nat.lt_succ_self _
  · split at hname
    · cases hname
    · exact (h name file hname).trans (Nat.lt_succ_self _)

end Disk

end Undisturbed

/-! ## Writers -/

/-- The file that a program has open, and what it has still to write to it. -/
abbrev Opened := Option (ℕ × List UInt8)

variable {temp dest : N} {bytes : List UInt8} {opened : Opened}

/-- **What a writer may call for**: its temporary name is made, removed and renamed to its name. -/
def Allowed (temp dest : N) (opened : Opened) : DiskCall N → Prop
  | .createNew name => name = temp
  | .write file left => opened = some (file, left)
  | .rename source target => source = temp ∧ target = dest
  | .remove name => name = temp
  | _ => True

/-- What a writer has open after a call. -/
def after (bytes : List UInt8) (opened : Opened) : (c : DiskCall N) → Reply c → Opened
  | .createNew _, .ok file => some (file, bytes)
  | .write file left, .ok count => some (file, left.drop count)
  | _, _ => opened

/-- **A program that writes some bytes under a temporary name** and renames what stands there. -/
def Publishes (temp dest : N) (bytes : List UInt8) (Q : Except ε α → Opened → Prop) :
    Opened → DiskProg N ε α → Prop
  | opened, .ret r => Q r opened
  | opened, .call c k => Allowed temp dest opened c ∧
      ∀ r, Publishes temp dest bytes Q (after bytes opened c r) (k r)

namespace Publishes

variable {Q Q' : Except ε α → Opened → Prop}

theorem imp (himp : ∀ r opened, Q r opened → Q' r opened) : ∀ {p : DiskProg N ε α}
    {opened : Opened}, Publishes temp dest bytes Q opened p → Publishes temp dest bytes Q' opened p
  | .ret r, opened, h => himp r opened h
  | .call _ _, _, h => ⟨h.1, fun r => (h.2 r).imp himp⟩

/-- What a program goes on with starts with what it has open. -/
def thenPublishes (temp dest : N) (bytes : List UInt8) (Q : Except ε β → Opened → Prop)
    (f : α → DiskProg N ε β) : Except ε α → Opened → Prop
  | .ok a, opened => Publishes temp dest bytes Q opened (f a)
  | .error e, opened => Q (.error e) opened

/-- **One program after another.** -/
theorem bind {Q : Except ε β → Opened → Prop} {f : α → DiskProg N ε β} : ∀ {p : DiskProg N ε α}
    {opened : Opened}, Publishes temp dest bytes (thenPublishes temp dest bytes Q f) opened p →
      Publishes temp dest bytes Q opened (p >>= f)
  | .ret (.ok _), _, h => h
  | .ret (.error _), _, h => h
  | .call _ _, _, h => ⟨h.1, fun r => bind (h.2 r)⟩

/-- The result of a program, be it an error. -/
theorem attempt {Q : Except ε' (Except ε α) → Opened → Prop} : ∀ {p : DiskProg N ε α}
    {opened : Opened}, Publishes temp dest bytes (fun r opened => Q (.ok r) opened) opened p →
      Publishes temp dest bytes Q opened p.attempt
  | .ret _, _, h => h
  | .call _ _, _, h => ⟨h.1, fun r => attempt (h.2 r)⟩

/-- One call, and what comes after each of its answers. -/
theorem ask_bind {Q : Except ε β → Opened → Prop} {c : DiskCall N} {f : Reply c → DiskProg N ε β}
    (hallowed : Allowed temp dest opened c)
    (hrest : ∀ r, Publishes temp dest bytes Q (after bytes opened c r) (f r)) :
    Publishes temp dest bytes Q opened (ask c >>= f) := ⟨hallowed, hrest⟩

end Publishes

/-! ## What the writers have open, and what is under the names -/

section Writers

variable [DecidableEq N] [DecidableEq ι] {temp dest : ι → N} {bytes : ι → List UInt8}
  {opened : ι → Opened} {d d' : Disk N} {i : ι}

/-- **Every file under a temporary name is a part of what one of its writers writes**, and nobody
writes to a file that another one has open. -/
structure Held (temp dest : ι → N) (bytes : ι → List UInt8) (d : Disk N) (opened : ι → Opened) :
    Prop where
  old : ∀ name file, d.names name = some file → file < d.next
  left : ∀ i file left, opened i = some (file, left) →
    file < d.next ∧ d.bytes file ++ left = bytes i
  apart : ∀ i j file left left', opened i = some (file, left) → opened j = some (file, left') → i = j
  part : ∀ name file, d.names name = some file →
    (∃ i, name = dest i) ∨ ∃ i, name = temp i ∧ d.bytes file <+: bytes i
  home : ∀ name file i left, d.names name = some file → opened i = some (file, left) →
    (∃ j, name = dest j) ∨ name = temp i

namespace Held

omit [DecidableEq N] [DecidableEq ι] in
/-- At the beginning there is nothing. -/
theorem of_empty (hnames : ∀ name, d.names name = none) : Held temp dest bytes d fun _ => none where
  old name file h := by
    rw [hnames] at h
    cases h
  left _ _ _ h := by cases h
  apart _ _ _ _ _ h := by cases h
  part name file h := by
    rw [hnames] at h
    cases h
  home name file _ _ h := by
    rw [hnames] at h
    cases h

theorem made (h : Held temp dest bytes d opened) :
    Held temp dest bytes (d.made (temp i))
      (Function.update opened i (some (d.next, bytes i))) where
  old name file hname := by
    change Function.update d.names (temp i) (some d.next) name = some file at hname
    change file < d.next + 1
    rw [Function.update_apply] at hname
    split at hname
    · cases hname
      exact Nat.lt_succ_self _
    · exact (h.old _ _ hname).trans (Nat.lt_succ_self _)
  left j file left hj := by
    change file < d.next + 1 ∧ Function.update d.bytes d.next [] file ++ left = bytes j
    rw [Function.update_apply] at hj
    split at hj
    · next hji =>
      obtain ⟨rfl, rfl⟩ := Prod.mk.inj (Option.some.inj hj)
      rw [Function.update_self, hji]
      exact ⟨Nat.lt_succ_self _, rfl⟩
    · obtain ⟨hlt, heq⟩ := h.left _ _ _ hj
      rw [Function.update_of_ne hlt.ne]
      exact ⟨hlt.trans (Nat.lt_succ_self _), heq⟩
  apart j k file left left' hj hk := by
    rw [Function.update_apply] at hj hk
    split at hj <;> split at hk
    · next hji hki => exact hji.trans hki.symm
    · obtain ⟨rfl, -⟩ := Prod.mk.inj (Option.some.inj hj)
      exact absurd (h.left _ _ _ hk).1 (Nat.lt_irrefl _)
    · obtain ⟨rfl, -⟩ := Prod.mk.inj (Option.some.inj hk)
      exact absurd (h.left _ _ _ hj).1 (Nat.lt_irrefl _)
    · exact h.apart _ _ _ _ _ hj hk
  part name file hname := by
    change Function.update d.names (temp i) (some d.next) name = some file at hname
    change _ ∨ ∃ i, _ ∧ Function.update d.bytes d.next [] file <+: bytes i
    rw [Function.update_apply] at hname
    split at hname
    · next heq =>
      cases hname
      rw [Function.update_self]
      exact .inr ⟨i, heq, List.nil_prefix⟩
    · rw [Function.update_of_ne (h.old _ _ hname).ne]
      exact h.part _ _ hname
  home name file j left hname hj := by
    change Function.update d.names (temp i) (some d.next) name = some file at hname
    rw [Function.update_apply] at hname hj
    split at hname <;> split at hj
    · next heq hji => exact .inr (heq.trans (by rw [hji]))
    · cases hname
      exact absurd (h.left _ _ _ hj).1 (Nat.lt_irrefl _)
    · obtain ⟨rfl, -⟩ := Prod.mk.inj (Option.some.inj hj)
      exact absurd (h.old _ _ hname) (Nat.lt_irrefl _)
    · exact h.home _ _ _ _ hname hj

omit [DecidableEq N] in
theorem grown {file count : ℕ} {left : List UInt8} (h : Held temp dest bytes d opened)
    (hi : opened i = some (file, left)) :
    Held temp dest bytes (d.grown file (left.take count))
      (Function.update opened i (some (file, left.drop count))) where
  old name file' hname := h.old _ _ hname
  left j file' left' hj := by
    change file' < d.next ∧ Function.update d.bytes file _ file' ++ left' = bytes j
    rw [Function.update_apply] at hj
    split at hj
    · next hji =>
      obtain ⟨rfl, rfl⟩ := Prod.mk.inj (Option.some.inj hj)
      obtain ⟨hlt, heq⟩ := h.left _ _ _ hi
      rw [Function.update_self, List.append_assoc, List.take_append_drop, hji]
      exact ⟨hlt, heq⟩
    · next hji =>
      obtain ⟨hlt, heq⟩ := h.left _ _ _ hj
      rw [Function.update_of_ne]
      · exact ⟨hlt, heq⟩
      · rintro rfl
        exact hji (h.apart _ _ _ _ _ hj hi)
  apart j k file' left' left'' hj hk := by
    rw [Function.update_apply] at hj hk
    split at hj <;> split at hk
    · next hji hki => exact hji.trans hki.symm
    · next hji _ =>
      obtain ⟨rfl, -⟩ := Prod.mk.inj (Option.some.inj hj)
      exact hji.trans (h.apart _ _ _ _ _ hi hk)
    · next _ hki =>
      obtain ⟨rfl, -⟩ := Prod.mk.inj (Option.some.inj hk)
      exact (h.apart _ _ _ _ _ hj hi).trans hki.symm
    · exact h.apart _ _ _ _ _ hj hk
  part name file' hname := by
    change _ ∨ ∃ i, _ ∧ Function.update d.bytes file _ file' <+: bytes i
    by_cases hfile : file' = file
    · subst hfile
      rw [Function.update_self]
      refine (h.home _ _ _ _ hname hi).imp id fun hhome => ⟨i, hhome, ?_⟩
      rw [← (h.left _ _ _ hi).2]
      exact (List.prefix_append_right_inj _).2 (List.take_prefix _ _)
    · rw [Function.update_of_ne hfile]
      exact h.part _ _ hname
  home name file' j left' hname hj := by
    rw [Function.update_apply] at hj
    split at hj
    · next hji =>
      obtain ⟨rfl, -⟩ := Prod.mk.inj (Option.some.inj hj)
      rw [hji]
      exact h.home _ _ _ _ hname hi
    · exact h.home _ _ _ _ hname hj

omit [DecidableEq N] [DecidableEq ι] in
/-- Names that are taken away, and names that are published. -/
theorem renamed {names : N → Option ℕ} (h : Held temp dest bytes d opened)
    (hnames : ∀ name file, names name = some file →
      (∃ other, d.names other = some file) ∧ (d.names name = some file ∨ ∃ i, name = dest i)) :
    Held temp dest bytes { d with names } opened where
  old name file hname := by
    obtain ⟨⟨other, hother⟩, -⟩ := hnames name file hname
    exact h.old _ _ hother
  left := h.left
  apart := h.apart
  part name file hname := by
    rcases (hnames name file hname).2 with hsame | hdest
    · exact h.part _ _ hsame
    · exact .inl hdest
  home name file j left hname hj := by
    rcases (hnames name file hname).2 with hsame | hdest
    · exact h.home _ _ _ _ hsame hj
    · exact .inl hdest

omit [DecidableEq ι] in
theorem moved {name : N} {file : ℕ} (h : Held temp dest bytes d opened)
    (hname : d.names name = some file) :
    Held temp dest bytes (d.moved name (dest i) file) opened := by
  refine h.renamed fun name' file' hname' => ?_
  rw [Function.update_apply] at hname'
  split at hname'
  · next heq =>
    cases hname'
    exact ⟨⟨name, hname⟩, .inr ⟨i, heq⟩⟩
  · rw [Function.update_apply] at hname'
    split at hname'
    · cases hname'
    · exact ⟨⟨name', hname'⟩, .inl hname'⟩

omit [DecidableEq ι] in
theorem without {name : N} (h : Held temp dest bytes d opened) :
    Held temp dest bytes (d.without name) opened := by
  refine h.renamed fun name' file' hname' => ?_
  rw [Function.update_apply] at hname'
  split at hname'
  · cases hname'
  · exact ⟨⟨name', hname'⟩, .inl hname'⟩

/-- **What one call of a writer keeps.** -/
theorem call {c : DiskCall N} {r : Reply c} (h : Held temp dest bytes d opened)
    (hallowed : Allowed (temp i) (dest i) (opened i) c) (hdoes : DoesDisk c d r d') :
    Held temp dest bytes d' (Function.update opened i (after (bytes i) (opened i) c r)) := by
  cases hdoes with
  | stat | read | taken | sync =>
    change Held _ _ _ _ (Function.update opened i (opened i))
    rwa [Function.update_eq_self]
  | createNew =>
    cases hallowed
    exact h.made
  | write hcount => exact h.grown hallowed
  | rename hsource =>
    obtain ⟨rfl, rfl⟩ := hallowed
    change Held _ _ _ _ (Function.update opened i (opened i))
    rw [Function.update_eq_self]
    exact h.moved hsource
  | remove hname =>
    change Held _ _ _ _ (Function.update opened i (opened i))
    rw [Function.update_eq_self]
    exact h.without
  | fails _ e =>
    have hsame : after (bytes i) (opened i) c (.error e) = opened i := by cases c <;> rfl
    rwa [hsame, Function.update_eq_self]

end Held

/-! ## What is published -/

omit [DecidableEq N] [DecidableEq ι] in
/-- **A renaming takes no file that is only a part** of what is written under its temporary name. -/
def Whole (temp : ι → N) (bytes : ι → List UInt8) : Disk N → Called (Reply (N := N)) → Prop
  | d, ⟨.rename source _, .ok _⟩ => ∀ file, d.names source = some file →
      ∀ i, temp i = source → d.bytes file <+: bytes i → d.bytes file = bytes i
  | _, _ => True

/-- **Every published file is one of those to be published there**, and nobody writes to it. -/
def Done (dest : ι → N) (bytes : ι → List UInt8) (d : Disk N) (opened : ι → Opened) : Prop :=
  ∀ i file, d.names (dest i) = some file →
    (∃ j, dest j = dest i ∧ d.bytes file = bytes j) ∧
      ∀ j left, opened j = some (file, left) → left = []

/-- The temporary names are none of the others, and tell them apart. -/
structure Temporary (temp dest : ι → N) : Prop where
  ne : ∀ i j, temp i ≠ dest j
  same : ∀ i j, temp i = temp j → dest i = dest j

namespace Done

theorem made (h : Done dest bytes d opened) (hheld : Held temp dest bytes d opened)
    (htemp : Temporary temp dest) :
    Done dest bytes (d.made (temp i)) (Function.update opened i (some (d.next, bytes i))) := by
  intro j file hname
  change Function.update d.names (temp i) _ (dest j) = _ at hname
  rw [Function.update_of_ne (htemp.ne i j).symm] at hname
  obtain ⟨⟨k, hk, heq⟩, hdone⟩ := h j file hname
  have hne := (hheld.old _ _ hname).ne
  refine ⟨⟨k, hk, (Function.update_of_ne hne ..).trans heq⟩, fun k left hopened => ?_⟩
  rw [Function.update_apply] at hopened
  split at hopened
  · obtain ⟨rfl, -⟩ := Prod.mk.inj (Option.some.inj hopened)
    exact absurd rfl hne
  · exact hdone k left hopened

omit [DecidableEq N] in
theorem grown {file count : ℕ} {left : List UInt8} (h : Done dest bytes d opened)
    (hi : opened i = some (file, left)) :
    Done dest bytes (d.grown file (left.take count))
      (Function.update opened i (some (file, left.drop count))) := by
  intro j file' hname
  obtain ⟨⟨k, hk, heq⟩, hdone⟩ := h j file' hname
  refine ⟨⟨k, hk, ?_⟩, fun k left' hopened => ?_⟩
  · change Function.update d.bytes file _ file' = _
    rw [Function.update_apply]
    split
    · next hfile =>
      subst hfile
      rw [hdone i left hi, List.take_nil, List.append_nil]
      exact heq
    · exact heq
  · rw [Function.update_apply] at hopened
    split at hopened
    · obtain ⟨rfl, rfl⟩ := Prod.mk.inj (Option.some.inj hopened)
      rw [hdone i left hi, List.drop_nil]
    · exact hdone k left' hopened

omit [DecidableEq ι] in
/-- **A whole file is published**, and its writer has nothing left to write. -/
theorem moved {file : ℕ} (h : Done dest bytes d opened) (hheld : Held temp dest bytes d opened)
    (htemp : Temporary temp dest) (hname : d.names (temp i) = some file)
    (hwhole : ∀ j, temp j = temp i → d.bytes file <+: bytes j → d.bytes file = bytes j) :
    Done dest bytes (d.moved (temp i) (dest i) file) opened := by
  intro j file' hname'
  change Function.update (Function.update d.names (temp i) none) (dest i) _ (dest j) = _ at hname'
  rw [Function.update_apply] at hname'
  split at hname'
  · next hdest =>
    cases hname'
    refine ⟨?_, fun k left hopened => ?_⟩
    · rcases hheld.part _ _ hname with ⟨k, hk⟩ | ⟨k, hk, hpart⟩
      · exact absurd hk (htemp.ne i k)
      · exact ⟨k, (htemp.same k i hk.symm).trans hdest.symm, hwhole k hk.symm hpart⟩
    · rcases hheld.home _ _ _ _ hname hopened with ⟨k', hk⟩ | hhome
      · exact absurd hk (htemp.ne i k')
      · have hleft := (hheld.left _ _ _ hopened).2
        have hall := hwhole k hhome.symm ⟨left, hleft⟩
        rw [← hall] at hleft
        exact List.append_right_eq_self.1 hleft
  · rw [Function.update_of_ne (htemp.ne i j).symm] at hname'
    exact h j file' hname'

omit [DecidableEq ι] in
theorem without (h : Done dest bytes d opened) (htemp : Temporary temp dest) :
    Done dest bytes (d.without (temp i)) opened := by
  intro j file hname
  change Function.update d.names (temp i) _ (dest j) = _ at hname
  rw [Function.update_of_ne (htemp.ne i j).symm] at hname
  exact h j file hname

/-- **What one call of a writer keeps**, if it renames no part of a file. -/
theorem call {c : DiskCall N} {r : Reply c} (h : Done dest bytes d opened)
    (hheld : Held temp dest bytes d opened) (htemp : Temporary temp dest)
    (hallowed : Allowed (temp i) (dest i) (opened i) c) (hdoes : DoesDisk c d r d')
    (hwhole : Whole temp bytes d ⟨c, r⟩) :
    Done dest bytes d' (Function.update opened i (after (bytes i) (opened i) c r)) := by
  cases hdoes with
  | stat | read | taken | sync =>
    change Done _ _ _ (Function.update opened i (opened i))
    rwa [Function.update_eq_self]
  | createNew =>
    cases hallowed
    exact h.made hheld htemp
  | write hcount => exact h.grown hallowed
  | rename hsource =>
    obtain ⟨rfl, rfl⟩ := hallowed
    change Done _ _ _ (Function.update opened i (opened i))
    rw [Function.update_eq_self]
    exact h.moved hheld htemp hsource (hwhole _ hsource)
  | remove hname =>
    cases hallowed
    change Done _ _ _ (Function.update opened i (opened i))
    rw [Function.update_eq_self]
    exact h.without htemp
  | fails _ e =>
    have hsame : after (bytes i) (opened i) c (.error e) = opened i := by cases c <;> rfl
    rwa [hsame, Function.update_eq_self]

end Done

/-! ## All turns -/

variable {Q : ι → Except ε α → Opened → Prop}
  {start threads threads' : Threads ι (Reply (N := N)) (Disk N) ε α}

/-- **Writers that take turns on one directory**, and what each of them has open. -/
structure Writing (temp dest : ι → N) (bytes : ι → List UInt8)
    (Q : ι → Except ε α → Opened → Prop) (threads : Threads ι (Reply (N := N)) (Disk N) ε α)
    (opened : ι → Opened) : Prop where
  publishes : ∀ i, Publishes (temp i) (dest i) (bytes i) (Q i) (opened i) (threads.programs i)
  held : Held temp dest bytes threads.state opened

namespace Writing

omit [DecidableEq N] [DecidableEq ι] in
theorem of_empty (hnames : ∀ name, threads.state.names name = none)
    (hpublishes : ∀ i, Publishes (temp i) (dest i) (bytes i) (Q i) none (threads.programs i)) :
    Writing temp dest bytes Q threads fun _ => none where
  publishes := hpublishes
  held := .of_empty hnames

/-- A turn is a call of one writer, which it may make. -/
theorem turn {event : Called (Reply (N := N))} (h : Writing temp dest bytes Q threads opened)
    (hturn : Turn DoesDisk threads event threads') :
    ∃ i, Allowed (temp i) (dest i) (opened i) event.1 ∧
      DoesDisk event.1 threads.state event.2 threads'.state ∧
      Writing temp dest bytes Q threads'
        (Function.update opened i (after (bytes i) (opened i) event.1 event.2)) := by
  cases hturn with
  | @call i c k r s' hprogram hdoes =>
    have hpublishes := h.publishes i
    rw [hprogram] at hpublishes
    refine ⟨i, hpublishes.1, hdoes, fun j => ?_, h.held.call hpublishes.1 hdoes⟩
    change Publishes _ _ _ _ _ (Function.update threads.programs i (k r) j)
    by_cases hj : j = i
    · subst hj
      rw [Function.update_self, Function.update_self]
      exact hpublishes.2 r
    · rw [Function.update_of_ne hj, Function.update_of_ne hj]
      exact h.publishes j

/-- **Whatever the turns are**, the writers hold what they have open. -/
theorem reached {condition : Disk N → Called (Reply (N := N)) → Prop}
    (h : Writing temp dest bytes Q start opened)
    (hreached : Reached DoesDisk condition start threads) :
    ∃ opened', Writing temp dest bytes Q threads opened' := by
  refine hreached.invariant
    (I := fun threads => ∃ opened', Writing temp dest bytes Q threads opened') ⟨opened, h⟩ ?_
  rintro threads₁ event threads₂ ⟨opened₁, h₁⟩ hturn -
  obtain ⟨i, -, -, h₂⟩ := h₁.turn hturn
  exact ⟨_, h₂⟩

/-- **As long as no part of a file is renamed, every published file is whole.** -/
theorem done (h : Writing temp dest bytes Q start opened) (hdone : Done dest bytes start.state opened)
    (htemp : Temporary temp dest)
    (hreached : Reached DoesDisk (Whole temp bytes) start threads) :
    ∃ opened', Writing temp dest bytes Q threads opened' ∧
      Done dest bytes threads.state opened' := by
  refine hreached.invariant (I := fun threads => ∃ opened', Writing temp dest bytes Q threads opened' ∧
    Done dest bytes threads.state opened') ⟨opened, h, hdone⟩ ?_
  rintro threads₁ event threads₂ ⟨opened₁, h₁, hdone₁⟩ hturn hwhole
  obtain ⟨i, hallowed, hdoes, h₂⟩ := h₁.turn hturn
  exact ⟨_, h₂, hdone₁.call h₁.held htemp hallowed hdoes hwhole⟩

/-- **When a part of a file is renamed, it is published.** -/
theorem torn {event : Called (Reply (N := N))} (h : Writing temp dest bytes Q threads opened)
    (htemp : Temporary temp dest) (hturn : Turn DoesDisk threads event threads')
    (hpart : ¬ Whole temp bytes threads.state event) :
    ∃ i file, threads'.state.names (dest i) = some file ∧
      threads'.state.bytes file <+: bytes i ∧ threads'.state.bytes file ≠ bytes i := by
  obtain ⟨i, hallowed, hdoes, -⟩ := h.turn hturn
  obtain ⟨c, r⟩ := event
  obtain ⟨d', programs⟩ := threads'
  change DoesDisk c threads.state r d' at hdoes
  cases hdoes with
  | @rename _ source target file hsource =>
    obtain ⟨rfl, rfl⟩ := hallowed
    simp only [Whole, not_forall] at hpart
    obtain ⟨file', hfile', j, hj, hprefix, hne⟩ := hpart
    cases hsource.symm.trans hfile'
    refine ⟨j, file, ?_, hprefix, hne⟩
    change Function.update _ (dest i) _ (dest j) = _
    rw [htemp.same j i hj, Function.update_self]
  | fails _ e => exact absurd (by cases c <;> exact trivial) hpart
  | _ => exact absurd trivial hpart

end Writing

end Writers

end Inodes
