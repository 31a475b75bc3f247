import Mathlib
import NTD97.Activation
import NTD97.Lib.Inodes

/-!
# Gguf/Shards — storing tensor shards under their digests

    shard ──encode──▸ bytes ──create, write──▸ .⟨digest⟩.⟨process⟩.tmp ──rename──▸ ⟨digest⟩.ntp97

The temporary name is that of the digest and the process, so two calls of one process that store one
shard share it: the second removes the file of the first, and the first renames the file of the
second, whatever is in it.  `shards_sound_iff` says when the store is sound nevertheless: every
renaming has to take a file that is written to its end.
-/

namespace NTD97

open Guard Steps Inodes
open Files (IoError)

namespace FileTensorShardStore

/-! ## Names -/

def hex : List Char :=
  ['0', '1', '2', '3', '4', '5', '6', '7', '8', '9', 'a', 'b', 'c', 'd', 'e', 'f']

/-- The two digits of a byte. -/
def hexByte (byte : UInt8) : List Char :=
  [hex.getD (byte >>> 4).toNat '0', hex.getD (byte &&& 0x0f).toNat '0']

def digestHex (digest : Digest) : List Char := digest.bytes.flatMap hexByte

/-- The name of a shard, in the root of the store. -/
def shardPath (hash : Digest) : String := String.ofList (digestHex hash) ++ ".ntp97"

/-- The name under which a process writes a shard. -/
def tempPath (process : ℕ) (hash : Digest) : String :=
  "." ++ String.ofList (digestHex hash) ++ "." ++ toString process ++ ".tmp"

/-! ## The calls of the store -/

abbrev ShardProg := DiskProg String GgufError

section Store

variable (describe : IoError → String) (process : ℕ) (ir : IrVersion)

/-- One call, its failure wrapped as `GgufError::Io`. -/
def io (c : DiskCall String) : ShardProg c.Answer :=
  .call c fun reply => .ret (reply.mapError fun e => .io (describe e))

/-- `Path::exists`. -/
def pathExists (name : String) : ShardProg Bool := return (← ask (.stat name)).isOk

/-- `write_all`: the file is written until nothing is left. -/
def writeAll (file : ℕ) : Bytes → ShardProg Unit
  | [] => pure ()
  | byte :: rest => .call (.write file (byte :: rest)) fun reply : Except IoError ℕ =>
    match reply with
    | .error e => throw (.io (describe e))
    | .ok 0 => throw (.io "failed to write whole buffer")
    | .ok (count + 1) => writeAll file (rest.drop count)
termination_by left => left.length
decreasing_by
  rw [List.length_drop, List.length_cons]
  omega

/-- The temporary file; one that is there is removed, and made again. -/
def openTemp (temp : String) : ShardProg ℕ := do
  match ← ask (.createNew temp) with
  | .ok file => return file
  | .error .alreadyExists =>
    io describe (.remove temp)
    io describe (.createNew temp)
  | .error e => throw (.io (describe e))

def writeTemp (file : ℕ) (bytes : Bytes) : ShardProg Unit := do
  writeAll describe file bytes
  io describe (.sync file)

def publish (temp destination : String) (hash : Digest) (bytes : Bytes) : ShardProg String := do
  match ← ask (.rename temp destination) with
  | .ok _ => return destination
  | .error e =>
    if ← pathExists destination then
      let _ ← ask (.remove temp)
      let existing : Bytes ← io describe (.read destination)
      if existing.length = bytes.length ∧ sha256 existing = hash then return destination
      throw (.io (describe e))
    else
      let _ ← ask (.remove temp)
      throw (.io (describe e))

/-- Publish the temporary file that is written, or remove it. -/
def settle (temp destination : String) (hash : Digest) (bytes : Bytes) :
    Except GgufError Unit → ShardProg String
  | .error e => do
    let _ ← ask (.remove temp)
    throw e
  | .ok _ => publish describe temp destination hash bytes

/-- What is done with the temporary file that is open. -/
def fill (temp destination : String) (hash : Digest) (bytes : Bytes) (file : ℕ) :
    ShardProg String := do
  let written ← (writeTemp describe file bytes).attempt
  settle describe temp destination hash bytes written

def persistContentAddressed (hash : Digest) (bytes : Bytes) : ShardProg String := do
  let destination := shardPath hash
  if ← pathExists destination then
    let existing : Bytes ← io describe (.read destination)
    refuse (existing.length ≠ bytes.length ∨ sha256 existing ≠ hash) .invalidTensor
    return destination
  let temp := tempPath process hash
  let file ← openTemp describe temp
  fill describe temp destination hash bytes file

def storeTensor (tensor : NativeTensor) : ShardProg TensorShardRef := do
  let encoded ← Prog.check
    ((encodeNativeTensor ir tensor).mapError fun e => .nativeLowering (.shard e))
  let hash := sha256 encoded
  let _ ← persistContentAddressed describe process hash encoded
  refuse (2 ^ 64 ≤ encoded.length) .limitExceeded
  return {
    descriptor := tensor.descriptor
    graphValue := tensor.graphValue
    logicalLen := UInt64.ofNat encoded.length
    hash }

end Store

/-! ## The names tell digests and processes apart -/

/-- The value of a hexadecimal digit. -/
def unhex (c : Char) : ℕ := hex.idxOf c

theorem unhex_digits (byte : UInt8) :
    unhex (hex.getD (byte >>> 4).toNat '0') * 16 + unhex (hex.getD (byte &&& 0x0f).toNat '0') =
      byte.toNat := by
  obtain ⟨⟨n⟩⟩ := byte
  revert n
  decide +kernel

theorem digits_injective : Function.Injective fun bytes : List UInt8 => bytes.flatMap hexByte := by
  intro l
  induction l with
  | nil =>
    intro l' h
    cases l' with
    | nil => rfl
    | cons byte rest => cases h
  | cons byte rest ih =>
    intro l' h
    cases l' with
    | nil => cases h
    | cons byte' rest' =>
      obtain ⟨hhigh, h⟩ := List.cons.inj h
      obtain ⟨hlow, h⟩ := List.cons.inj h
      have hbyte : byte = byte' := by
        rw [← UInt8.toNat_inj, ← unhex_digits byte, ← unhex_digits byte', hhigh, hlow]
      rw [hbyte, ih h]

theorem digestHex_injective : Function.Injective digestHex := by
  rintro ⟨bytes, hlen⟩ ⟨bytes', hlen'⟩ h
  obtain rfl : bytes = bytes' := digits_injective h
  rfl

theorem shardPath_injective : Function.Injective shardPath := by
  intro hash hash' h
  have hchars := congrArg String.toList h
  simp only [shardPath, String.toList_append, String.toList_ofList] at hchars
  exact digestHex_injective (List.append_cancel_right hchars)

theorem tempPath_injective (process : ℕ) : Function.Injective (tempPath process) := by
  intro hash hash' h
  have hchars := congrArg String.toList h
  simp only [tempPath, String.toList_append, String.toList_ofList, List.append_assoc] at hchars
  refine digestHex_injective (List.append_cancel_right (List.append_cancel_left hchars))

/-- A temporary name ends with another letter than the name of a shard. -/
theorem tempPath_ne_shardPath (process : ℕ) (hash hash' : Digest) :
    tempPath process hash ≠ shardPath hash' := by
  intro h
  have hlast := congrArg (fun name => name.toList.getLast?) h
  rw [tempPath, shardPath] at hlast
  simp only [String.toList_append, List.getLast?_append] at hlast
  exact absurd hlast (by simp)

/-! ## A call that nothing disturbs -/

section Undisturbed

variable {describe : IoError → String} {process : ℕ} {d : Disk String} {temp destination : String}
  {hash : Digest} {bytes : Bytes} {α : Type}

theorem execute_ask_bind (c : DiskCall String) (f : Reply c → ShardProg α) :
    execute answer (ask c >>= f) d = execute answer (f (answer c d).1) (answer c d).2 := rfl

theorem execute_io_bind (c : DiskCall String) {f : c.Answer → ShardProg α} {a : c.Answer}
    {d' : Disk String} (h : answer c d = (.ok a, d')) :
    execute answer (io describe c >>= f) d = execute answer (f a) d' := by
  refine execute_bind_ok ?_
  change ((answer c d).1.mapError _, (answer c d).2) = _
  rw [h]
  rfl

theorem execute_writeAll (file : ℕ) :
    execute answer (writeAll describe file bytes) d = (.ok (), d.grown file bytes) := by
  cases bytes with
  | nil =>
    rw [writeAll, Disk.grown_nil]
    rfl
  | cons byte rest =>
    have hdone : writeAll describe file (rest.drop rest.length) = pure () := by
      rw [List.drop_length, writeAll]
    rw [writeAll]
    change execute answer (writeAll describe file (rest.drop rest.length)) _ = _
    rw [hdone]
    rfl

theorem execute_writeTemp (file : ℕ) :
    execute answer (writeTemp describe file bytes) d = (.ok (), d.grown file bytes) :=
  (execute_bind_ok (execute_writeAll file)).trans rfl

/-- A file that stands under the temporary name is removed. -/
theorem execute_openTemp : execute answer (openTemp describe temp) d =
    (.ok d.next, (d.without temp).made temp) := by
  have hmade {d : Disk String} (h : d.names temp = none) :
      answer (.createNew temp) d = (.ok d.next, d.made temp) := by
    rw [answer, h]
  rw [openTemp, execute_ask_bind]
  cases htemp : d.names temp with
  | none =>
    rw [Disk.without_of_none htemp, hmade htemp]
    rfl
  | some file =>
    have htaken : answer (.createNew temp) d = (.error .alreadyExists, d) := by
      rw [answer, htemp]
    have hremoved : answer (.remove temp) d = (.ok (), d.without temp) := by
      rw [answer, htemp]
    have hfree : (d.without temp).names temp = none := Function.update_self ..
    rw [htaken]
    refine (execute_io_bind (.remove temp) hremoved).trans ?_
    change ((answer (.createNew temp) (d.without temp)).1.mapError _,
      (answer (.createNew temp) (d.without temp)).2) = _
    rw [hmade hfree]
    rfl

/-- **What is stored stands under its name**; what stands there already is only compared. -/
theorem execute_persistContentAddressed :
    execute answer (persistContentAddressed describe process hash bytes) d =
      match d.contents (shardPath hash) with
      | some existing =>
        (if existing.length ≠ bytes.length ∨ sha256 existing ≠ hash then .error .invalidTensor
          else .ok (shardPath hash), d)
      | none => (.ok (shardPath hash), d.published (tempPath process hash) (shardPath hash) bytes) := by
  have hstat : execute answer (pathExists (shardPath hash)) d =
      (.ok (d.names (shardPath hash)).isSome, d) := by
    change (Except.ok (answer (.stat (shardPath hash)) d).1.isOk, _) = _
    rw [answer]
    cases d.names (shardPath hash) <;> rfl
  rw [persistContentAddressed, execute_bind_ok hstat, Disk.contents]
  cases hname : d.names (shardPath hash) with
  | some file =>
    have hread : answer (.read (shardPath hash)) d = (.ok (d.bytes file), d) := by
      rw [answer, hname]
    refine (execute_io_bind (.read (shardPath hash)) hread).trans ?_
    change execute answer (refuse _ _ >>= _) d = (ite _ _ _, d)
    rw [Prog.refuse_bind]
    split <;> rfl
  | none =>
    have hrename (file : ℕ) : answer (.rename (tempPath process hash) (shardPath hash))
        (((d.without (tempPath process hash)).made (tempPath process hash)).grown file bytes) = (.ok (),
          (((d.without (tempPath process hash)).made (tempPath process hash)).grown file bytes).moved
            (tempPath process hash) (shardPath hash) d.next) := by
      have hthere : (((d.without (tempPath process hash)).made (tempPath process hash)).grown file
          bytes).names (tempPath process hash) = some d.next := Function.update_self ..
      rw [answer, hthere]
    change execute answer (openTemp describe (tempPath process hash) >>= _) d = _
    rw [execute_bind_ok execute_openTemp, fill, execute_bind_ok (execute_attempt ..),
      execute_writeTemp, settle, publish, execute_ask_bind, hrename]
    rfl

end Undisturbed

/-! ## A call writes its shard under the temporary name of its digest -/

section Publishes

variable {describe : IoError → String} {process : ℕ} {ir : IrVersion} {temp destination : String}
  {bytes : Bytes} {opened : Opened}

/-- Nothing is asked of how a call ends. -/
def anyEnd {α : Type} : Except GgufError α → Opened → Prop := fun _ _ => True

theorem publishes_io {c : DiskCall String} {α : Type} {f : c.Answer → ShardProg α}
    {Q : Except GgufError α → Opened → Prop} (hallowed : Allowed temp destination opened c)
    (hfails : ∀ e, Q (.error (.io (describe e))) (after bytes opened c (.error e)))
    (hrest : ∀ a, Publishes temp destination bytes Q (after bytes opened c (.ok a)) (f a)) :
    Publishes temp destination bytes Q opened (io describe c >>= f) := by
  refine ⟨hallowed, fun r => ?_⟩
  cases r with
  | error e => exact hfails e
  | ok a => exact hrest a

theorem publishes_writeAll (file : ℕ) : ∀ (n : ℕ) (left : Bytes), left.length = n →
    Publishes temp destination bytes anyEnd (some (file, left)) (writeAll describe file left) := by
  intro n
  induction n using Nat.strong_induction_on with
  | _ n ih =>
    rintro left rfl
    cases left with
    | nil =>
      rw [writeAll]
      exact trivial
    | cons byte rest =>
      rw [writeAll]
      refine ⟨rfl, fun r => ?_⟩
      rcases r with e | _ | count
      · exact trivial
      · exact trivial
      · refine ih (rest.drop count).length ?_ _ rfl
        rw [List.length_drop, List.length_cons]
        omega

theorem publishes_writeTemp (file : ℕ) :
    Publishes temp destination bytes anyEnd (some (file, bytes))
      (writeTemp describe file bytes) := by
  refine .bind ((publishes_writeAll file _ bytes rfl).imp fun r opened _ => ?_)
  cases r with
  | error e => exact trivial
  | ok a => exact ⟨trivial, fun _ => trivial⟩

/-- What is open when the temporary file is there. -/
def holds (bytes : Bytes) : Except GgufError ℕ → Opened → Prop
  | .ok file, opened => opened = some (file, bytes)
  | .error _, _ => True

theorem publishes_openTemp :
    Publishes temp destination bytes (holds bytes) opened (openTemp describe temp) := by
  refine Publishes.ask_bind rfl fun r => ?_
  rcases r with e | file
  · cases e with
    | alreadyExists =>
      refine publishes_io rfl (fun _ => trivial) fun _ => ⟨rfl, fun r => ?_⟩
      cases r with
      | error e => exact trivial
      | ok file => exact rfl
    | _ => exact trivial
  · exact rfl

theorem publishes_publish (hash : Digest) :
    Publishes temp destination bytes anyEnd opened
      (publish describe temp destination hash bytes) := by
  refine Publishes.ask_bind ⟨rfl, rfl⟩ fun r => ?_
  cases r with
  | ok a => exact trivial
  | error e =>
    refine .bind (Publishes.ask_bind trivial fun found => ?_)
    change Publishes temp destination bytes anyEnd _ (ite _ _ _)
    split
    · refine Publishes.ask_bind rfl fun _ => publishes_io trivial (fun _ => trivial) fun _ => ?_
      change Publishes temp destination bytes anyEnd _ (ite _ _ _)
      split <;> exact trivial
    · exact Publishes.ask_bind rfl fun _ => trivial

theorem publishes_fill (hash : Digest) (file : ℕ) :
    Publishes temp destination bytes anyEnd (some (file, bytes))
      (fill describe temp destination hash bytes file) := by
  refine .bind (.attempt ((publishes_writeTemp file).imp fun r opened _ => ?_))
  cases r with
  | error e => exact Publishes.ask_bind rfl fun _ => trivial
  | ok a => exact publishes_publish hash

theorem publishes_persist (hash : Digest) :
    Publishes (tempPath process hash) (shardPath hash) bytes anyEnd none
      (persistContentAddressed describe process hash bytes) := by
  refine .bind (Publishes.ask_bind trivial fun found => ?_)
  change Publishes _ _ bytes anyEnd _ (ite _ _ _)
  split
  · refine publishes_io trivial (fun _ => trivial) fun existing => ?_
    rw [Prog.refuse_bind]
    split <;> exact trivial
  · refine .bind (publishes_openTemp.imp fun r opened hopened => ?_)
    cases r with
    | error e => exact trivial
    | ok file =>
      cases hopened
      exact publishes_fill hash file

/-- What a call stores; one whose tensor cannot be encoded stores nothing. -/
def encoded (ir : IrVersion) (tensor : NativeTensor) : Bytes :=
  (encodeNativeTensor ir tensor).toOption.getD []

theorem publishes_storeTensor (tensor : NativeTensor) :
    Publishes (tempPath process (sha256 (encoded ir tensor)))
      (shardPath (sha256 (encoded ir tensor))) (encoded ir tensor) anyEnd none
      (storeTensor describe process ir tensor) := by
  rw [storeTensor, encoded]
  cases encodeNativeTensor ir tensor with
  | error e => exact trivial
  | ok bytes =>
    refine .bind ?_
    change Publishes _ _ _ anyEnd none
      (persistContentAddressed describe process (sha256 bytes) bytes >>= _)
    refine .bind ((publishes_persist (sha256 bytes)).imp fun r opened _ => ?_)
    cases r with
    | error e => exact trivial
    | ok path =>
      change Publishes _ _ _ _ _ (_ >>= _)
      rw [Prog.refuse_bind]
      split <;> exact trivial

end Publishes

/-! ## Calls that take turns -/

section Turns

variable {ι : Type} [DecidableEq ι]

/-- **The store is sound**: every shard has the digest it is stored under. -/
def Sound (d : Disk String) : Prop :=
  ∀ hash file, d.names (shardPath hash) = some file → sha256 (d.bytes file) = hash

/-- **A renaming takes a file that is written to its end**: it is not only a part of a shard that
one of the calls stores under that temporary name. -/
def TakesWhole (process : ℕ) (ir : IrVersion) (tensors : ι → NativeTensor) :
    Disk String → Called (Reply (N := String)) → Prop :=
  Whole (fun i => tempPath process (sha256 (encoded ir (tensors i)))) fun i =>
    encoded ir (tensors i)

/-- A directory with nothing in it. -/
def emptyDisk : Disk String where
  names _ := none
  bytes _ := []
  next := 0

/-- Calls on clones of one store, before they start. -/
def start (describe : IoError → String) (process : ℕ) (ir : IrVersion) (tensors : ι → NativeTensor) :
    Threads ι (Reply (N := String)) (Disk String) GgufError TensorShardRef where
  state := emptyDisk
  programs i := storeTensor describe process ir (tensors i)

variable {describe : IoError → String} {process : ℕ} {ir : IrVersion} {tensors : ι → NativeTensor}
  {threads threads' : Threads ι (Reply (N := String)) (Disk String) GgufError TensorShardRef}

omit [DecidableEq ι] in
theorem temporary : Temporary (fun i => tempPath process (sha256 (encoded ir (tensors i))))
    fun i => shardPath (sha256 (encoded ir (tensors i))) where
  ne _ _ := tempPath_ne_shardPath process _ _
  same _ _ h := congrArg shardPath (tempPath_injective process h)

omit [DecidableEq ι] in
theorem writing_start : Writing (fun i => tempPath process (sha256 (encoded ir (tensors i))))
    (fun i => shardPath (sha256 (encoded ir (tensors i)))) (fun i => encoded ir (tensors i))
    (fun _ => anyEnd) (start describe process ir tensors) fun _ => none :=
  .of_empty (fun _ => rfl) fun i => publishes_storeTensor (tensors i)

omit [DecidableEq ι] in
/-- Whole files are sound. -/
theorem sound_of_done {d : Disk String} {opened : ι → Opened}
    (hheld : Inodes.Held (fun i => tempPath process (sha256 (encoded ir (tensors i))))
      (fun i => shardPath (sha256 (encoded ir (tensors i)))) (fun i => encoded ir (tensors i)) d
      opened)
    (hdone : Done (fun i => shardPath (sha256 (encoded ir (tensors i))))
      (fun i => encoded ir (tensors i)) d opened) : Sound d := by
  intro hash file hname
  rcases hheld.part _ _ hname with ⟨i, hi⟩ | ⟨i, hi, -⟩
  · have hthere : d.names (shardPath (sha256 (encoded ir (tensors i)))) = some file := by
      rw [← hi]
      exact hname
    obtain ⟨j, hj, hbytes⟩ := (hdone i file hthere).1
    rw [hbytes]
    exact (shardPath_injective hj).trans (shardPath_injective hi).symm
  · exact absurd hi.symm (tempPath_ne_shardPath process _ hash)

/-- **The store is sound exactly as long as no renaming takes a part of a shard.**  Where all
renamings of a run take files that are written to their end, every shard has its digest in every
state that is reached; and one that takes a part leaves a shard that has not, unless the part has the
digest of the whole. -/
theorem shards_sound_iff (describe : IoError → String) (process : ℕ) (ir : IrVersion)
    (tensors : ι → NativeTensor)
    (threads : Threads ι (Reply (N := String)) (Disk String) GgufError TensorShardRef) :
    (Steps.Reached DoesDisk (TakesWhole process ir tensors) (start describe process ir tensors)
        threads → Sound threads.state) ∧
    (Steps.Reached DoesDisk (fun _ _ => True) (start describe process ir tensors) threads →
      ∀ event threads', Turn DoesDisk threads event threads' →
        ¬ TakesWhole process ir tensors threads.state event →
          ¬ Sound threads'.state ∨ ∃ i part, part <+: encoded ir (tensors i) ∧
            Collides part (encoded ir (tensors i))) := by
  constructor
  · intro hreached
    obtain ⟨opened, hwriting, hdone⟩ :=
      writing_start.done (fun i file h => by cases h) temporary hreached
    exact sound_of_done hwriting.held hdone
  · intro hreached event threads' hturn hpart
    obtain ⟨opened, hwriting⟩ := writing_start.reached hreached
    obtain ⟨i, file, hname, hprefix, hne⟩ := hwriting.torn temporary hturn hpart
    by_cases hsound : Sound threads'.state
    · exact .inr ⟨i, _, hprefix, hne, hsound _ _ hname⟩
    · exact .inl hsound

/-- A call that may always be made. -/
abbrev DoesAny : Does (Reply (N := String)) (Disk String) := fun c d r d' => DoesDisk c d r d' ∧ True

section Overtaken

variable {α : Type} (describe : IoError → String) (process : ℕ) (hash : Digest) (byte : UInt8)
  (rest : Bytes) (finish : String → ShardProg α)

seal tempPath shardPath

omit [DecidableEq ι]

/-- A first call makes the temporary file. -/
theorem run_first : ∃ events, Run DoesAny emptyDisk
    (persistContentAddressed describe process hash (byte :: rest) >>= finish) events
    (emptyDisk.made (tempPath process hash))
    (fill describe (tempPath process hash) (shardPath hash) hash (byte :: rest) 0 >>= finish) :=
  ⟨_, .step ⟨.fails _ .notFound (by decide), trivial⟩
    (.step ⟨.createNew rfl, trivial⟩ (.stop _ _))⟩

/-- A second one makes another in its place. -/
theorem run_second (d : Disk String) {file : ℕ}
    (htemp : d.names (tempPath process hash) = some file) : ∃ events p, Run DoesAny d
    (persistContentAddressed describe process hash (byte :: rest) >>= finish) events
    ((d.without (tempPath process hash)).made (tempPath process hash)) p :=
  ⟨_, _, .step ⟨.fails _ .notFound (by decide), trivial⟩
    (.step ⟨.taken htemp, trivial⟩ (.step ⟨.remove htemp, trivial⟩
      (.step ⟨.createNew (Function.update_self ..), trivial⟩ (.stop _ _))))⟩

/-- The first one writes its own, and renames what stands under the name. -/
theorem run_third (d : Disk String) (temp destination : String) (file : ℕ) {other : ℕ}
    (htemp : d.names temp = some other) : ∃ events p, Run DoesAny d
    (fill describe temp destination hash (byte :: rest) file >>= finish) events
    ((d.grown file (byte :: rest)).moved temp destination other) p := by
  have hall : writeAll describe file (rest.drop rest.length) = pure () := by
    rw [List.drop_length, writeAll]
  have hpublish : ∃ events p, Run DoesAny (d.grown file (byte :: rest))
      (((pure () >>= fun _ => io describe (.sync file)).attempt >>=
        settle describe temp destination hash (byte :: rest)) >>= finish) events
      ((d.grown file (byte :: rest)).moved temp destination other) p :=
    ⟨_, _, .step ⟨.sync, trivial⟩ (.step ⟨.rename htemp, trivial⟩ (.stop _ _))⟩
  obtain ⟨events, p, hpublish⟩ := hpublish
  have hwrite : DoesDisk (.write file (byte :: rest)) d (.ok (rest.length + 1))
      (d.grown file ((byte :: rest).take (rest.length + 1))) := .write le_rfl
  rw [List.take_of_length_le (by rfl)] at hwrite
  rw [← hall] at hpublish
  rw [fill, writeTemp, writeAll]
  exact ⟨_ :: events, p, .step ⟨hwrite, trivial⟩ hpublish⟩

end Overtaken

/-- **Two calls that store one shard**: the first writes its file to the end, and renames the empty
file that the second has made in its place. -/
theorem exists_unsound (describe : IoError → String) (process : ℕ) {tensor : NativeTensor}
    {byte : UInt8} {rest : Bytes} (hencode : encodeNativeTensor ir tensor = .ok (byte :: rest))
    (hdigest : sha256 [] ≠ sha256 (byte :: rest)) :
    ∃ threads, Steps.Reached DoesDisk (fun _ _ => True)
      (start describe process ir fun _ : Bool => tensor) threads ∧ ¬ Sound threads.state := by
  obtain ⟨finish, hstore⟩ : ∃ finish, storeTensor describe process ir tensor =
      persistContentAddressed describe process (sha256 (byte :: rest)) (byte :: rest) >>= finish :=
    ⟨_, by rw [storeTensor, hencode]; rfl⟩
  generalize sha256 (byte :: rest) = hash at hdigest hstore
  have hthere (d : Disk String) (name : String) : (d.made name).names name = some d.next :=
    Function.update_self ..
  obtain ⟨_, hfirst⟩ := run_first describe process hash byte rest finish
  obtain ⟨_, _, hsecond⟩ := run_second describe process hash byte rest finish _ (hthere emptyDisk _)
  obtain ⟨_, _, hthird⟩ := run_third describe hash byte rest finish _ _ (shardPath hash) 0
    (hthere ((emptyDisk.made (tempPath process hash)).without (tempPath process hash)) _)
  have hstart : Steps.Reached DoesDisk (fun _ _ => True)
      (start describe process ir fun _ : Bool => tensor)
      (start describe process ir fun _ : Bool => tensor) := .start
  have hmade := hstart.of_run (i := false) hstore hfirst
  have hagain := hmade.of_run (i := true) hstore hsecond
  have hreached := hagain.of_run (i := false) rfl hthird
  refine ⟨_, hreached, fun hsound => hdigest ?_⟩
  have hsha := hsound hash 1 (Function.update_self ..)
  have hempty : (((((emptyDisk.made (tempPath process hash)).without (tempPath process hash)).made
      (tempPath process hash)).grown 0 (byte :: rest)).moved (tempPath process hash)
      (shardPath hash) 1).bytes 1 = [] := rfl
  exact (congrArg sha256 hempty).symm.trans hsha

theorem not_shards_sound : ¬ ∀ (ι : Type) [DecidableEq ι] (describe : IoError → String) (process : ℕ)
    (ir : IrVersion) (tensors : ι → NativeTensor)
    (threads : Threads ι (Reply (N := String)) (Disk String) GgufError TensorShardRef),
    Steps.Reached DoesDisk (fun _ _ => True) (start describe process ir tensors) threads →
      Sound threads.state := by
  intro h
  obtain ⟨byte, rest, hfile⟩ : ∃ byte rest, TensorSample.file .current none = byte :: rest :=
    ⟨_, _, rfl⟩
  have hdigest : sha256 [] ≠ sha256 (TensorSample.file .current none) := by decide +kernel
  rw [hfile] at hdigest
  obtain ⟨threads, hreached, hunsound⟩ := exists_unsound (fun _ => "") 1
    ((TensorSample.encode_tensor .current none).trans (by rw [hfile])) hdigest
  exact hunsound (h Bool _ _ _ _ threads hreached)

end Turns

end FileTensorShardStore

end NTD97
