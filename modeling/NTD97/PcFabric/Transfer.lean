import Mathlib
import NTD97.Lib.Effect
import NTD97.PcFabric

/-!
# PcFabric/Transfer — an artifact in chunks

    bytes ──chunks──▸ c₀, c₁, …          next_offset ──chunk_at──▸ c
                      └──────── push ─────────┘
                                ▼
                    bytes so far ──finish──▸ bytes, if their digest is right

The sender cuts its bytes in one go or at an offset it is asked for; the assembler takes the chunk
at its own offset and no other.
-/

namespace NTD97

open Effect Guard PcFabric Text Wire

namespace ArtifactSender

/-- The loop of `chunks` from an offset on, for as many rounds as it is given. -/
def chunksFrom (self : ArtifactSender) : ℕ → ℕ → Option (List ArtifactChunk)
  | 0, _ => none
  | fuel + 1, offset =>
    if offset < self.bytes.length then
      let stop := min (offset + self.descriptor.chunkSize.toNat) self.bytes.length
      let chunk : ArtifactChunk := {
        transferId := self.descriptor.transferId
        offset := UInt64.ofNat offset
        data := (self.bytes.take stop).drop offset }
      (chunksFrom self fuel stop).map (chunk :: ·)
    else some []

/-- All chunks, if the loop ends within `fuel` rounds. -/
def chunks (self : ArtifactSender) (fuel : ℕ) : Option (List ArtifactChunk) :=
  self.chunksFrom fuel 0

end ArtifactSender

structure ArtifactAssembler where
  descriptor : ArtifactDescriptor
  bytes : Bytes
  nextOffset : UInt64
  deriving DecidableEq

namespace ArtifactAssembler

/-- `isize::MAX`, the largest capacity of a vector. -/
def maxCapacity : ℕ := 2 ^ 63 - 1

/-- A fresh assembler; there is no answer where `Vec::with_capacity` panics. -/
def new (descriptor : ArtifactDescriptor) : Option (Except PcFabricError ArtifactAssembler) :=
  match descriptor.validate with
  | .error e => some (.error e)
  | .ok () =>
    if maxCapacity < descriptor.length.toNat then none
    else some (.ok { descriptor, bytes := [], nextOffset := 0 })

def push (chunk : ArtifactChunk) : Eff ArtifactAssembler PcFabricError Unit := do
  let self ← get
  refuse (chunk.transferId ≠ self.descriptor.transferId ∨ chunk.offset ≠ self.nextOffset)
    .artifactOutOfOrder
  refuse (self.descriptor.chunkSize.toNat < chunk.data.length) .invalidArtifact
  let chunkLen ← check id (lenU64 chunk.data.length)
  let stop ← okOr (checkedAdd64 self.nextOffset chunkLen) .overflow
  refuse (self.descriptor.length < stop) .invalidArtifact
  modify fun self => { self with bytes := self.bytes ++ chunk.data, nextOffset := stop }

def finish (self : ArtifactAssembler) : Except PcFabricError Bytes := do
  refuse (self.nextOffset ≠ self.descriptor.length) .invalidArtifact
  refuse (sha256 self.bytes ≠ self.descriptor.sha256) .artifactHashMismatch
  return self.bytes

/-- A chunk is accepted, and the assembler it leaves. -/
def Accepts (self : ArtifactAssembler) (chunk : ArtifactChunk) (next : ArtifactAssembler) : Prop :=
  exec (push chunk) self = (.ok (), next)

/-- The assembler after a sequence of chunks, whether they are accepted or rejected. -/
def pushAll (self : ArtifactAssembler) (chunks : List ArtifactChunk) : ArtifactAssembler :=
  chunks.foldl (fun self chunk => (exec (push chunk) self).2) self

end ArtifactAssembler

/-- The chunks asked for at the assembler's next offset until the length is reached, each of them
pushed, and the assembler this leaves. -/
def ArtifactSender.askedWithin (self : ArtifactSender) :
    ℕ → ArtifactAssembler → Option (List ArtifactChunk × ArtifactAssembler)
  | 0, _ => none
  | fuel + 1, assembler =>
    if assembler.nextOffset < self.descriptor.length then do
      let chunk ← (self.chunkAt assembler.nextOffset).toOption
      let (pushed, assembler) := exec (ArtifactAssembler.push chunk) assembler
      let () ← pushed.toOption
      let (chunks, assembler) ← askedWithin self fuel assembler
      return (chunk :: chunks, assembler)
    else some ([], assembler)

/-! ## What one push does -/

namespace ArtifactAssembler

variable {self next : ArtifactAssembler} {chunk : ArtifactChunk}

/-- **A push** appends the chunk at the next offset, or leaves the assembler as it was. -/
theorem push_spec (self : ArtifactAssembler) (chunk : ArtifactChunk) :
    Triple (· = self) (push chunk)
      (fun _ next => chunk.transferId = self.descriptor.transferId ∧
        chunk.offset = self.nextOffset ∧ chunk.data.length ≤ self.descriptor.chunkSize.toNat ∧
        next.descriptor = self.descriptor ∧ next.bytes = self.bytes ++ chunk.data ∧
        next.nextOffset.toNat = self.nextOffset.toNat + chunk.data.length ∧
        next.nextOffset ≤ self.descriptor.length)
      (fun _ next => next = self) := by
  refine .read_bind fun _ hs => ?_
  subst hs
  refine .refuse_bind (fun hplace => .refuse_bind (fun hsize => .check_bind (fun len hlen =>
    .okOr_bind (fun stop hstop => .refuse_bind (fun hend => .write fun t ht => ?_)
      fun _ _ ht => ht) fun _ _ ht => ht) fun _ _ _ ht => ht) fun _ _ ht => ht) fun _ _ ht => ht
  subst ht
  rw [not_or, not_not, not_not] at hplace
  rw [lenU64_eq_ok] at hlen
  rw [checkedAdd64_eq_some, hlen] at hstop
  exact ⟨hplace.1, hplace.2, Nat.not_lt.1 hsize, rfl, rfl, hstop, UInt64.not_lt.1 hend⟩

/-- A chunk at the next offset that is not too large and does not pass the end is accepted. -/
theorem accepts_of_fits (stop : UInt64) (hid : chunk.transferId = self.descriptor.transferId)
    (hplace : chunk.offset = self.nextOffset)
    (hsize : chunk.data.length ≤ self.descriptor.chunkSize.toNat)
    (hstop : stop.toNat = self.nextOffset.toNat + chunk.data.length)
    (hend : stop ≤ self.descriptor.length) :
    self.Accepts chunk { self with bytes := self.bytes ++ chunk.data, nextOffset := stop } := by
  have hlen : chunk.data.length < 2 ^ 64 :=
    hsize.trans_lt (self.descriptor.chunkSize.toNat_lt.trans (by decide))
  have hadd : checkedAdd64 self.nextOffset (UInt64.ofNat chunk.data.length) = some stop := by
    rw [checkedAdd64_eq_some, UInt64.toNat_ofNat_of_lt' hlen]
    exact hstop
  have hlen64 : lenU64 (ε := PcFabricError) chunk.data.length
      = .ok (UInt64.ofNat chunk.data.length) := if_pos hlen
  have hin : ¬ (chunk.transferId ≠ self.descriptor.transferId ∨ chunk.offset ≠ self.nextOffset) :=
    fun h => h.elim (fun h => h hid) fun h => h hplace
  rw [Accepts, push, exec_get_bind, exec_refuse_of_neg hin, exec_refuse_of_neg (Nat.not_lt.2 hsize),
    hlen64, exec_check_ok_bind, hadd, exec_okOr_some_bind,
    exec_refuse_of_neg (UInt64.not_lt.2 hend), exec_modify]

theorem accepts_spec (h : self.Accepts chunk next) :
    chunk.transferId = self.descriptor.transferId ∧ chunk.offset = self.nextOffset ∧
      next.descriptor = self.descriptor ∧ next.bytes = self.bytes ++ chunk.data ∧
      next.nextOffset.toNat = self.nextOffset.toNat + chunk.data.length ∧
      next.nextOffset ≤ self.descriptor.length := by
  obtain ⟨hid, hplace, -, hrest⟩ := (push_spec self chunk).ok_of rfl h
  exact ⟨hid, hplace, hrest⟩

/-- **A rejected chunk leaves the assembler as it was.** -/
theorem push_rejected {e : PcFabricError} (h : exec (push chunk) self = (.error e, next)) :
    next = self := by
  have hspec := (push_spec self chunk).exec_of rfl
  rw [h] at hspec
  exact hspec

theorem push_descriptor (self : ArtifactAssembler) (chunk : ArtifactChunk) :
    (exec (push chunk) self).2.descriptor = self.descriptor := by
  rcases h : exec (push chunk) self with ⟨e | _, next⟩
  · rw [push_rejected h]
  · exact (accepts_spec h).2.2.1

theorem pushAll_descriptor : ∀ (chunks : List ArtifactChunk) (self : ArtifactAssembler),
    (self.pushAll chunks).descriptor = self.descriptor
  | [], _ => rfl
  | chunk :: chunks, self =>
    (pushAll_descriptor chunks _).trans (push_descriptor self chunk)

theorem finish_eq_ok {bytes : Bytes} : self.finish = .ok bytes ↔
    self.nextOffset = self.descriptor.length ∧ sha256 self.bytes = self.descriptor.sha256 ∧
      self.bytes = bytes := by
  simp only [finish, bind_eq_ok, refuse_eq_ok, exists_unit, pure_eq_ok, ne_eq, not_not]

theorem descriptor_of_new {descriptor : ArtifactDescriptor} (h : new descriptor = some (.ok self)) :
    self.descriptor = descriptor := by
  rw [new] at h
  split at h
  · cases h
  · split at h
    · cases h
    · cases h
      rfl

theorem new_of_valid {descriptor : ArtifactDescriptor} (hvalid : descriptor.validate = .ok ())
    (hlen : descriptor.length.toNat ≤ maxCapacity) :
    new descriptor = some (.ok { descriptor, bytes := [], nextOffset := 0 }) := by
  rw [new, hvalid]
  exact if_neg (Nat.not_lt.2 hlen)

end ArtifactAssembler

/-! ## The two chunkers and the assembler -/

namespace ArtifactSender

variable {self : ArtifactSender} {assembler : ArtifactAssembler} {offset : ℕ}

/-- The descriptor tells the length of the bytes, and a size that gets on. -/
structure Wf (sender : ArtifactSender) : Prop where
  length : sender.descriptor.length.toNat = sender.bytes.length
  chunkSize : 0 < sender.descriptor.chunkSize.toNat

/-- The assembler holds the bytes of the sender up to the offset. -/
structure HoldsTo (sender : ArtifactSender) (assembler : ArtifactAssembler) (offset : ℕ) :
    Prop where
  descriptor : assembler.descriptor = sender.descriptor
  bytes : assembler.bytes = sender.bytes.take offset
  nextOffset : assembler.nextOffset.toNat = offset
  le : offset ≤ sender.bytes.length

theorem HoldsTo.lt_iff (hself : self.Wf) (h : self.HoldsTo assembler offset) :
    assembler.nextOffset < self.descriptor.length ↔ offset < self.bytes.length := by
  rw [UInt64.lt_iff_toNat_lt, h.nextOffset, hself.length]

/-- Where the chunk at an offset stops. -/
def stopAt (self : ArtifactSender) (offset : ℕ) : ℕ :=
  min (offset + self.descriptor.chunkSize.toNat) self.bytes.length

/-- The chunk from an offset on. -/
def cut (self : ArtifactSender) (offset : ℕ) : ArtifactChunk where
  transferId := self.descriptor.transferId
  offset := UInt64.ofNat offset
  data := (self.bytes.take (self.stopAt offset)).drop offset

theorem length_cut (self : ArtifactSender) (offset : ℕ) :
    (self.cut offset).data.length = self.stopAt offset - offset := by
  rw [cut, List.length_drop, List.length_take,
    Nat.min_eq_left (show self.stopAt offset ≤ _ from Nat.min_le_right _ _)]

/-- **Asked for the offset of the assembler**, the sender cuts the chunk there. -/
theorem HoldsTo.chunkAt (hself : self.Wf) (h : self.HoldsTo assembler offset) :
    self.chunkAt assembler.nextOffset = .ok (self.cut offset) := by
  have hoffset : UInt64.ofNat offset = assembler.nextOffset := by
    rw [← h.nextOffset, UInt64.ofNat_toNat]
  have hin : ¬ self.descriptor.length < assembler.nextOffset := by
    rw [UInt64.lt_iff_toNat_lt, hself.length, h.nextOffset]
    exact Nat.not_lt.2 h.le
  rw [ArtifactSender.chunkAt, refuse, if_neg hin, h.nextOffset, refuse, if_neg (Nat.not_lt.2 h.le),
    cut, hoffset, stopAt]
  rfl

/-- **The assembler takes that chunk**, and holds the bytes up to where it stops. -/
theorem HoldsTo.accepts (hself : self.Wf) (h : self.HoldsTo assembler offset) :
    ∃ next, assembler.Accepts (self.cut offset) next ∧
      self.HoldsTo next (self.stopAt offset) := by
  have hle : offset ≤ self.stopAt offset := le_min (Nat.le_add_right _ _) h.le
  have hstop : self.stopAt offset ≤ self.bytes.length := Nat.min_le_right _ _
  have hlt : self.stopAt offset < 2 ^ 64 :=
    (hstop.trans hself.length.ge).trans_lt self.descriptor.length.toNat_lt
  have hto : (UInt64.ofNat (self.stopAt offset)).toNat = self.stopAt offset :=
    UInt64.toNat_ofNat_of_lt' hlt
  refine ⟨_, ArtifactAssembler.accepts_of_fits (UInt64.ofNat (self.stopAt offset))
    (by rw [h.descriptor]; rfl) ?_ ?_ ?_ ?_, h.descriptor, ?_, hto, hstop⟩
  · rw [← UInt64.toNat_inj, h.nextOffset]
    exact UInt64.toNat_ofNat_of_lt' (hle.trans_lt hlt)
  · rw [length_cut, h.descriptor, stopAt]
    omega
  · rw [hto, h.nextOffset, length_cut]
    omega
  · rw [UInt64.le_iff_toNat_le, hto, h.descriptor, hself.length]
    exact hstop
  · change assembler.bytes ++ (self.cut offset).data = _
    rw [h.bytes, cut, ← List.take_append_drop offset (self.bytes.take (self.stopAt offset)),
      List.take_take, Nat.min_eq_left hle, List.drop_append_of_le_length
        (List.length_take_of_le h.le).ge, List.drop_of_length_le (List.length_take_le _ _),
      List.nil_append]

/-- **From an offset on, the two chunkers agree**, and pushing their chunks completes the bytes. -/
theorem chunksFrom_eq_askedWithin (hself : self.Wf) : ∀ (left : ℕ) {offset : ℕ}
    {assembler : ArtifactAssembler}, self.HoldsTo assembler offset →
      self.bytes.length - offset = left →
        ∃ chunks final, (∀ fuel, left < fuel → self.chunksFrom fuel offset = some chunks ∧
            self.askedWithin fuel assembler = some (chunks, final)) ∧
          exec (chunks.forM ArtifactAssembler.push) assembler = (.ok (), final) ∧
          self.HoldsTo final self.bytes.length := by
  intro left
  -- what is left gets less with every chunk
  induction left using Nat.strong_induction_on with
  | _ left ih =>
    intro offset assembler h hleft
    by_cases hmore : offset < self.bytes.length
    · obtain ⟨next, haccepts, hnext⟩ := h.accepts hself
      have hgrows : offset < self.stopAt offset :=
        lt_min (Nat.lt_add_of_pos_right hself.chunkSize) hmore
      obtain ⟨chunks, final, hloops, hpush, hfinal⟩ :=
        ih (self.bytes.length - self.stopAt offset) (by omega) hnext rfl
      refine ⟨self.cut offset :: chunks, final, fun fuel hfuel => ?_, ?_, hfinal⟩
      · obtain ⟨fuel, rfl⟩ := Nat.exists_eq_add_one_of_ne_zero (Nat.ne_zero_of_lt hfuel)
        obtain ⟨hchunks, hasked⟩ := hloops fuel (by omega)
        refine ⟨?_, ?_⟩
        · rw [chunksFrom, if_pos hmore]
          exact congrArg (Option.map (self.cut offset :: ·)) hchunks
        · rw [askedWithin, if_pos ((h.lt_iff hself).2 hmore), h.chunkAt hself]
          have haccepts : exec (ArtifactAssembler.push (self.cut offset)) assembler
            = (.ok (), next) := haccepts
          simp only [Except.toOption, Option.bind_eq_bind, Option.bind_some, haccepts, hasked]
          rfl
      · exact (exec_bind_ok haccepts).trans hpush
    · obtain rfl : offset = self.bytes.length := le_antisymm h.le (Nat.not_lt.1 hmore)
      refine ⟨[], assembler, fun fuel hfuel => ?_, rfl, h⟩
      obtain ⟨fuel, rfl⟩ := Nat.exists_eq_add_one_of_ne_zero (Nat.ne_zero_of_lt hfuel)
      rw [chunksFrom, askedWithin, if_neg hmore, if_neg fun hlt => hmore ((h.lt_iff hself).1 hlt)]
      exact ⟨rfl, rfl⟩

end ArtifactSender

/-! ## The transfer -/

/-- An artifact can be sent that fits a vector, under a nonzero id and a name, in chunks of up to
four mebibytes. -/
theorem ArtifactSender.new_of_valid {transferId : UInt64} {name : String} {bytes : Bytes}
    {chunkSize : UInt32} (hid : transferId ≠ 0) (hname : isBlank name = false)
    (hpos : 0 < chunkSize) (hmax : chunkSize ≤ 4 * 1024 * 1024)
    (hlen : bytes.length ≤ ArtifactAssembler.maxCapacity) :
    ∃ sender, ArtifactSender.new transferId name bytes chunkSize = .ok sender ∧
      sender.bytes = bytes ∧ sender.descriptor.sha256 = sha256 bytes ∧ sender.Wf ∧
      sender.descriptor.validate = .ok () := by
  have hlt : bytes.length < 2 ^ 64 := hlen.trans_lt (by decide)
  have hvalid : ArtifactDescriptor.validate { transferId, name, chunkSize, sha256 := sha256 bytes
                                              length := UInt64.ofNat bytes.length } = .ok () := by
    rw [ArtifactDescriptor.validate, refuse_eq_ok]
    rintro (h | h | h | h)
    · exact hid h
    · exact Bool.false_ne_true (hname.symm.trans h)
    · exact UInt32.lt_irrefl _ (hpos.trans_eq h)
    · exact UInt32.not_lt.2 hmax h
  refine ⟨⟨_, bytes⟩, ?_, rfl, rfl, ⟨UInt64.toNat_ofNat_of_lt' hlt, ?_⟩, hvalid⟩
  · rw [ArtifactSender.new, bind_eq_ok]
    exact ⟨_, if_pos hlt, bind_eq_ok.2 ⟨(), hvalid, rfl⟩⟩
  · exact UInt32.lt_iff_toNat_lt.1 hpos

/-- Whatever chunks were pushed, a finished assembler holds bytes with the digest announced. -/
theorem ArtifactAssembler.eq_or_collides_of_finish {self : ArtifactAssembler} {bytes out : Bytes}
    {chunks : List ArtifactChunk} (hdigest : self.descriptor.sha256 = sha256 bytes)
    (h : (self.pushAll chunks).finish = .ok out) : out = bytes ∨ Collides out bytes := by
  obtain ⟨-, hsha, rfl⟩ := finish_eq_ok.1 h
  rw [pushAll_descriptor, hdigest] at hsha
  exact eq_or_collides hsha

/-- **The transfer is exact.**  The chunks cut in one go are those asked for one by one; pushed in
order they give the bytes back.  Any other chunks give the bytes, a collision or an error, and a
chunk that is rejected changes nothing. -/
theorem artifact_transfer_exact (transferId : UInt64) (name : String) (bytes : Bytes)
    (chunkSize : UInt32) (hid : transferId ≠ 0) (hname : isBlank name = false)
    (hpos : 0 < chunkSize) (hmax : chunkSize ≤ 4 * 1024 * 1024)
    (hlen : bytes.length ≤ ArtifactAssembler.maxCapacity) :
    ∃ sender assembler, ArtifactSender.new transferId name bytes chunkSize = .ok sender ∧
      ArtifactAssembler.new sender.descriptor = some (.ok assembler) ∧
      (∃ chunks final,
        (∀ fuel, bytes.length < fuel → sender.chunks fuel = some chunks ∧
          sender.askedWithin fuel assembler = some (chunks, final)) ∧
        exec (chunks.forM ArtifactAssembler.push) assembler = (.ok (), final) ∧
        final.finish = .ok bytes) ∧
      (∀ chunks out, (assembler.pushAll chunks).finish = .ok out →
        out = bytes ∨ Collides out bytes) ∧
      ∀ (self next : ArtifactAssembler) chunk e,
        exec (ArtifactAssembler.push chunk) self = (.error e, next) → next = self := by
  obtain ⟨sender, hsender, rfl, hdigest, hwf, hvalid⟩ :=
    ArtifactSender.new_of_valid hid hname hpos hmax hlen
  have hnew := ArtifactAssembler.new_of_valid hvalid (hwf.length.trans_le hlen)
  have hstart : sender.HoldsTo ⟨sender.descriptor, [], 0⟩ 0 :=
    ⟨rfl, List.take_zero.symm, rfl, Nat.zero_le _⟩
  obtain ⟨chunks, final, hloops, hpush, hfinal⟩ :=
    ArtifactSender.chunksFrom_eq_askedWithin hwf _ hstart rfl
  refine ⟨sender, _, hsender, hnew, ⟨chunks, final, hloops, hpush, ?_⟩, fun _ _ h =>
    ArtifactAssembler.eq_or_collides_of_finish hdigest h,
    fun _ _ _ _ h => ArtifactAssembler.push_rejected h⟩
  have hall : final.bytes = sender.bytes := hfinal.bytes.trans List.take_length
  refine ArtifactAssembler.finish_eq_ok.2 ⟨?_, ?_, hall⟩
  · rw [← UInt64.toNat_inj, hfinal.nextOffset, hfinal.descriptor, hwf.length]
  · rw [hall, hfinal.descriptor, hdigest]

/-- Five bytes in chunks of two. -/
theorem artifact_transfer_exact_five :
    ∃ sender assembler, ArtifactSender.new 7 "a" [1, 2, 3, 4, 5] 2 = .ok sender ∧
      ArtifactAssembler.new sender.descriptor = some (.ok assembler) ∧
      ∃ (chunks : List ArtifactChunk) (final : ArtifactAssembler),
        exec (chunks.forM ArtifactAssembler.push) assembler = (.ok (), final) ∧
        final.finish = .ok [1, 2, 3, 4, 5] := by
  obtain ⟨sender, assembler, hsender, hassembler, ⟨chunks, final, -, hpush, hfinish⟩, -⟩ :=
    artifact_transfer_exact 7 "a" [1, 2, 3, 4, 5] 2 (by decide) (by decide +kernel) (by decide)
      (by decide) (by decide)
  exact ⟨sender, assembler, hsender, hassembler, chunks, final, hpush, hfinish⟩

end NTD97
