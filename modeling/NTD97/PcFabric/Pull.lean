import Mathlib
import NTD97.PcFabric.Session
import NTD97.PcFabric.Transfer
import NTD97.PcFabric.Wire

/-!
# PcFabric/Pull — fetching an artifact from the paired computer

    asking(offset) ──exchange, push──▸ asking(offset + chunk) ──▸ … ──▸ returned

A round of the loop asks for the chunk at the assembler's next offset.  It gets on only by the data
of the chunk, so an accepted chunk without data makes it ask for the same offset again.  The
transport is any machine that answers a frame with a frame or an error.
-/

namespace NTD97

open Effect Guard PcFabric Wire

structure PairedPcTransport (T : Type) where
  exchange : Bytes → Eff T PcFabricError Bytes

structure PairedPcAdapter (T : Type) where
  peer : String
  capability : String
  capabilityVersion : UInt32
  session : SecureSession
  transport : T

namespace PairedPcAdapter

variable {T : Type}

/-- A call on the session of the adapter. -/
def onSession {α : Type} (x : Eff SecureSession PcFabricError α) :
    Eff (PairedPcAdapter T) PcFabricError α :=
  zoom (·.session) (fun self session => { self with session }) id x

def exchangeMessage (aead : Aead) (link : PairedPcTransport T) (message : RemoteMessage) :
    Eff (PairedPcAdapter T) PcFabricError RemoteMessage := do
  let plaintext ← check id (encodeMessage message)
  let outbound ← onSession (SecureSession.seal aead plaintext)
  let inbound ← zoom (·.transport) (fun self transport => { self with transport }) id
    (link.exchange outbound)
  let plaintext ← onSession (SecureSession.open aead inbound)
  check id (decodeMessage plaintext)

/-! ## The loop -/

/-- Where a pull stands: at the head of its loop, at its end, or stopped by a panic. -/
inductive Pull where
  | asking (assembler : ArtifactAssembler)
  | returned (result : Except PcFabricError Bytes)
  | panicked
  deriving DecidableEq

/-- The head of the loop. -/
def pullHead (descriptor : ArtifactDescriptor) (assembler : ArtifactAssembler) : Pull :=
  if assembler.nextOffset < descriptor.length then .asking assembler
  else .returned assembler.finish

/-- Its body. -/
def pullBody (aead : Aead) (link : PairedPcTransport T) (descriptor : ArtifactDescriptor)
    (assembler : ArtifactAssembler) : Eff (PairedPcAdapter T) PcFabricError ArtifactAssembler := do
  let response ← exchangeMessage aead link
    (.artifactPull descriptor.transferId assembler.nextOffset)
  match response with
  | .artifactChunk chunk =>
    let (pushed, assembler) := exec (ArtifactAssembler.push chunk) assembler
    check id pushed
    return assembler
  | _ => throw .invalidMessage

def pullStep (aead : Aead) (link : PairedPcTransport T) (descriptor : ArtifactDescriptor) :
    PairedPcAdapter T × Pull → PairedPcAdapter T × Pull
  | (self, .asking assembler) =>
    match exec (pullBody aead link descriptor assembler) self with
    | (.ok assembler, self) => (self, pullHead descriptor assembler)
    | (.error e, self) => (self, .returned (.error e))
  | (self, .returned result) => (self, .returned result)
  | (self, .panicked) => (self, .panicked)

def pullStart (descriptor : ArtifactDescriptor) : Pull :=
  match ArtifactAssembler.new descriptor with
  | none => .panicked
  | some (.error e) => .returned (.error e)
  | some (.ok assembler) => pullHead descriptor assembler

/-- `pull_artifact` after `n` exchanges. -/
def pullArtifact (aead : Aead) (link : PairedPcTransport T) (descriptor : ArtifactDescriptor)
    (self : PairedPcAdapter T) (n : ℕ) : PairedPcAdapter T × Pull :=
  (pullStep aead link descriptor)^[n] (self, pullStart descriptor)

/-! ## One exchange -/

section Loop

variable {aead : Aead} {link : PairedPcTransport T} {descriptor : ArtifactDescriptor}
  {self : PairedPcAdapter T} {assembler next : ArtifactAssembler} {n : ℕ}

/-- What the peer answers to the question for the next offset. -/
def answer (aead : Aead) (link : PairedPcTransport T) (descriptor : ArtifactDescriptor)
    (self : PairedPcAdapter T) (assembler : ArtifactAssembler) :
    Except PcFabricError RemoteMessage :=
  (exec (exchangeMessage aead link (.artifactPull descriptor.transferId assembler.nextOffset))
    self).1

/-- **A round succeeds** exactly if the answer is a chunk that the assembler accepts. -/
theorem exec_pullBody_ok {t : PairedPcAdapter T} :
    exec (pullBody aead link descriptor assembler) self = (.ok next, t) ↔ ∃ chunk,
      exec (exchangeMessage aead link (.artifactPull descriptor.transferId assembler.nextOffset))
        self = (.ok (.artifactChunk chunk), t) ∧ assembler.Accepts chunk next := by
  rw [pullBody, exec_bind]
  constructor
  · intro h
    split at h
    · next response u hexchange =>
      split at h
      · next chunk =>
        rcases hpush : exec (ArtifactAssembler.push chunk) assembler with ⟨e | _, pushed⟩
        · rw [hpush] at h
          cases h
        · rw [hpush] at h
          cases h
          exact ⟨chunk, hexchange, hpush⟩
      · cases h
    · cases h
  · rintro ⟨chunk, hexchange, haccepts⟩
    rw [ArtifactAssembler.Accepts] at haccepts
    rw [hexchange]
    dsimp only
    rw [haccepts]
    rfl

/-- **A round that goes on** was answered by a chunk that the assembler accepts. -/
theorem pullStep_asking (h : (pullStep aead link descriptor (self, .asking assembler)).2 =
    .asking next) :
    ∃ chunk, answer aead link descriptor self assembler = .ok (.artifactChunk chunk) ∧
      assembler.Accepts chunk next ∧ next.nextOffset < descriptor.length := by
  rw [pullStep] at h
  split at h
  · next pushed t hbody =>
    obtain ⟨chunk, hexchange, haccepts⟩ := exec_pullBody_ok.1 hbody
    dsimp only at h
    rw [pullHead] at h
    split at h
    · next hlt =>
      cases h
      exact ⟨chunk, congrArg Prod.fst hexchange, haccepts, hlt⟩
    · cases h
  · cases h

/-- An accepted chunk short of the end makes the loop go on. -/
theorem pullStep_of_accepts {chunk : ArtifactChunk}
    (hanswer : answer aead link descriptor self assembler = .ok (.artifactChunk chunk))
    (haccepts : assembler.Accepts chunk next) (hlt : next.nextOffset < descriptor.length) :
    (pullStep aead link descriptor (self, .asking assembler)).2 = .asking next := by
  rw [pullStep, exec_pullBody_ok.2 ⟨chunk, Prod.ext hanswer rfl, haccepts⟩]
  exact if_pos hlt

theorem pullArtifact_succ (n : ℕ) : pullArtifact aead link descriptor self (n + 1) =
    pullStep aead link descriptor (pullArtifact aead link descriptor self n) :=
  Function.iterate_succ_apply' ..

/-- A pull that asks after another exchange was asking before it. -/
theorem asking_of_succ (h : (pullArtifact aead link descriptor self (n + 1)).2 = .asking next) :
    ∃ assembler chunk, (pullArtifact aead link descriptor self n).2 = .asking assembler ∧
      answer aead link descriptor (pullArtifact aead link descriptor self n).1 assembler =
        .ok (.artifactChunk chunk) ∧
      assembler.Accepts chunk next ∧ next.nextOffset < descriptor.length := by
  rw [pullArtifact_succ] at h
  rcases hstate : pullArtifact aead link descriptor self n with ⟨before, assembler | result | _⟩ <;>
    rw [hstate] at h
  · obtain ⟨chunk, hchunk⟩ := pullStep_asking h
    exact ⟨assembler, chunk, rfl, hchunk⟩
  · cases h
  · cases h

theorem pullStart_asking (h : pullStart descriptor = .asking next) : ∃ assembler,
    ArtifactAssembler.new descriptor = some (.ok assembler) ∧
      pullHead descriptor assembler = .asking next := by
  rw [pullStart] at h
  split at h
  · cases h
  · cases h
  · next assembler hnew => exact ⟨assembler, hnew, h⟩

/-- **While a pull asks**, its assembler is for the descriptor and short of its length. -/
theorem asking_lt : ∀ {n : ℕ} {next : ArtifactAssembler},
    (pullArtifact aead link descriptor self n).2 = .asking next →
      next.descriptor = descriptor ∧ next.nextOffset < descriptor.length
  | 0, next, h => by
      obtain ⟨assembler, hnew, hhead⟩ := pullStart_asking h
      rw [pullHead] at hhead
      split at hhead
      · next hlt =>
        cases hhead
        exact ⟨ArtifactAssembler.descriptor_of_new hnew, hlt⟩
      · cases hhead
  | n + 1, next, h => by
      obtain ⟨assembler, chunk, hbefore, -, haccepts, hlt⟩ := asking_of_succ h
      exact ⟨(ArtifactAssembler.accepts_spec haccepts).2.2.1.trans (asking_lt hbefore).1, hlt⟩

/-! ## Rounds without data -/

/-- Exchange `n` of the pull is answered by a chunk at the offset asked for, without data. -/
def EmptyAt (aead : Aead) (link : PairedPcTransport T) (descriptor : ArtifactDescriptor)
    (self : PairedPcAdapter T) (n : ℕ) : Prop :=
  ∃ assembler, (pullArtifact aead link descriptor self n).2 = .asking assembler ∧
    answer aead link descriptor (pullArtifact aead link descriptor self n).1 assembler =
      .ok (.artifactChunk
        { transferId := descriptor.transferId, offset := assembler.nextOffset, data := [] })

/-- Such a chunk is accepted, and the next round asks for the same offset. -/
theorem EmptyAt.asks_again (h : EmptyAt aead link descriptor self n) :
    ∃ assembler next, (pullArtifact aead link descriptor self n).2 = .asking assembler ∧
      (pullArtifact aead link descriptor self (n + 1)).2 = .asking next ∧
        next.nextOffset = assembler.nextOffset := by
  obtain ⟨assembler, hasking, hanswer⟩ := h
  obtain ⟨hdescriptor, hlt⟩ := asking_lt hasking
  obtain ⟨next, haccepts, hsame⟩ : ∃ next, assembler.Accepts
      { transferId := descriptor.transferId, offset := assembler.nextOffset, data := [] } next ∧
        next.nextOffset = assembler.nextOffset :=
    ⟨_, ArtifactAssembler.accepts_of_fits assembler.nextOffset (by rw [hdescriptor]) rfl
      (Nat.zero_le _) rfl (by rw [hdescriptor]; exact UInt64.le_of_lt hlt), rfl⟩
  refine ⟨assembler, next, hasking, ?_, hsame⟩
  rw [pullArtifact_succ]
  rcases hstate : pullArtifact aead link descriptor self n with ⟨before, pull⟩
  rw [hstate] at hasking hanswer
  cases hasking
  exact pullStep_of_accepts hanswer haccepts (by rw [hsame]; exact hlt)

/-- **A round with data** asks for a larger offset next. -/
theorem asking_grows (hdata : ¬ EmptyAt aead link descriptor self n)
    (h : (pullArtifact aead link descriptor self (n + 1)).2 = .asking next) :
    ∃ assembler, (pullArtifact aead link descriptor self n).2 = .asking assembler ∧
      assembler.nextOffset.toNat < next.nextOffset.toNat := by
  obtain ⟨assembler, chunk, hbefore, hanswer, haccepts, -⟩ := asking_of_succ h
  obtain ⟨hid, hplace, -, -, hnext, -⟩ := ArtifactAssembler.accepts_spec haccepts
  refine ⟨assembler, hbefore, ?_⟩
  have hne : chunk.data ≠ [] := by
    intro hnil
    refine hdata ⟨assembler, hbefore, ?_⟩
    rw [hanswer, ← (asking_lt hbefore).1, ← hid, ← hplace, ← hnil]
  rw [hnext]
  exact Nat.lt_add_of_pos_right (List.length_pos_of_ne_nil hne)

/-- Without such chunks, later rounds ask for larger offsets. -/
theorem asking_lt_of_lt (hdata : ∀ n, ¬ EmptyAt aead link descriptor self n) {i j : ℕ}
    (hij : i < j) : ∀ {assembler next : ArtifactAssembler},
      (pullArtifact aead link descriptor self i).2 = .asking assembler →
        (pullArtifact aead link descriptor self j).2 = .asking next →
          assembler.nextOffset.toNat < next.nextOffset.toNat := by
  induction j, hij using Nat.le_induction with
  | base =>
    intro assembler next hi hj
    obtain ⟨before, hbefore, hlt⟩ := asking_grows (hdata i) hj
    cases hi.symm.trans hbefore
    exact hlt
  | succ j _ ih =>
    intro assembler next hi hj
    obtain ⟨before, hbefore, hlt⟩ := asking_grows (hdata j) hj
    exact (ih hi hbefore).trans hlt

/-- Without such chunks, each exchange has brought a byte. -/
theorem le_nextOffset (hdata : ∀ n, ¬ EmptyAt aead link descriptor self n) :
    ∀ {n : ℕ} {next : ArtifactAssembler},
      (pullArtifact aead link descriptor self n).2 = .asking next → n ≤ next.nextOffset.toNat
  | 0, _, _ => Nat.zero_le _
  | n + 1, next, h => by
      obtain ⟨assembler, hbefore, hlt⟩ := asking_grows (hdata n) h
      exact (le_nextOffset hdata hbefore).trans_lt hlt

/-! ## How long a pull takes -/

/-- The descriptor is refused, or its length fits a vector. -/
def FitsVec (descriptor : ArtifactDescriptor) : Prop :=
  descriptor.validate = .ok () → descriptor.length.toNat ≤ ArtifactAssembler.maxCapacity

theorem pullStart_panicked_iff : pullStart descriptor = .panicked ↔ ¬ FitsVec descriptor := by
  have hhead (assembler : ArtifactAssembler) : pullHead descriptor assembler ≠ .panicked := by
    rw [pullHead]
    split <;> exact Pull.noConfusion
  rw [pullStart, ArtifactAssembler.new, FitsVec]
  rcases descriptor.validate with e | _
  · exact iff_of_false Pull.noConfusion fun h => h fun h => by cases h
  · dsimp only
    by_cases hlen : ArtifactAssembler.maxCapacity < descriptor.length.toNat
    · rw [if_pos hlen]
      exact iff_of_true rfl fun h => Nat.not_lt.2 (h rfl) hlen
    · rw [if_neg hlen]
      exact iff_of_false (hhead _) fun h => h fun _ => Nat.not_lt.1 hlen

theorem panicked_iff : (pullArtifact aead link descriptor self n).2 = .panicked ↔
    ¬ FitsVec descriptor := by
  rw [← pullStart_panicked_iff]
  induction n with
  | zero => rfl
  | succ n ih =>
    rw [← ih, pullArtifact_succ]
    rcases pullArtifact aead link descriptor self n with ⟨before, assembler | result | _⟩
    · refine iff_of_false (fun h => ?_) Pull.noConfusion
      rw [pullStep] at h
      split at h
      · dsimp only at h
        rw [pullHead] at h
        split at h <;> cases h
      · cases h
    · exact Iff.rfl
    · exact Iff.rfl

/-- The pull returns after at most one exchange for each byte: no more than the artifact's length,
and no two of them for the same offset. -/
def AtMostOnePerByte (aead : Aead) (link : PairedPcTransport T) (descriptor : ArtifactDescriptor)
    (self : PairedPcAdapter T) : Prop :=
  (∃ n ≤ descriptor.length.toNat, ∃ result,
    (pullArtifact aead link descriptor self n).2 = .returned result) ∧
  ∀ i j assembler next, i < j → (pullArtifact aead link descriptor self i).2 = .asking assembler →
    (pullArtifact aead link descriptor self j).2 = .asking next →
      assembler.nextOffset ≠ next.nextOffset

/-- **A pull ends within one exchange for each byte** exactly if its descriptor does not ask for more
memory than a vector can have and no chunk asked for comes without data. -/
theorem atMostOnePerByte_iff (aead : Aead) (link : PairedPcTransport T)
    (descriptor : ArtifactDescriptor) (self : PairedPcAdapter T) :
    AtMostOnePerByte aead link descriptor self ↔
      FitsVec descriptor ∧ ∀ n, ¬ EmptyAt aead link descriptor self n := by
  constructor
  · rintro ⟨⟨n, -, result, hreturned⟩, hdistinct⟩
    refine ⟨?_, fun n hempty => ?_⟩
    · by_contra hfits
      cases hreturned.symm.trans (panicked_iff.2 hfits)
    · obtain ⟨assembler, next, hasking, hnext, hsame⟩ := hempty.asks_again
      exact hdistinct n (n + 1) assembler next (Nat.lt_succ_self n) hasking hnext hsame.symm
  · rintro ⟨hfits, hdata⟩
    refine ⟨⟨descriptor.length.toNat, le_rfl, ?_⟩, fun i j assembler next hij hi hj heq => ?_⟩
    · rcases hend : (pullArtifact aead link descriptor self descriptor.length.toNat).2 with
        assembler | result | _
      · -- after so many exchanges every byte would be there
        have hlt := UInt64.lt_iff_toNat_lt.1 (asking_lt hend).2
        exact absurd (le_nextOffset hdata hend) (Nat.not_le.2 hlt)
      · exact ⟨result, rfl⟩
      · exact absurd hfits (panicked_iff.1 hend)
    · have hlt := asking_lt_of_lt hdata hij hi hj
      rw [heq] at hlt
      exact Nat.lt_irrefl _ hlt

end Loop

/-! ## A peer that sends nothing -/

namespace PullSample

/-- A cipher that hides nothing. -/
def clear : Aead where
  encrypt _ _ _ message := some message
  decrypt _ _ _ ciphertext := some ciphertext
  decrypt_encrypt h := h.symm

def session : SecureSession where
  sessionId := ⟨List.replicate 16 0, List.length_replicate⟩
  txKey := zeroDigest
  rxKey := zeroDigest
  txSequence := 0
  rxSequence := 0

/-- The chunk at the start of transfer 1, without data. -/
def nothing : Bytes :=
  ((encodeMessage (.artifactChunk { transferId := 1, offset := 0, data := [] })).toOption).getD []

/-- A peer that answers every frame with nothing. -/
def silent : PairedPcTransport SecureSession where
  exchange _ := SecureSession.seal clear nothing

def pairedAdapter : PairedPcAdapter SecureSession where
  peer := "pc"
  capability := "files"
  capabilityVersion := 1
  session := session
  transport := session

def descriptor : ArtifactDescriptor where
  transferId := 1
  name := "a"
  length := 1
  sha256 := zeroDigest
  chunkSize := 1

end PullSample

open PullSample in
theorem asking_silent : ∀ n < 4, (pullArtifact clear silent descriptor pairedAdapter n).2 =
    .asking { descriptor := descriptor, bytes := [], nextOffset := 0 } := by
  decide +kernel

open PullSample in
/-- One byte is to be fetched, and after three exchanges the loop still asks for it. -/
theorem not_atMostOnePerByte : descriptor.length = 1 ∧
    (pullArtifact clear silent descriptor pairedAdapter 3).2 =
      .asking { descriptor := descriptor, bytes := [], nextOffset := 0 } ∧
    ¬ AtMostOnePerByte clear silent descriptor pairedAdapter :=
  ⟨rfl, asking_silent 3 (by decide), fun ⟨_, hdistinct⟩ => hdistinct 0 1 _ _ (by decide)
    (asking_silent 0 (by decide)) (asking_silent 1 (by decide)) rfl⟩

end PairedPcAdapter

end NTD97
