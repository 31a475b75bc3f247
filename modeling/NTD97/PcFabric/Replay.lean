import Mathlib
import NTD97.Lib.Width
import NTD97.PcFabric.Agent

/-!
# PcFabric/Replay — a remote side effect at most once

    execute ──Ok──▸ store artifacts ──▸ result ──▸ cache ──▸ encode
                        ✗                 ✗                    ✗

Nothing undoes an execution, and the cache is written after it.  A run in which every output can be
stored and sent never repeats an execution that was `Ok`; an output that cannot is executed again.
-/

namespace NTD97

open Effect Guard Machine PcFabric SortedMap Text Wire

namespace DesktopAgent

variable {W : Type} {aead : Aead}

/-- An agent with its handlers, before its first frame. -/
def installed (session : SecureSession) (handlers : BTreeMap String (DesktopCapabilityHandler W))
    (world : W) : DesktopAgent W := { new session world with handlers }

/-- **No execution after an `Ok` one with its request id.** -/
def AtMostOnce (executions : List (UInt64 × Bool)) : Prop :=
  Always (fun before execution => (execution.1, true) ∉ before) executions

/-- The message that a frame carries to the agent. -/
def Carries (aead : Aead) (self : DesktopAgent W) (frame : Bytes) (message : RemoteMessage) :
    Prop :=
  ∃ plaintext session,
    exec (SecureSession.open aead frame) self.session = (.ok plaintext, session) ∧
    decodeMessage plaintext = .ok message

/-- A request that is not answered from the cache but by a handler's `execute`. -/
structure Calls (agent : DesktopAgent W) (request : RemoteRequest)
    (execution : Except PcFabricError DesktopHandlerOutput) : Prop where
  valid : request.validate = .ok ()
  fresh : agent.completedRequests[request.requestId]? = none
  called : ∃ handler, agent.handlers[request.capability]? = some handler ∧
    (handler.capability agent.world).version = request.capabilityVersion ∧
    (handler.execute request.action agent.world).1 = execution

/-- An output that the agent can store and send: its artifacts have names, the transfer ids do not
run out, and the message fits its length field. -/
structure Storable (request : RemoteRequest) (next : UInt64) (output : DesktopHandlerOutput) :
    Prop where
  named : ∀ artifact ∈ output.artifacts, ¬ isBlank artifact.1 ∧ artifact.2.length < 2 ^ 64
  room : next.toNat + output.artifacts.length < 2 ^ 64
  fits : ∃ n, Writes (encodeOutput output.output) n ∧
    85 + (utf8 request.capability).length + n +
      (output.artifacts.map fun artifact => 56 + (utf8 artifact.1).length).sum < 2 ^ 32

/-- **The side condition of a step**: an `Ok` execution gives an output that can be stored. -/
def Sound (aead : Aead) (self : DesktopAgent W) (frame : Bytes) : Prop :=
  ∀ request output, Carries aead self frame (.request request) → Calls self request (.ok output) →
    Storable request self.nextTransferId output

/-- **One result for each request whose execution was `Ok`**: the frame that led to the execution is
answered with a result that can be sent, and every later frame with the same request likewise. -/
def OneResult (debug : PcFabricError → String) (aead : Aead) (start : DesktopAgent W)
    (frames : List Bytes) : Prop :=
  ∀ before frame after request output, frames = before ++ frame :: after →
    Carries aead (run (step debug aead) start before) frame (.request request) →
    Calls (run (step debug aead) start before) request (.ok output) →
    ∃ result bytes, encodeMessage (.result result) = .ok bytes ∧
      (exec (answer debug aead frame) (run (step debug aead) start before)).1 =
        .ok (.result result) ∧
      ∀ mid rest frame', after = mid ++ rest →
        Carries aead (run (step debug aead) start (before ++ frame :: mid)) frame'
          (.request request) →
        (exec (answer debug aead frame')
          (run (step debug aead) start (before ++ frame :: mid))).1 = .ok (.result result)

/-! ## Results -/

theorem validateArtifact_eq_ok {previous last : UInt64} {d : ArtifactDescriptor} :
    validateArtifact previous d = .ok last ↔
      d.validate = .ok () ∧ previous < d.transferId ∧ d.transferId = last := by
  rw [validateArtifact]
  simp only [bind_eq_ok, refuse_eq_ok, pure_eq_ok, exists_unit, UInt64.not_le]

/-- Artifacts that pass are valid one by one, and in the order of their ids. -/
theorem validated_spec : ∀ {ds : List ArtifactDescriptor} {previous last : UInt64},
    ds.foldlM validateArtifact previous = .ok last →
      (∀ d ∈ ds, d.validate = .ok () ∧ previous < d.transferId) ∧
        ds.Pairwise fun a b => a.transferId ≤ b.transferId
  | [], _, _, _ => ⟨fun _ h => (nomatch h), List.Pairwise.nil⟩
  | d :: ds, previous, last, h => by
      rw [List.foldlM_cons] at h
      obtain ⟨mid, hd, hds⟩ := bind_eq_ok.1 h
      obtain ⟨hvalid, hlt, rfl⟩ := validateArtifact_eq_ok.1 hd
      obtain ⟨hall, hsorted⟩ := validated_spec hds
      refine ⟨List.forall_mem_cons.2 ⟨⟨hvalid, hlt⟩, fun d' hd' => ?_⟩, List.pairwise_cons.2
        ⟨fun d' hd' => UInt64.le_of_lt (hall d' hd').2, hsorted⟩⟩
      exact ⟨(hall d' hd').1, UInt64.lt_trans hlt (hall d' hd').2⟩

theorem normalizeArtifacts_eq_ok {ds : List ArtifactDescriptor} {last : UInt64}
    (h : ds.foldlM validateArtifact 0 = .ok last) : normalizeArtifacts ds = .ok ds := by
  have hsort : ds.insertionSort (·.transferId ≤ ·.transferId) = ds :=
    (validated_spec h).2.insertionSort_eq
  refine bind_eq_ok.2 ⟨(), ?_, pure_eq_ok.2 hsort⟩
  rw [hsort]
  exact bind_eq_ok.2 ⟨last, h, rfl⟩

theorem writes_encodeArtifact {d : ArtifactDescriptor} (hd : d.validate = .ok ())
    (hname : (utf8 d.name).length < 2 ^ 32) :
    Writes (encodeArtifact d) (56 + (utf8 d.name).length) := by
  have hfields := (Writes.le (ε := PcFabricError) 8 d.transferId.toNat).bind
    (f := fun _ => do
      pushString d.name
      pushU64 d.length
      tell d.sha256.bytes
      pushU32 d.chunkSize)
    ((Writes.text hname).bind ((Writes.le 8 _).bind ((Writes.block d.sha256).bind (Writes.le 4 _))))
  have hwidth : 8 + (4 + (utf8 d.name).length + (8 + (32 + 4))) = 56 + (utf8 d.name).length := by
    omega
  rw [hwidth] at hfields
  obtain ⟨b, hb, hlen⟩ := hfields
  exact ⟨b, emits_checkedPut.2 ⟨hd, hb⟩, hlen⟩

/-- What varies in the length of a result. -/
theorem writes_parts {capability : String} {ds : List ArtifactDescriptor} {n : ℕ}
    (hvalid : ∀ d ∈ ds, d.validate = .ok ())
    (hfits : 85 + (utf8 capability).length + n +
      (ds.map fun d => 56 + (utf8 d.name).length).sum < 2 ^ 32) :
    Writes (pushString (ε := PcFabricError) capability) (4 + (utf8 capability).length) ∧
      Writes (pushList encodeArtifact ds)
        (4 + (ds.map fun d => 56 + (utf8 d.name).length).sum) := by
  refine ⟨Writes.text (by omega), Writes.list ?_ fun d hd => ?_⟩
  · have hcount := List.card_nsmul_le_sum (ds.map fun d => 56 + (utf8 d.name).length) 1
      fun w hw => by
        obtain ⟨d, -, rfl⟩ := List.mem_map.1 hw
        omega
    rw [List.length_map, smul_eq_mul, Nat.mul_one] at hcount
    omega
  · have hname := List.single_le_sum (fun w _ => Nat.zero_le w) _
      (List.mem_map_of_mem (f := fun d : ArtifactDescriptor => 56 + (utf8 d.name).length) hd)
    exact writes_encodeArtifact (hvalid d hd) (by omega)

/-- **An output that fits makes a result that can be sent.** -/
theorem completed_eq_ok {request : RemoteRequest} {output : ActionOutput}
    {ds : List ArtifactDescriptor} {last : UInt64} {n : ℕ} (hrequest : request.validate = .ok ())
    (hds : ds.foldlM validateArtifact 0 = .ok last) (houtput : Writes (encodeOutput output) n)
    (hfits : 85 + (utf8 request.capability).length + n +
      (ds.map fun d => 56 + (utf8 d.name).length).sum < 2 ^ 32) :
    ∃ result bytes, RemoteResult.completed request output ds = .ok result ∧
      result.requestDigest = request.requestDigest ∧
      encodeMessage (.result result) = .ok bytes := by
  obtain ⟨hcapability, hartifacts⟩ :=
    writes_parts (fun d hd => ((validated_spec hds).1 d hd).1) hfits
  have hstatus : Writes (encodeStatus .completed) 1 := (Writes.le 1 _).bind Writes.done
  let draft : RemoteResult := {
    requestId := request.requestId, capability := request.capability
    capabilityVersion := request.capabilityVersion, requestDigest := request.requestDigest
    status := .completed, output, artifacts := ds, resultDigest := zeroDigest }
  have hfields : draft.validateFields = .ok () := by
    obtain ⟨⟨⟩, hid, h⟩ := bind_eq_ok.1 hrequest
    obtain ⟨⟨⟩, hnonempty, -⟩ := bind_eq_ok.1 h
    exact bind_eq_ok.2 ⟨(), hid, bind_eq_ok.2 ⟨(), hnonempty, bind_eq_ok.2 ⟨last, hds, rfl⟩⟩⟩
  obtain ⟨digest, hdigest⟩ : ∃ digest, digestResult draft = .ok digest := by
    have hwrites : Writes (do
        tell (utf8 "NTD97-PCF97-RESULT")
        pushU64 draft.requestId
        pushString draft.capability
        pushU32 draft.capabilityVersion
        tell draft.requestDigest.bytes
        encodeStatus draft.status
        encodeOutput draft.output
        pushList encodeArtifact draft.artifacts : Encoder) _ :=
      (Writes.raw _).bind <| (Writes.le 8 _).bind <| hcapability.bind <| (Writes.le 4 _).bind <|
        (Writes.block _).bind <| hstatus.bind <| houtput.bind hartifacts
    obtain ⟨b, hb, -⟩ := hwrites
    exact ⟨sha256 b, bind_eq_ok.2 ⟨b, written_eq_ok.2 hb, rfl⟩⟩
  have hwrites : Writes (encodeResult { draft with resultDigest := digest }) _ :=
    (Writes.le 8 _).bind <| hcapability.bind <| (Writes.le 4 _).bind <| (Writes.block _).bind <|
      hstatus.bind <| houtput.bind <| hartifacts.bind <| Writes.block digest
  obtain ⟨payload, hpayload, hlen⟩ := hwrites
  have hvalidate : RemoteResult.validate { draft with resultDigest := digest } = .ok () :=
    bind_eq_ok.2 ⟨(), hfields, bind_eq_ok.2 ⟨digest, hdigest, refuse_eq_ok.2 (not_not.2 rfl)⟩⟩
  have hpayloadLen : payload.length < 2 ^ 32 := by omega
  refine ⟨{ draft with resultDigest := digest },
    pcf97Header 3 (UInt32.ofNat payload.length) ++ payload, ?_, rfl, ?_⟩
  · exact bind_eq_ok.2 ⟨(), hrequest, bind_eq_ok.2 ⟨ds, normalizeArtifacts_eq_ok hds,
      bind_eq_ok.2 ⟨(), hfields, bind_eq_ok.2 ⟨digest, hdigest, rfl⟩⟩⟩⟩
  · exact bind_eq_ok.2 ⟨payload, written_eq_ok.2 (emits_checkedPut.2 ⟨hvalidate, hpayload⟩),
      bind_eq_ok.2 ⟨_, lenU32_ofNat hpayloadLen, rfl⟩⟩

/-! ## One request -/

/-- Storing artifacts changes the artifacts to pull and the next id. -/
def Filed (s t : DesktopAgent W) : Prop :=
  ∃ outgoingArtifacts nextTransferId, nextTransferId ≠ 0 ∧
    t = { s with outgoingArtifacts, nextTransferId }

theorem exec_storeArtifact {artifact : String × Bytes} {s : DesktopAgent W}
    (hnamed : ¬ isBlank artifact.1 ∧ artifact.2.length < 2 ^ 64) (hid : s.nextTransferId ≠ 0)
    (hroom : s.nextTransferId.toNat + 1 < 2 ^ 64) :
    ∃ d t, exec (storeArtifact artifact) s = (.ok d, t) ∧ d.validate = .ok () ∧
      d.transferId = s.nextTransferId ∧ d.name = artifact.1 ∧ Filed s t ∧
      t.nextTransferId.toNat = s.nextTransferId.toNat + 1 := by
  have hnext : checkedAdd64 s.nextTransferId 1 = some (s.nextTransferId + 1) := if_pos hroom
  have hone := checkedAdd64_eq_some.1 hnext
  have hlength : lenU64 (ε := PcFabricError) artifact.2.length =
      .ok (UInt64.ofNat artifact.2.length) := if_pos hnamed.2
  let d : ArtifactDescriptor := {
    transferId := s.nextTransferId, name := artifact.1
    length := UInt64.ofNat artifact.2.length, sha256 := sha256 artifact.2
    chunkSize := defaultArtifactChunk }
  have hvalid : d.validate = .ok () := by
    refine refuse_eq_ok.2 ?_
    rintro (h | h | h | h)
    · exact hid h
    · exact hnamed.1 h
    · exact absurd h (show defaultArtifactChunk ≠ 0 by decide)
    · exact absurd h (show ¬ 4 * 1024 * 1024 < defaultArtifactChunk by decide)
  have hsender : ArtifactSender.new s.nextTransferId artifact.1 artifact.2 defaultArtifactChunk =
      .ok { descriptor := d, bytes := artifact.2 } :=
    bind_eq_ok.2 ⟨_, hlength, bind_eq_ok.2 ⟨(), hvalid, rfl⟩⟩
  refine ⟨d, { s with
    nextTransferId := s.nextTransferId + 1
    outgoingArtifacts := s.outgoingArtifacts.insert s.nextTransferId
      { descriptor := d, bytes := artifact.2 } }, ?_, hvalid, rfl, rfl, ⟨_, _, ?_, rfl⟩, hone⟩
  · rw [storeArtifact, exec_get_bind]
    dsimp only
    rw [hnext, exec_okOr_some_bind, exec_modify_bind, hsender, exec_check_ok_bind, exec_modify_bind,
      exec_pure]
  · rw [ne_eq, ← UInt64.toNat_inj, hone]
    exact Nat.succ_ne_zero _

theorem Filed.trans {s t u : DesktopAgent W} (h : Filed s t) (h' : Filed t u) : Filed s u := by
  obtain ⟨_, _, -, rfl⟩ := h
  obtain ⟨_, _, hid, rfl⟩ := h'
  exact ⟨_, _, hid, rfl⟩

/-- **Artifacts that have names are stored**, under ascending ids. -/
theorem exec_storeArtifacts : ∀ {artifacts : List (String × Bytes)} {s : DesktopAgent W}
    (previous : UInt64), (∀ a ∈ artifacts, ¬ isBlank a.1 ∧ a.2.length < 2 ^ 64) →
    previous < s.nextTransferId → s.nextTransferId.toNat + artifacts.length < 2 ^ 64 →
    ∃ ds t last, exec (storeArtifacts artifacts) s = (.ok ds, t) ∧
      ds.foldlM validateArtifact previous = .ok last ∧
      ds.map (·.name) = artifacts.map Prod.fst ∧ Filed s t
  | [], s, previous, _, hlt, _ =>
      ⟨[], s, previous, rfl, rfl, rfl, _, _, fun h => UInt64.not_lt_zero (h ▸ hlt), rfl⟩
  | a :: artifacts, s, previous, hnamed, hlt, hroom => by
      rw [List.length_cons] at hroom
      obtain ⟨ha, hnamed⟩ := List.forall_mem_cons.1 hnamed
      obtain ⟨d, t, hexec, hvalid, hid, hname, hfiled, hnext⟩ := exec_storeArtifact (s := s) ha
        (fun h => UInt64.not_lt_zero (h ▸ hlt)) (by omega)
      have habove : s.nextTransferId < t.nextTransferId := by
        rw [UInt64.lt_iff_toNat_lt, hnext]
        exact Nat.lt_succ_self _
      obtain ⟨ds, u, last, hexecs, hds, hnames, hfiled'⟩ :=
        exec_storeArtifacts _ hnamed habove (by omega)
      refine ⟨d :: ds, u, last, ?_, ?_, ?_, hfiled.trans hfiled'⟩
      · rw [storeArtifacts] at hexecs
        rw [storeArtifacts, List.mapM_cons, exec_bind_ok hexec, exec_bind_ok hexecs, exec_pure]
      · rw [List.foldlM_cons]
        exact bind_eq_ok.2 ⟨_, validateArtifact_eq_ok.2 ⟨hvalid, hid ▸ hlt, rfl⟩, hid ▸ hds⟩
      · rw [List.map_cons, List.map_cons, hname, hnames]

/-- What the cache holds, it goes on holding. -/
def Remembers (s t : DesktopAgent W) : Prop :=
  ∀ (id : UInt64) (result : RemoteResult), s.completedRequests[id]? = some result →
    t.completedRequests[id]? = some result

/-- **An execution whose output can be stored is cached.** -/
theorem exec_executeRequest_ok (debug : PcFabricError → String) {s : DesktopAgent W}
    {request : RemoteRequest} {output : DesktopHandlerOutput}
    (hcalls : Calls s request (.ok output)) (hid : s.nextTransferId ≠ 0)
    (hstorable : Storable request s.nextTransferId output) :
    ∃ result bytes t, exec (executeRequest debug request) s = (.ok result, t) ∧
      encodeMessage (.result result) = .ok bytes ∧
      result.requestDigest = request.requestDigest ∧
      t.completedRequests = s.completedRequests.insert request.requestId result ∧
      t.executions = s.executions ++ [(request.requestId, true)] ∧ t.nextTransferId ≠ 0 := by
  obtain ⟨hrequest, hfresh, handler, hhandler, hversion, hexecution⟩ := hcalls
  let s' : DesktopAgent W := { s with
    world := (handler.execute request.action s.world).2
    executions := s.executions ++ [(request.requestId, true)] }
  have hcall : exec (call handler request) s = (.ok (.ok output), s') := by
    rw [call, exec_get_bind]
    dsimp only
    rw [exec_modify_bind, exec_pure, hexecution]
    rfl
  obtain ⟨ds, t, last, hstore, hds, hnames, outgoing, next, hnext, rfl⟩ :=
    exec_storeArtifacts (s := s') 0 hstorable.named
      (UInt64.pos_iff_ne_zero.2 hid) hstorable.room
  obtain ⟨n, houtput, hfits⟩ := hstorable.fits
  have hwidths : (ds.map fun d => 56 + (utf8 d.name).length) =
      output.artifacts.map fun a => 56 + (utf8 a.1).length := by
    have h := congrArg (List.map fun name => 56 + (utf8 name).length) hnames
    rwa [List.map_map, List.map_map] at h
  obtain ⟨result, bytes, hresult, hdigest, hbytes⟩ :=
    completed_eq_ok hrequest hds houtput (hwidths ▸ hfits)
  refine ⟨result, bytes, { s' with
    outgoingArtifacts := outgoing, nextTransferId := next
    completedRequests := s.completedRequests.insert request.requestId result },
    ?_, hbytes, hdigest, rfl, rfl, hnext⟩
  rw [executeRequest, hrequest, exec_check_ok_bind, exec_get_bind, hfresh, hhandler]
  dsimp only
  rw [exec_refuse_of_neg (not_not.2 hversion), exec_bind_ok hcall, settle, exec_bind_ok hstore,
    hresult, exec_check_ok_bind, complete, exec_modify_bind, exec_pure]

theorem remembers_insert {s : DesktopAgent W} {id : UInt64} (result : RemoteResult)
    (h : s.completedRequests[id]? = none) :
    Remembers s { s with completedRequests := s.completedRequests.insert id result } := by
  intro id' result' hresult
  have hne : compare id id' ≠ .eq := fun heq => by
    rw [Std.compare_eq_iff_eq.1 heq, hresult] at h
    exact nomatch h
  exact (Std.ExtTreeMap.getElem?_insert ..).trans ((if_neg hne).trans hresult)

/-- A failed execution is cached, or not. -/
theorem settle_error (debug : PcFabricError → String) (s : DesktopAgent W)
    (request : RemoteRequest) (error : PcFabricError) :
    (exec (settle debug request (.error error)) s).2 = s ∨
      ∃ result, (exec (settle debug request (.error error)) s).2 = { s with
        completedRequests := s.completedRequests.insert request.requestId result } := by
  have hrejected (reason : String) :
      (exec (check id (RemoteResult.rejected request reason) >>= complete request) s).2 = s ∨
        ∃ result, (exec (check id (RemoteResult.rejected request reason) >>= complete request)
          s).2 = { s with
            completedRequests := s.completedRequests.insert request.requestId result } := by
    cases RemoteResult.rejected request reason with
    | error e => exact .inl rfl
    | ok result => exact .inr ⟨result, rfl⟩
  unfold settle
  split
  · next h => exact nomatch h
  · exact hrejected _
  · next reason h =>
    cases RemoteResult.retryable request reason <;> exact .inl rfl
  · exact hrejected _

/-- **One request, whatever comes of it**: nothing changes, an execution fails, or one is `Ok`. -/
theorem executeRequest_cases (debug : PcFabricError → String) (s : DesktopAgent W)
    (request : RemoteRequest) :
    (exec (executeRequest debug request) s).2 = s ∨
      (∃ error world completedRequests, Calls s request (.error error) ∧
        (exec (executeRequest debug request) s).2 = { s with
          world, completedRequests, executions := s.executions ++ [(request.requestId, false)] } ∧
        Remembers s { s with completedRequests }) ∨
      ∃ output, Calls s request (.ok output) := by
  rw [executeRequest]
  cases hrequest : request.validate with
  | error e => exact .inl rfl
  | ok _ =>
  rw [exec_check_ok_bind, exec_get_bind]
  cases hfresh : s.completedRequests[request.requestId]? with
  | some previous =>
    left
    dsimp only
    by_cases h : previous.requestDigest ≠ request.requestDigest
    · rw [exec_refuse_of_pos h]
    · rw [exec_refuse_of_neg h, exec_pure]
  | none =>
  cases hhandler : s.handlers[request.capability]? with
  | none =>
    left
    dsimp only
    cases RemoteResult.rejected request "remote capability is not installed" <;> rfl
  | some handler =>
  dsimp only
  by_cases hversion : (handler.capability s.world).version ≠ request.capabilityVersion
  · rw [exec_refuse_of_pos hversion]
    exact .inl rfl
  rw [exec_refuse_of_neg hversion]
  cases hexecution : (handler.execute request.action s.world).1 with
  | ok output =>
    exact .inr (.inr
      ⟨output, hrequest, hfresh, handler, hhandler, not_not.1 hversion, hexecution⟩)
  | error error =>
    have hcalls : Calls s request (.error error) :=
      ⟨hrequest, hfresh, handler, hhandler, not_not.1 hversion, hexecution⟩
    let s' : DesktopAgent W := { s with
      world := (handler.execute request.action s.world).2
      executions := s.executions ++ [(request.requestId, false)] }
    have hcall : exec (call handler request) s = (.ok (.error error), s') := by
      rw [call, exec_get_bind]
      dsimp only
      rw [exec_modify_bind, exec_pure, hexecution]
      rfl
    right; left
    rw [exec_bind_ok hcall]
    rcases settle_error debug s' request error with h | ⟨result, h⟩
    · exact ⟨error, _, _, hcalls, h, fun _ _ h => h⟩
    · exact ⟨error, _, _, hcalls, h, remembers_insert result hfresh⟩

/-! ## One frame -/

/-- The agent up to its session. -/
def Resumed (s t : DesktopAgent W) : Prop := ∃ session, t = { s with session }

theorem exec_onSession {α : Type} (x : Eff SecureSession PcFabricError α) (s : DesktopAgent W) :
    exec (onSession x) s = ((exec x s.session).1, { s with session := (exec x s.session).2 }) := by
  rw [onSession, exec_zoom]
  cases (exec x s.session).1 <;> rfl

/-- **A frame with a request is answered with its result.** -/
theorem exec_answer (debug : PcFabricError → String) {s : DesktopAgent W} {frame : Bytes}
    {request : RemoteRequest} (h : Carries aead s frame (.request request)) : ∃ s', Resumed s s' ∧
      exec (answer debug aead frame) s = ((exec (executeRequest debug request) s').1.map .result,
        (exec (executeRequest debug request) s').2) := by
  obtain ⟨plaintext, session, hopen, hmessage⟩ := h
  refine ⟨{ s with session }, ⟨session, rfl⟩, ?_⟩
  have hplaintext : exec (onSession (SecureSession.open aead frame)) s =
      (.ok plaintext, { s with session }) := by
    rw [exec_onSession, hopen]
  rw [answer, exec_bind_ok hplaintext, hmessage, exec_check_ok_bind, respond, exec_bind]
  rcases exec (executeRequest debug request) { s with session } with ⟨e | result, t⟩ <;> rfl

/-- A frame without a request changes the session only. -/
theorem answer_other (debug : PcFabricError → String) {s : DesktopAgent W} {frame : Bytes}
    (h : ∀ request, ¬ Carries aead s frame (.request request)) :
    Resumed s (exec (answer debug aead frame) s).2 := by
  rw [answer, exec_bind, exec_onSession]
  rcases hopen : exec (SecureSession.open aead frame) s.session with ⟨e | plaintext, session⟩
  · exact ⟨session, rfl⟩
  refine ⟨session, ?_⟩
  dsimp only
  cases hmessage : decodeMessage plaintext with
  | error e => rfl
  | ok message =>
    rw [exec_check_ok_bind]
    cases message with
    | request request => exact absurd ⟨plaintext, session, hopen, hmessage⟩ (h request)
    | capabilityQuery => rfl
    | capabilities capabilities => rfl
    | result result => rfl
    | artifactChunk chunk => rfl
    | artifactPull transferId offset =>
      rw [respond, exec_get_bind]
      cases s.outgoingArtifacts[transferId]? with
      | none => rfl
      | some sender =>
        rw [exec_okOr_some_bind]
        cases sender.chunkAt offset <;> rfl

/-- Sealing the answer changes the session only. -/
theorem step_resumes (debug : PcFabricError → String) (aead : Aead) (s : DesktopAgent W)
    (frame : Bytes) :
    Resumed (exec (answer debug aead frame) s).2 (step debug aead s frame) := by
  rw [step, handleEncryptedFrame, exec_bind]
  rcases exec (answer debug aead frame) s with ⟨e | response, t⟩
  · exact ⟨t.session, rfl⟩
  dsimp only
  cases encodeMessage response with
  | error e => exact ⟨t.session, rfl⟩
  | ok encoded =>
    rw [exec_check_ok_bind, exec_onSession]
    exact ⟨_, rfl⟩

/-! ## Runs -/

/-- **The invariant.**  What was executed `Ok` is cached, and was executed once. -/
structure Recorded (agent : DesktopAgent W) : Prop where
  numbered : agent.nextTransferId ≠ 0
  cached : ∀ id, (id, true) ∈ agent.executions → agent.completedRequests[id]? ≠ none
  once : AtMostOnce agent.executions

theorem Recorded.resumed {s t : DesktopAgent W} (h : Recorded s) (hst : Resumed s t) :
    Recorded t := by
  obtain ⟨session, rfl⟩ := hst
  exact ⟨h.numbered, h.cached, h.once⟩

/-- An execution of a request that is not cached, which caches it if it is `Ok`. -/
theorem Recorded.executed {s t : DesktopAgent W} {id : UInt64} {isOk : Bool} (h : Recorded s)
    (hfresh : s.completedRequests[id]? = none) (hnumbered : t.nextTransferId ≠ 0)
    (hexecutions : t.executions = s.executions ++ [(id, isOk)]) (hremembers : Remembers s t)
    (hcached : isOk = true → t.completedRequests[id]? ≠ none) : Recorded t where
  numbered := hnumbered
  cached id' hid' := by
    rw [hexecutions] at hid'
    rcases List.mem_append.1 hid' with hold | hnew
    · obtain ⟨result, hresult⟩ := Option.ne_none_iff_exists'.1 (h.cached id' hold)
      rw [hremembers id' result hresult]
      exact Option.some_ne_none result
    · obtain ⟨rfl, rfl⟩ := Prod.mk.inj (List.mem_singleton.1 hnew)
      exact hcached rfl
  once := by
    rw [AtMostOnce, hexecutions]
    exact always_concat.2 ⟨h.once, fun hold => h.cached id hold hfresh⟩

/-- **Step lemma.** -/
theorem Recorded.step (debug : PcFabricError → String) {s : DesktopAgent W} {frame : Bytes}
    (h : Recorded s) (hsound : Sound aead s frame) :
    Recorded (step debug aead s frame) ∧ Remembers s (step debug aead s frame) := by
  obtain ⟨session, hstep⟩ := step_resumes debug aead s frame
  suffices h : Recorded (exec (answer debug aead frame) s).2 ∧
      Remembers s (exec (answer debug aead frame) s).2 by
    rw [hstep]
    exact ⟨h.1.resumed ⟨session, rfl⟩, h.2⟩
  by_cases hcarries : ∃ request, Carries aead s frame (.request request)
  · obtain ⟨request, hcarries⟩ := hcarries
    obtain ⟨s', ⟨session, rfl⟩, hanswer⟩ := exec_answer debug hcarries
    rw [hanswer]
    rcases executeRequest_cases debug { s with session } request with
      hsame | ⟨error, world, completed, hcalls, ht, hremembers⟩ | ⟨output, hcalls⟩
    · rw [hsame]
      exact ⟨h.resumed ⟨session, rfl⟩, fun _ _ h => h⟩
    · rw [ht]
      exact ⟨(h.resumed ⟨session, rfl⟩).executed hcalls.fresh h.numbered rfl hremembers nofun,
        hremembers⟩
    · obtain ⟨result, bytes, t, hexec, -, -, hcache, hexecutions, hnumbered⟩ :=
        exec_executeRequest_ok debug hcalls h.numbered
          (hsound request output hcarries ⟨hcalls.valid, hcalls.fresh, hcalls.called⟩)
      rw [hexec]
      have hremembers : Remembers s t := fun id result' hresult => by
        rw [hcache]
        exact remembers_insert result hcalls.fresh id result' hresult
      refine ⟨(h.resumed ⟨session, rfl⟩).executed hcalls.fresh hnumbered hexecutions hremembers
        fun _ => ?_, hremembers⟩
      rw [hcache, Std.ExtTreeMap.getElem?_insert_self]
      exact Option.some_ne_none result
  · obtain ⟨session, ht⟩ := answer_other debug (not_exists.1 hcarries)
    rw [ht]
    exact ⟨h.resumed ⟨session, rfl⟩, fun _ _ h => h⟩

theorem recorded_installed (session : SecureSession)
    (handlers : BTreeMap String (DesktopCapabilityHandler W)) (world : W) :
    Recorded (installed session handlers world) where
  numbered := (by decide : (1 : UInt64) ≠ 0)
  cached _ h := nomatch h
  once := always_nil

/-- A request whose result is cached is answered with it. -/
theorem exec_answer_again {debug : PcFabricError → String} {s : DesktopAgent W}
    {request : RemoteRequest} {result : RemoteResult} {frame : Bytes}
    (hvalid : request.validate = .ok ()) (hcached : s.completedRequests[request.requestId]? = some result)
    (hdigest : result.requestDigest = request.requestDigest)
    (hcarries : Carries aead s frame (.request request)) :
    (exec (answer debug aead frame) s).1 = .ok (.result result) := by
  obtain ⟨s', ⟨session, rfl⟩, hanswer⟩ := exec_answer debug hcarries
  rw [hanswer, executeRequest, hvalid, exec_check_ok_bind, exec_get_bind]
  dsimp only
  rw [hcached]
  dsimp only
  rw [exec_refuse_of_neg (not_not.2 hdigest)]
  rfl

/-- What a run whose steps are sound starts with in the cache, it ends with. -/
theorem remembers_run {debug : PcFabricError → String} {s : DesktopAgent W} {frames : List Bytes}
    (h : Recorded s)
    (hsound : StepsMeet (step debug aead) (Sound aead) s frames) :
    Remembers s (run (step debug aead) s frames) := by
  induction frames generalizing s with
  | nil => exact fun _ _ h => h
  | cons frame frames ih =>
    obtain ⟨hnext, hremembers⟩ := h.step debug hsound.1
    exact fun id result hresult => ih hnext hsound.2 id result (hremembers id result hresult)

/-- **Remote side effects happen at most once**: in every run whose `Ok` executions give outputs that
can be stored, no handler is called again for a request id once one was `Ok` for it, and all frames
with that request are answered with one result. -/
theorem effects_at_most_once (debug : PcFabricError → String) (aead : Aead)
    (session : SecureSession) (handlers : BTreeMap String (DesktopCapabilityHandler W)) (world : W)
    (frames : List Bytes)
    (hsound : StepsMeet (step debug aead) (Sound aead) (installed session handlers world) frames) :
    StatesMeet (step debug aead) (fun agent => AtMostOnce agent.executions)
        (installed session handlers world) frames ∧
      OneResult debug aead (installed session handlers world) frames := by
  set start := installed session handlers world
  have hstart : Recorded start := recorded_installed session handlers world
  have hkeep (s : DesktopAgent W) (frame : Bytes) (h : Recorded s) (hframe : Sound aead s frame) :
      Recorded (step debug aead s frame) := (h.step debug hframe).1
  refine ⟨(statesMeet_of_stepsMeet hkeep frames start hstart hsound).mono fun _ h => h.once, ?_⟩
  rintro before frame after request output rfl hcarries hcalls
  obtain ⟨hbefore, hframe, hafter⟩ := stepsMeet_append.1 hsound
  have h : Recorded (run (step debug aead) start before) :=
    (statesMeet_of_stepsMeet hkeep before start hstart hbefore).last
  obtain ⟨s', ⟨session', rfl⟩, hanswer⟩ := exec_answer debug hcarries
  obtain ⟨result, bytes, t, hexec, hbytes, hdigest, hcache, -, -⟩ :=
    exec_executeRequest_ok debug (s := { run (step debug aead) start before with
      session := session' }) ⟨hcalls.valid, hcalls.fresh, hcalls.called⟩ h.numbered
      (hframe request output hcarries hcalls)
  rw [hexec] at hanswer
  refine ⟨result, bytes, hbytes, by rw [hanswer]; rfl, ?_⟩
  rintro mid rest frame' rfl hcarries'
  have hcached : (run (step debug aead) start (before ++ frame :: mid)).completedRequests[
      request.requestId]? = some result := by
    obtain ⟨session, hstep⟩ := step_resumes debug aead
      (run (step debug aead) start before) frame
    rw [run_append, run_cons]
    refine remembers_run (h.step debug hframe).1 (stepsMeet_append.1 hafter).1 _ _ ?_
    rw [hstep, hanswer]
    exact (congrArg (·[request.requestId]?) hcache).trans Std.ExtTreeMap.getElem?_insert_self
  exact exec_answer_again hcalls.valid hcached hdigest hcarries'

end DesktopAgent

namespace ReplaySample

open DesktopAgent SessionSample

def key (n : UInt8) : Block 32 := ⟨List.replicate 32 n, rfl⟩

/-- The two ends of a session, of which the phone sent `n` frames. -/
def phone (n : UInt64) : SecureSession where
  sessionId := ⟨List.replicate 16 0, rfl⟩
  txKey := key 1
  rxKey := key 2
  txSequence := n
  rxSequence := 0

def desktop : SecureSession where
  sessionId := ⟨List.replicate 16 0, rfl⟩
  txKey := key 2
  rxKey := key 1
  txSequence := 0
  rxSequence := 0

def capability : RemoteCapability where
  id := "pc.scan"
  version := 1
  sideEffect := .externalWrite
  verificationRequired := false
  rollbackSupported := false
  resumable := false
  requiredScopes := []

/-- A handler that answers every action with these artifacts. -/
def handler (artifacts : List (String × Bytes)) : DesktopCapabilityHandler Unit where
  capability _ := capability
  execute _ world := (.ok { output := RemoteResult.noOutput "scanned", artifacts }, world)

def agent (artifacts : List (String × Bytes)) : DesktopAgent Unit :=
  installed desktop ((∅ : BTreeMap String _).insert "pc.scan" (handler artifacts)) ()

def request : RemoteRequest :=
  (RemoteRequest.new 1 "pc.scan" 1 (.observe "page")).toOption.getD
    { requestId := 1, capability := "pc.scan", capabilityVersion := 1
      action := .observe "page", requestDigest := zeroDigest }

/-- The request again, in the frame with number `n`. -/
def frame (n : UInt64) : Bytes :=
  ((exec (SecureSession.seal clear ((encodeMessage (.request request)).toOption.getD []))
    (phone n)).1.toOption).getD []

def debug : PcFabricError → String := fun _ => "error"

/-- **A scan without a name is made twice**: its artifact is refused after the side effect, so the
request that is sent again finds no result. -/
theorem unnamed_artifact_executes_again :
    ¬ AtMostOnce (run (step debug clear) (agent [("", [1])]) [frame 0, frame 1]).executions := by
  have hexecutions : (run (step debug clear) (agent [("", [1])]) [frame 0, frame 1]).executions =
      [(1, true), (1, true)] := by decide +kernel
  rw [hexecutions]
  exact fun h => h [(1, true)] (1, true) [] rfl (List.mem_singleton.2 rfl)

/-- An agent whose scans have a name. -/
def named : DesktopAgent Unit := agent [("page.png", [1])]

/-- The scan can be stored and sent. -/
theorem sound_named : Sound clear named (frame 0) := by
  rintro request output - ⟨-, -, handler', hhandler, -, hexecution⟩
  rcases getElem?_insert_eq_some.1 hhandler with ⟨hcapability, rfl⟩ | ⟨-, hnone⟩
  · obtain rfl := Except.ok.inj hexecution
    have hsummary : Writes (ε := PcFabricError) (pushString "scanned") 11 :=
      Writes.text (show (utf8 "scanned").length < 2 ^ 32 by decide +kernel)
    have hevidence : Writes (ε := PcFabricError) (pushList pushString []) 4 :=
      Writes.lift_bind (lenU32_ofNat (Nat.two_pow_pos 32)) ((Writes.le 4 _).bind Writes.done)
    have houtput : Writes (encodeOutput (RemoteResult.noOutput "scanned")) (11 + (1 + 0 + 4)) :=
      hsummary.bind <| ((Writes.le 1 _).bind Writes.done).bind hevidence
    refine ⟨by decide +kernel, by decide, _, houtput, ?_⟩
    rw [hcapability]
    decide +kernel
  · exact nomatch hnone

/-- The agent after the scan. -/
def scanned : DesktopAgent Unit := step debug clear named (frame 0)

/-- The second frame carries the request again, whose result is in the cache. -/
theorem scanned_spec : ((exec (SecureSession.open clear (frame 1)) scanned.session).1.bind
      decodeMessage).toOption = some (.request request) ∧
    scanned.completedRequests[request.requestId]?.isSome ∧
    (step debug clear scanned (frame 1)).executions = [(1, true)] := by
  decide +kernel

/-- The request that is sent again is answered from the cache. -/
theorem sound_again : Sound clear scanned (frame 1) := by
  obtain ⟨hopen, hcached, -⟩ := scanned_spec
  rintro request' output ⟨plaintext, session, hplaintext, hmessage⟩ ⟨-, hfresh, -⟩
  rw [hplaintext] at hopen
  change (decodeMessage plaintext).toOption = _ at hopen
  rw [hmessage] at hopen
  obtain rfl : request' = request := RemoteMessage.request.inj (Option.some.inj hopen)
  rw [hfresh] at hcached
  exact nomatch hcached

/-- A request and the same request again: one scan, and one result. -/
theorem effects_at_most_once_named :
    (run (step debug clear) named [frame 0, frame 1]).executions = [(1, true)] ∧
      StatesMeet (step debug clear) (fun agent => AtMostOnce agent.executions) named
        [frame 0, frame 1] ∧
      OneResult debug clear named [frame 0, frame 1] := by
  have hsound : StepsMeet (step debug clear) (Sound clear) named [frame 0, frame 1] :=
    ⟨sound_named, sound_again, trivial⟩
  obtain ⟨-, -, hexecutions⟩ := scanned_spec
  rw [run_cons, run_cons, run_nil]
  exact ⟨hexecutions, effects_at_most_once debug clear desktop _ () _ hsound⟩

end ReplaySample

end NTD97
