import Mathlib
import NTD97.Chat.Runs
import NTD97.Spm.Stream

/-!
# Chat/Endings — how a generation ends its turn

    running ──token──▸ running        running ──last token──▸ complete
                                                     └── blank reply ──▸ failed, for good

The last token of a generation is appended before its turn is completed, and a turn is not completed
with a reply that is blank.  Then the call fails, and with it the request: the turn stays in progress,
and no later call for the request does anything about it.
-/

namespace NTD97

open Guard Effect Text Wire SovereignConversationState

section Endings

variable {W : Type} {b : Bridge W} {engine : ChatEngine W} {requestId : UInt64}
  {session : NativeChatSession} {active : ActiveConversationTurn} {model : NativeChatModel}
  {token : UInt32} {rest : List UInt32} {piece : String}

/-- **The next token of the request comes from the model**: the request is running and not cancelled,
its turn has no plan to execute and room for a token, and its model is loaded. -/
structure Generates (b : Bridge W) (requestId : UInt64) (session : NativeChatSession)
    (active : ActiveConversationTurn) (model : NativeChatModel) : Prop where
  request : b.native.request requestId = some session
  running : session.status = .running
  kept : session.cancel = false
  inProgress : b.native.conversation.active = some active
  task : active.taskId = session.taskId
  planless : active.actionFabricCheckpoint = none
  loaded : b.native.chatModel = some model
  asset : active.modelAssetId = model.assetId
  version : active.modelVersion = model.version
  room : active.generatedTokens.length < active.maxNewTokens

/-- The model produces a token behind the tokens of the turn, which reads as a piece of text. -/
structure Produces (engine : ChatEngine W) (active : ActiveConversationTurn)
    (model : NativeChatModel) (token : UInt32) (piece : String) : Prop where
  generated : ∃ rest, engine.generate model (active.promptTokens ++ active.generatedTokens) =
    .ok (token :: rest)
  decoded : model.tokenizer.decodeAfter (active.promptTokens ++ active.generatedTokens).getLast?
    [token] true = .ok piece

/-- The token is the last one of the turn. -/
def Final (active : ActiveConversationTurn) (model : NativeChatModel) (token : UInt32) : Prop :=
  model.tokenizer.eosToken = some token ∨ active.maxNewTokens ≤ active.generatedTokens.length + 1

/-- The turn with one more token. -/
def ActiveConversationTurn.said (active : ActiveConversationTurn) (token : UInt32)
    (piece : String) : ActiveConversationTurn :=
  { active with
    generatedTokens := active.generatedTokens ++ [token]
    generatedText := active.generatedText ++ piece }

/-- The state with that turn. -/
def NativeState.withActive (s : NativeState) (active : ActiveConversationTurn) : NativeState :=
  { s with conversation := { s.conversation with active := some active } }

/-! ## One call -/

theorem exec_inNativeConversation {α : Type} (what : String) (x : ConversationM α)
    (s : NativeState) : exec (inNativeConversation what x) s =
      ((exec x s.conversation).1.mapError (.conversation what),
        { s with conversation := (exec x s.conversation).2 }) := exec_zoom ..

theorem exec_locked {α : Type} (x : NativeM α) (b : Bridge W) : exec (locked x) b =
    ((exec x b.native).1.mapError id, { b with native := (exec x b.native).2 }) := exec_zoom ..

theorem Generates.allTokens (h : Generates b requestId session active model) :
    b.native.conversation.allTokensForActive =
      .ok (active.promptTokens ++ active.generatedTokens) := by
  rw [allTokensForActive, h.inProgress]
  rfl

theorem Generates.exec_pendingActions (h : Generates b requestId session active model) :
    exec (pendingActions requestId) b.native = (.ok none, b.native) := by
  have hrunning : (some session).filter (·.status = .running) = some session := by
    rw [Option.filter_some, if_pos (decide_eq_true h.running)]
  have hnone : (b.native.conversation.actionFabricCheckpointForTask session.taskId).isNone = true := by
    rw [actionFabricCheckpointForTask, h.inProgress]
    change (if active.taskId = session.taskId then active.actionFabricCheckpoint else none).isNone =
      true
    rw [if_pos h.task, h.planless, Option.isNone_none]
  rw [pendingActions, exec_get_bind, h.request, hrunning, exec_okOr_some_bind, if_pos hnone]
  rfl

theorem Generates.exec_nextTurn (h : Generates b requestId session active model) :
    exec (nextTurn requestId) b.native = (.ok {
      model, taskId := session.taskId, allTokens := active.promptTokens ++ active.generatedTokens
      generatedLen := active.generatedTokens.length, maxNewTokens := active.maxNewTokens
      cancelled := session.cancel }, b.native) := by
  have hactive : b.native.conversation.active.filter (·.taskId = session.taskId) = some active := by
    rw [h.inProgress, Option.filter_some, if_pos (decide_eq_true h.task)]
  have hsame : ¬ (active.modelAssetId ≠ model.assetId ∨ active.modelVersion ≠ model.version) := by
    rw [not_or, not_not, not_not]
    exact ⟨h.asset, h.version⟩
  rw [nextTurn, exec_get_bind, h.request, exec_okOr_some_bind, hactive, exec_okOr_some_bind,
    h.loaded, exec_okOr_some_bind, exec_refuse_of_neg hsame, h.allTokens, exec_check_ok_bind,
    exec_pure]

/-- **A call that gets a token from the model ends in its last critical section.** -/
theorem Generates.exec_nextChatEvent (h : Generates b requestId session active model)
    (hp : Produces engine active model token piece) :
    exec (nextChatEvent engine requestId) b = exec (locked (appendToken requestId session.taskId
      model.tokenizer.eosToken token piece)) b := by
  obtain ⟨rest, htoken⟩ := hp.generated
  have hterminal : terminalChatEvent requestId b.native = none := by
    simp only [terminalChatEvent, h.request, h.running, Option.bind_eq_bind, Option.bind_some]
  have hpending : exec (advancePendingChatActions engine requestId) b = (.ok none, b) := by
    have hlocked : exec (locked (pendingActions requestId)) b = (.ok none, b) := by
      rw [exec_locked, h.exec_pendingActions]
      rfl
    rw [advancePendingChatActions, exec_bind_ok hlocked, exec_pure]
  have hlocked : exec (locked (nextTurn requestId)) b = (.ok {
      model, taskId := session.taskId, allTokens := active.promptTokens ++ active.generatedTokens
      generatedLen := active.generatedTokens.length, maxNewTokens := active.maxNewTokens
      cancelled := session.cancel }, b) := by
    rw [exec_locked, h.exec_nextTurn]
    rfl
  rw [nextChatEvent, exec_get_bind, hterminal]
  change exec (advancePendingChatActions engine requestId >>= _) b = _
  rw [exec_bind_ok hpending]
  change exec (nextToken engine requestId) b = _
  rw [nextToken, exec_bind_ok hlocked]
  dsimp only
  rw [if_neg (Nat.not_le.2 h.room), h.kept, if_neg Bool.false_ne_true, htoken, exec_check_ok_bind,
    List.head?_cons, exec_okOr_some_bind, hp.decoded, exec_check_ok_bind]

/-! ## The last critical section -/

/-- A token that makes the text too long is refused. -/
theorem exec_appendGenerated_of_long {c : SovereignConversationState}
    (hactive : c.active = some active)
    (hroom : active.generatedTokens.length < active.maxNewTokens)
    (hlong : maxTextBytes < (active.generatedText ++ piece).utf8ByteSize) :
    ∃ e, exec (appendGenerated active.taskId token piece) c = (.error e, c) := by
  rw [String.utf8ByteSize_append] at hlong
  rw [appendGenerated, exec_bind_ok (exec_activeTurn hactive rfl),
    exec_refuse_of_neg (Nat.not_le.2 hroom)]
  dsimp only
  by_cases hover : 2 ^ 64 ≤ active.generatedText.utf8ByteSize + piece.utf8ByteSize
  · exact ⟨_, exec_refuse_of_pos hover _ _ c⟩
  · rw [exec_refuse_of_neg hover, exec_refuse_of_pos hlong]
    exact ⟨_, rfl⟩

/-- A blank reply is refused. -/
theorem exec_completeTurn_of_blank {c : SovereignConversationState}
    (hactive : c.active = some active) (hblank : isBlank active.generatedText = true) :
    exec (completeTurn active.taskId) c = (.error .emptyAssistantResponse, c) := by
  rw [completeTurn, exec_get_bind, exec_bind_ok (exec_activeTurn hactive rfl),
    exec_refuse_of_pos hblank]

/-- **What is appended, and what follows.** -/
theorem Generates.exec_appendToken (h : Generates b requestId session active model)
    (hshort : (active.generatedText ++ piece).utf8ByteSize ≤ maxTextBytes) :
    exec (appendToken requestId session.taskId model.tokenizer.eosToken token piece) b.native =
      exec ((if model.tokenizer.eosToken = some token ∨ (active.said token piece).maxNewTokens ≤
          (active.said token piece).generatedTokens.length then
        finishTurn requestId session.taskId else pure ()) >>= fun _ => pure (.token token piece))
        (b.native.withActive (active.said token piece)) := by
  rw [String.utf8ByteSize_append] at hshort
  have happend := exec_appendGenerated token piece h.inProgress h.room hshort
  have hrunning : ((b.native.request requestId).any fun session =>
      session.status = .running ∧ !session.cancel) = true := by
    rw [h.request, Option.any_some, decide_eq_true_eq]
    exact ⟨h.running, by rw [h.kept, Bool.not_false]⟩
  have hnative : exec (inNativeConversation "checkpoint generated token"
      (appendGenerated session.taskId token piece)) b.native =
        (.ok (), b.native.withActive (active.said token piece)) := by
    rw [exec_inNativeConversation, ← h.task, happend]
    rfl
  rw [appendToken, exec_get_bind, if_pos hrunning, exec_bind_ok hnative, exec_get_bind]
  change exec (okOr (some (active.said token piece)) _ >>= _) _ = _
  rw [exec_okOr_some_bind]

theorem request_setStatus {s : NativeState} (hrequest : s.request requestId = some session)
    (status : NativeChatSessionStatus) :
    (s.setStatus requestId status).request requestId = some { session with status } := by
  rw [NativeState.request] at hrequest ⊢
  obtain ⟨hsession, hid⟩ := Option.filter_eq_some_iff.1 hrequest
  have hid : session.requestId = requestId := of_decide_eq_true hid
  rw [NativeState.setStatus, hsession, Option.map_some, if_pos hid, Option.filter_some,
    if_pos (decide_eq_true hid)]

/-! ## The call that ends a generation -/

/-- **The turn of a request is over**: the request is complete, and the question and its answer are in
the history. -/
structure EndsTurn (b b' : Bridge W) (requestId : UInt64) (session : NativeChatSession)
    (active : ActiveConversationTurn) : Prop where
  complete : b'.native.request requestId = some { session with status := .complete }
  turns : b'.native.conversation.turns = b.native.conversation.turns ++
    [.user active.userMessage, .assistant active.generatedText]
  idle : b'.native.conversation.active = none

/-- **The request has failed for good**: its turn is still in progress, and every later call reports
the failure and changes nothing. -/
structure Stuck (b b' : Bridge W) (requestId : UInt64) (session : NativeChatSession) : Prop where
  failed : b'.native.request requestId = some { session with status := .failed }
  turns : b'.native.conversation.turns = b.native.conversation.turns
  inProgress : ∃ active, b'.native.conversation.active = some active ∧
    active.taskId = session.taskId
  stuck : ∀ engine : ChatEngine W, exec (nativeNextChatEvent engine requestId) b' =
    (.ok (.error "native chat generation failed"), b')

theorem Generates.exec_nextChatEvent_eq (h : Generates b requestId session active model)
    (hp : Produces engine active model token piece)
    {answer : Except ChatError ChatEvent} {s : NativeState}
    (hexec : exec (appendToken requestId session.taskId model.tokenizer.eosToken token piece)
      b.native = (answer, s)) :
    exec (nextChatEvent engine requestId) b = (answer, { b with native := s }) := by
  rw [h.exec_nextChatEvent hp, exec_locked, hexec]
  cases answer <;> rfl

theorem final_said (hfinal : Final active model token) :
    model.tokenizer.eosToken = some token ∨ (active.said token piece).maxNewTokens ≤
      (active.said token piece).generatedTokens.length := by
  rw [ActiveConversationTurn.said, List.length_append, List.length_singleton]
  exact hfinal

/-- A last token with a reply that says something ends the turn. -/
theorem Generates.exec_final [SovereignMemory.CharTables] (hsound : b.Sound)
    (h : Generates b requestId session active model)
    (hp : Produces engine active model token piece) (hfinal : Final active model token)
    (hturns : b.native.conversation.turns.length + 2 ≤ maxTurns)
    (hmessage : active.userMessage.utf8ByteSize ≤ maxTextBytes)
    (htick : b.native.conversation.cognition.tick.toNat + 1 < 2 ^ 64)
    (hids : b.native.conversation.cognition.memory.nextId.toNat + 2 < 2 ^ 64)
    (hshort : (active.generatedText ++ piece).utf8ByteSize ≤ maxTextBytes)
    (hsaid : isBlank (active.generatedText ++ piece) = false) :
    ∃ b', exec (nextChatEvent engine requestId) b = (.ok (.token token piece), b') ∧
      EndsTurn b b' requestId session (active.said token piece) := by
  have hvalid : ConversationValid False
      (b.native.withActive (active.said token piece)).conversation := by
    have hstep := (conversationValid_step_iff hsound
      (.appendGenerated active.taskId token piece)).2 False.elim
    rw [SovereignConversationState.step, exec_appendGenerated token piece h.inProgress h.room
      (by rwa [← String.utf8ByteSize_append])] at hstep
    exact hstep
  obtain ⟨cognition, hcomplete⟩ := exec_completeTurn_of_room hvalid rfl hsaid htick hids
  have hhistory : validateTurns (turnsAfter (b.native.withActive
      (active.said token piece)).conversation (active.said token piece)) = .ok () :=
    validateTurns_eq_ok.2 ((turnsValid_append_iff hsound.turns
      (hsound.active active h.inProgress).message hsaid hshort).2 ⟨hturns, hmessage⟩)
  rw [hhistory] at hcomplete
  have htask : (active.said token piece).taskId = session.taskId := h.task
  let done : NativeState := { b.native with
    conversation := {
      cognition, turns := turnsAfter b.native.conversation (active.said token piece)
      active := none } }
  have hnative : exec (inNativeConversation "commit sovereign conversation turn"
      (completeTurn session.taskId)) (b.native.withActive (active.said token piece)) =
        (.ok (), done) := by
    rw [exec_inNativeConversation, ← htask, hcomplete]
    rfl
  have hfinish : exec (finishTurn requestId session.taskId)
      (b.native.withActive (active.said token piece)) =
        (.ok (), done.setStatus requestId .complete) := by
    rw [finishTurn, exec_bind_ok hnative, exec_modify]
  have happend : exec (appendToken requestId session.taskId model.tokenizer.eosToken token piece)
      b.native = (.ok (.token token piece), done.setStatus requestId .complete) := by
    rw [h.exec_appendToken hshort, if_pos (final_said hfinal), exec_bind_ok hfinish, exec_pure]
  exact ⟨_, h.exec_nextChatEvent_eq hp happend,
    request_setStatus (s := done) h.request .complete, rfl, rfl⟩

/-- A last token whose reply is too long or blank is refused. -/
theorem Generates.exec_refused (h : Generates b requestId session active model)
    (hp : Produces engine active model token piece) (hfinal : Final active model token)
    (hno : ¬ ((active.generatedText ++ piece).utf8ByteSize ≤ maxTextBytes ∧
      isBlank (active.generatedText ++ piece) = false)) :
    ∃ e s, exec (nextChatEvent engine requestId) b = (.error e, { b with native := s }) ∧
      (s = b.native ∨ s = b.native.withActive (active.said token piece)) := by
  by_cases hshort : (active.generatedText ++ piece).utf8ByteSize ≤ maxTextBytes
  · have hblank : isBlank (active.said token piece).generatedText = true :=
      eq_true_of_ne_false fun hsaid => hno ⟨hshort, hsaid⟩
    have htask : (active.said token piece).taskId = session.taskId := h.task
    have hcomplete := exec_completeTurn_of_blank (c := (b.native.withActive
      (active.said token piece)).conversation) rfl hblank
    have hnative : exec (inNativeConversation "commit sovereign conversation turn"
        (completeTurn session.taskId)) (b.native.withActive (active.said token piece)) =
          (.error (.conversation "commit sovereign conversation turn" .emptyAssistantResponse),
            b.native.withActive (active.said token piece)) := by
      rw [exec_inNativeConversation, ← htask, hcomplete]
      rfl
    have happend : exec (appendToken requestId session.taskId model.tokenizer.eosToken token piece)
        b.native = (.error (.conversation "commit sovereign conversation turn"
          .emptyAssistantResponse), b.native.withActive (active.said token piece)) := by
      rw [h.exec_appendToken hshort, if_pos (final_said hfinal)]
      exact exec_bind_error (exec_bind_error hnative)
    exact ⟨_, _, h.exec_nextChatEvent_eq hp happend, .inr rfl⟩
  · have hlong : ∃ e, exec (appendGenerated active.taskId token piece) b.native.conversation =
        (.error e, b.native.conversation) :=
      exec_appendGenerated_of_long h.inProgress h.room (Nat.not_le.1 hshort)
    obtain ⟨e, hexec⟩ := hlong
    rw [h.task] at hexec
    have hrunning : ((b.native.request requestId).any fun session =>
        session.status = .running ∧ !session.cancel) = true := by
      rw [h.request, Option.any_some, decide_eq_true_eq]
      exact ⟨h.running, by rw [h.kept, Bool.not_false]⟩
    have hnative : exec (inNativeConversation "checkpoint generated token"
        (appendGenerated session.taskId token piece)) b.native =
          (.error (.conversation "checkpoint generated token" e), b.native) := by
      rw [exec_inNativeConversation, hexec]
      rfl
    have happend : exec (appendToken requestId session.taskId model.tokenizer.eosToken token piece)
        b.native = (.error (.conversation "checkpoint generated token" e), b.native) := by
      rw [appendToken, exec_get_bind, if_pos hrunning]
      exact exec_bind_error hnative
    exact ⟨_, _, h.exec_nextChatEvent_eq hp happend, .inl rfl⟩

/-- A failed request stays failed. -/
theorem exec_nativeNextChatEvent_failed {b : Bridge W}
    (h : (b.native.request requestId).map (·.status) = some .failed) (engine : ChatEngine W) :
    exec (nativeNextChatEvent engine requestId) b =
      (.ok (.error "native chat generation failed"), b) := by
  obtain ⟨session, hrequest, hstatus⟩ := Option.map_eq_some_iff.1 h
  have hterminal : terminalChatEvent requestId b.native =
      some (.error "native chat generation failed") := by
    simp only [terminalChatEvent, hrequest, hstatus, Option.bind_eq_bind, Option.bind_some]
  have hnext : exec (nextChatEvent engine requestId) b =
      (.ok (.error "native chat generation failed"), b) := by
    rw [nextChatEvent, exec_get_bind, hterminal]
    rfl
  have hattempt : exec (Secrecy.attempt (nextChatEvent engine requestId) : BridgeM W _) b =
      (.ok (.ok (.error "native chat generation failed")), b) := by
    change ((Except.ok (exec (nextChatEvent engine requestId) b).1 : Except ChatError _), _) = _
    rw [hnext]
  rw [nativeNextChatEvent, exec_bind_ok hattempt]
  rfl

/-- A call that fails makes the request fail for good. -/
theorem stuck_of_error {s : NativeState} {e : ChatError}
    (hexec : exec (nextChatEvent engine requestId) b = (.error e, { b with native := s }))
    (hrequest : s.request requestId = some session)
    (hturns : s.conversation.turns = b.native.conversation.turns)
    (hactive : ∃ active, s.conversation.active = some active ∧ active.taskId = session.taskId) :
    ∃ b' text, exec (nativeNextChatEvent engine requestId) b = (.ok (.error text), b') ∧
      Stuck b b' requestId session := by
  have hattempt : exec (Secrecy.attempt (nextChatEvent engine requestId) : BridgeM W _) b =
      (.ok (.error e), { b with native := s }) := by
    change ((Except.ok (exec (nextChatEvent engine requestId) b).1 : Except ChatError _), _) = _
    rw [hexec]
  have hfailed := request_setStatus hrequest .failed
  refine ⟨{ b with native := s.setStatus requestId .failed }, engine.render e, ?_, hfailed, hturns,
    hactive, fun engine' => exec_nativeNextChatEvent_failed ?_ engine'⟩
  · rw [nativeNextChatEvent, exec_bind_ok hattempt, exec_modify_bind, exec_pure]
  · rw [hfailed, Option.map_some]

/-- **How a generation ends.**  In every state reached, a last token ends the turn exactly if the
reply is short enough and not blank, as long as the history has room for a question that is short
enough, and ticks and memory ids last; otherwise the request fails for good, with its turn in
progress.  A token that is not the last one is appended, and the request is as before. -/
theorem nextChatEvent_ends_turn_iff [SovereignMemory.CharTables] (hreached : b.Reached)
    (hgenerates : Generates b requestId session active model)
    (hproduces : Produces engine active model token piece) :
    (Final active model token → b.native.conversation.turns.length + 2 ≤ maxTurns →
      active.userMessage.utf8ByteSize ≤ maxTextBytes →
      b.native.conversation.cognition.tick.toNat + 1 < 2 ^ 64 →
      b.native.conversation.cognition.memory.nextId.toNat + 2 < 2 ^ 64 →
      ((∃ b', exec (nextChatEvent engine requestId) b = (.ok (.token token piece), b') ∧
          EndsTurn b b' requestId session (active.said token piece)) ↔
        (active.generatedText ++ piece).utf8ByteSize ≤ maxTextBytes ∧
          isBlank (active.generatedText ++ piece) = false)) ∧
    (Final active model token →
      ¬ ((active.generatedText ++ piece).utf8ByteSize ≤ maxTextBytes ∧
        isBlank (active.generatedText ++ piece) = false) →
      ∃ b' text, exec (nativeNextChatEvent engine requestId) b = (.ok (.error text), b') ∧
        Stuck b b' requestId session) ∧
    (¬ Final active model token →
      (active.generatedText ++ piece).utf8ByteSize ≤ maxTextBytes →
      exec (nextChatEvent engine requestId) b = (.ok (.token token piece),
        { b with native := b.native.withActive (active.said token piece) })) := by
  refine ⟨fun hfinal hturns hmessage htick hids => ⟨?_, ?_⟩, fun hfinal hno => ?_,
    fun hfinal hshort => ?_⟩
  · rintro ⟨b', hexec, -⟩
    by_contra hno
    obtain ⟨e, s, herror, -⟩ := hgenerates.exec_refused hproduces hfinal hno
    rw [herror] at hexec
    cases (Prod.mk.inj hexec).1
  · rintro ⟨hshort, hsaid⟩
    exact hgenerates.exec_final hreached.sound hproduces hfinal hturns hmessage htick hids hshort
      hsaid
  · obtain ⟨e, s, herror, hs⟩ := hgenerates.exec_refused hproduces hfinal hno
    refine stuck_of_error herror ?_ ?_ ?_
    · rcases hs with rfl | rfl <;> exact hgenerates.request
    · rcases hs with rfl | rfl <;> rfl
    · rcases hs with rfl | rfl
      · exact ⟨active, hgenerates.inProgress, hgenerates.task⟩
      · exact ⟨active.said token piece, rfl, hgenerates.task⟩
  · have hnot : ¬ (model.tokenizer.eosToken = some token ∨ (active.said token piece).maxNewTokens ≤
        (active.said token piece).generatedTokens.length) := by
      rw [ActiveConversationTurn.said, List.length_append, List.length_singleton]
      exact hfinal
    refine hgenerates.exec_nextChatEvent_eq hproduces ?_
    rw [hgenerates.exec_appendToken hshort, if_neg hnot, exec_pure_bind, exec_pure]

/-! ## A turn of one token -/

theorem exec_restoreChatCheckpoint {bytes : Bytes} {c : SovereignConversationState}
    {s : NativeState} {next : UInt64} (hdecode : decodeConversationCheckpoint bytes = .ok c)
    (hactive : c.active = some active) (happroval : c.approvalStatus active.taskId = none)
    (hnext : checkedAdd64 s.nextChatRequestId 1 = some next) :
    exec (restoreChatCheckpoint bytes) s = (.ok s.nextChatRequestId, { s with
      conversation := c, nextChatRequestId := next
      chatSession := some {
        requestId := s.nextChatRequestId, taskId := active.taskId, cancel := false
        status := .running } }) := by
  rw [restoreChatCheckpoint, hdecode, exec_check_ok_bind, exec_modify_bind, hactive]
  dsimp only
  rw [exec_get_bind, hnext, exec_okOr_some_bind, exec_modify_bind, happroval]
  rfl

/-! ## What becomes of the turn -/

/-- A turn that is cancelled is no longer in progress. -/
theorem triple_cancelTurn_idle (taskId : UInt64) (reason : String) :
    Triple (fun _ => True) (cancelTurn taskId reason) (fun _ c => c.active = none)
      (fun _ _ => True) := by
  unfold cancelTurn
  refine .read_bind fun c _ => triple_activeTurn_bind (fun _ _ _ => ?_) fun _ => trivial
  exact triple_clone_bind (fun _ _ _ => .write fun _ _ => rfl) fun _ => trivial

/-- **A turn that was left in progress is gone before the next one is prepared.** -/
theorem triple_recoverOrphanedChatTurn :
    Triple (fun _ => True) recoverOrphanedChatTurn (fun _ s => s.conversation.active = none)
      (fun _ _ => True) := by
  unfold recoverOrphanedChatTurn
  refine .read_bind fun s _ => ?_
  split
  · next hidle =>
    refine .ret ?_
    rintro _ rfl
    exact hidle
  · refine .bind (Q := fun _ s => s.conversation.active = none) ?_ fun _ => .write fun _ hs => hs
    exact .zoom (triple_cancelTurn_idle _ _) (fun _ _ => trivial) (fun _ _ _ _ h => h)
      fun _ _ _ _ _ => trivial

/-! ## The text of a turn -/

/-- **The text of a turn is its tokens, read one at a time** behind the prompt: a token keeps it. -/
theorem Produces.decodeEach_said (hp : Produces engine active model token piece)
    {previousToken : UInt32} (hprompt : active.promptTokens.getLast? = some previousToken)
    (htext : model.tokenizer.decodeEach previousToken active.generatedTokens =
      .ok active.generatedText) :
    model.tokenizer.decodeEach previousToken (active.said token piece).generatedTokens =
      .ok (active.said token piece).generatedText := by
  have hlast : (active.promptTokens ++ active.generatedTokens).getLast? =
      (previousToken :: active.generatedTokens).getLast? := by
    rw [List.getLast?_append, hprompt, List.getLast?_cons]
    cases active.generatedTokens.getLast? <;> rfl
  have hpiece := hp.decoded
  rw [hlast] at hpiece
  exact LlamaSpmTokenizer.decodeEach_concat htext hpiece

end Endings

namespace ChatSample

open CognitionSample

def config : LlamaSpmConfig where
  bosToken := none
  eosToken := some 0
  unknownToken := none
  addSpacePrefix := false
  addBosToken := false
  addEosToken := false

/-- A model whose tokens are the end and a letter. -/
def model : NativeChatModel where
  assetId := "model"
  version := 1
  contextLimit := 8
  tokenizer := (LlamaSpmTokenizer.new [utf8 "</s>", utf8 "a"] [0, 0]
    [tokenTypeControl, tokenTypeNormal] config).toOption.getD
    ⟨[], [], [], none, none, none, false, false, false, ∅, []⟩

/-- A model that always says the same token, and a platform on which nothing works. -/
def engine (token : UInt32) : ChatEngine Unit where
  debug _ := ""
  render _ := ""
  preflight _ _ _ _ _ := .error (.text "")
  compile _ _ _ _ _ := .error (.text "")
  probe _ _ := .error (.text "")
  plan _ _ := .error (.text "")
  encode _ _ := .error (.text "")
  generate _ _ := .ok [token]
  openAdapter _ _ w := (.error "", w)
  verifier := ⟨fun _ _ _ w => (.accept, w)⟩

/-- A question to be answered with one token. -/
def begun : SovereignConversationState :=
  Machine.run SovereignConversationState.step (.new identity) [.beginTurn "model" 1 "hello" [1] 1]

def file : Bytes := (encodeConversationCheckpoint begun).toOption.getD []

def active : ActiveConversationTurn := fresh 1 "model" 1 "hello" [1] 1

/-- The model is opened, and the conversation restored. -/
def restored : Bridge Unit :=
  Machine.run Bridge.step (.start ()) [(engine 0, .openModel model), (engine 0, .restore file)]

theorem begun_facts : (begun.active = some active ∧ begun.turns = [] ∧
      begun.cognition.tick.toNat + 1 < 2 ^ 64 ∧ begun.cognition.memory.nextId.toNat + 2 < 2 ^ 64 ∧
      begun.approvalStatus 1 = none) ∧
    (encodeConversationCheckpoint begun).toOption.isSome ∧
    (0 : UInt64) ∉ begun.cognition.goals ∧ (0 : UInt64) ∉ begun.cognition.tasks ∧
      (0 : UInt64) ∉ begun.cognition.deltas := by
  decide +kernel

/-- What the model says is read as nothing, respectively as a letter. -/
theorem said_facts : (model.tokenizer.decodeAfter (some 1) [0] true = .ok "" ∧
      model.tokenizer.decodeAfter (some 1) [1] true = .ok "a") ∧
    ¬ ((active.generatedText ++ "").utf8ByteSize ≤ maxTextBytes ∧
      isBlank (active.generatedText ++ "") = false) := by
  decide +kernel

theorem decode_file : decodeConversationCheckpoint file = .ok begun := by
  obtain ⟨-, hencode, hgoals, htasks, hdeltas⟩ := begun_facts
  exact decodeConversationCheckpoint_of_encode ⟨hgoals, htasks, hdeltas⟩ (Guard.eq_ok_getD hencode _)

theorem restored_eq : restored = { Bridge.start () with
    native := { NativeState.initial with
      conversation := begun, chatModel := some model, nextChatRequestId := 2
      chatSession := some { requestId := 1, taskId := 1, cancel := false, status := .running } } } := by
  obtain ⟨⟨hactive, -, -, -, happroval⟩, -⟩ := begun_facts
  have hopened : exec (openChatModel model) NativeState.initial =
      (.ok (), { NativeState.initial with chatModel := some model }) := by
    rw [openChatModel, exec_refuse_of_neg (by decide +kernel), exec_modify]
  have hnext : checkedAdd64 NativeState.initial.nextChatRequestId 1 = some 2 := by decide +kernel
  have hrestored := exec_restoreChatCheckpoint (s := { NativeState.initial with
    chatModel := some model }) decode_file hactive happroval hnext
  have hopen : Bridge.step (.start ()) (engine 0, .openModel model) = { Bridge.start () with
      native := { NativeState.initial with chatModel := some model } } := by
    change (exec (locked (openChatModel model)) (Bridge.start ())).2 = _
    rw [exec_locked]
    change ({ Bridge.start () with native := (exec _ NativeState.initial).2 } : Bridge Unit) = _
    rw [hopened]
  rw [restored, Machine.run_cons, Machine.run_cons, Machine.run_nil, hopen]
  change (exec (locked (restoreChatCheckpoint file) >>= fun _ => pure ()) _).2 = _
  rw [exec_bind, exec_locked, hrestored]
  rfl

theorem reached_restored : restored.Reached := ⟨(), _, rfl⟩

def session : NativeChatSession where
  requestId := 1
  taskId := 1
  cancel := false
  status := .running

theorem generates : Generates restored 1 session active model := by
  rw [restored_eq]
  exact {
    request := rfl, running := rfl, kept := rfl, inProgress := begun_facts.1.1, task := rfl
    planless := rfl, loaded := rfl, asset := rfl, version := rfl, room := Nat.zero_lt_one }

theorem produces : Produces (engine 0) active model 0 "" ∧ Produces (engine 1) active model 1 "a" :=
  ⟨⟨⟨[], rfl⟩, said_facts.1.1⟩, ⟨[], rfl⟩, said_facts.1.2⟩

theorem final (token : UInt32) : Final active model token := .inr le_rfl

end ChatSample

open CognitionSample ChatSample

/-- A letter is a reply. -/
theorem nextChatEvent_ends_turn_iff_letter : ∃ b',
    exec (nextChatEvent (engine 1) 1) restored = (.ok (.token 1 "a"), b') ∧
      EndsTurn restored b' 1 session (active.said 1 "a") := by
  obtain ⟨⟨-, hturns, htick, hids, -⟩, -⟩ := begun_facts
  have hends := (nextChatEvent_ends_turn_iff reached_restored generates produces.2).1 (final 1)
  rw [restored_eq] at hends ⊢
  refine (hends ?_ (by decide +kernel) htick hids).2 (by decide +kernel)
  rw [hturns]
  decide

/-- **The end alone is none**: a generation that ends at once does not end its turn. -/
theorem not_nextChatEvent_ends_turn : ¬ ∀ (b : Bridge Unit) (engine : ChatEngine Unit)
    (requestId : UInt64) (session : NativeChatSession) (active : ActiveConversationTurn)
    (model : NativeChatModel) (token : UInt32) (piece : String), b.Reached →
      Generates b requestId session active model → Produces engine active model token piece →
        Final active model token →
          ∃ b', exec (nextChatEvent engine requestId) b = (.ok (.token token piece), b') ∧
            EndsTurn b b' requestId session (active.said token piece) := by
  intro h
  obtain ⟨b', hexec, -⟩ := h _ _ _ _ _ _ _ _ reached_restored generates produces.1 (final 0)
  obtain ⟨e, s, herror, -⟩ := generates.exec_refused produces.1 (final 0) said_facts.2
  rw [herror] at hexec
  cases (Prod.mk.inj hexec).1

end NTD97
