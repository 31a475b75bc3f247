import Mathlib
import NTD97.AssistantActions
import NTD97.Lib.Split

/-!
# AssistantActions/Canonical — the stored text of a plan

    text ──parse──▸ plan ──canonical_text──▸ text' ──parse──▸ plan

The stored text is the header, the action lines as they were written, and `END`.  So it is read back
to the same plan; but a line keeps the spelling of its id, and a number has more than one.  All else
on a line is determined by the action (`utf8_of_parsePayload`).
-/

namespace NTD97

open Guard Text Wire

variable {line capability payload : String} {expectedId : UInt32}

/-! ## One line -/

theorem not_unfit {field : String} (h : ¬ unfit field) : isBlank field = false ∧ field = trim field := by
  rw [unfit, not_or, Bool.not_eq_true, not_not] at h
  exact h

/-- **A line that is accepted**: an id as it is spelt, a capability, and a payload. -/
structure LineParts (line : String) (expectedId : UInt32) (r : ActionNode × TypedAction × String)
    (id capability payload : String) : Prop where
  line_eq : line = id ++ "|" ++ (capability ++ "|" ++ payload)
  id_eq : (splitN 3 '|' line)[0]? = some id
  node_id : r.1.id = expectedId
  node_capability : r.1.capability = ⟨capability⟩
  fit : ¬ unfit payload
  typed : parsePayload capability payload = .ok r.2.1
  canonical : r.2.2 = line

theorem parts_of_three {s first second third : String} {c : Char}
    (hfirst : (splitN 3 c s)[0]? = some first) (hsecond : (splitN 3 c s)[1]? = some second)
    (hthird : (splitN 3 c s)[2]? = some third) :
    s = first ++ String.singleton c ++ (second ++ String.singleton c ++ third) := by
  have hlength := length_splitN_le c 3 s
  have hjoin := joinWith_splitN c 2 s
  rcases hparts : splitN 3 c s with _ | ⟨a, _ | ⟨b, _ | ⟨d, _ | ⟨e, l⟩⟩⟩⟩ <;>
    rw [hparts] at hfirst hsecond hthird hlength hjoin
  · exact nomatch hfirst
  · exact nomatch hsecond
  · exact nomatch hthird
  · obtain rfl : a = first := Option.some.inj hfirst
    obtain rfl : b = second := Option.some.inj hsecond
    obtain rfl : d = third := Option.some.inj hthird
    exact hjoin.symm
  · simp only [List.length_cons] at hlength
    omega

theorem parseActionLine_eq_ok {r : ActionNode × TypedAction × String}
    (h : parseActionLine line expectedId = .ok r) :
    ∃ id capability payload, LineParts line expectedId r id capability payload := by
  simp only [parseActionLine, bind_eq_ok, exists_unit, refuse_eq_ok, okOr_eq_ok, mapError_eq_ok,
    pure_eq_ok, not_or, not_not] at h
  obtain ⟨id, hid, n, -, -, capability, hcapability, payload, hpayload, ⟨-, hn⟩,
    ⟨hfit, -⟩, typed, htyped, -, rfl⟩ := h
  refine ⟨id, capability, payload, parts_of_three hid hcapability hpayload, hid, ?_, rfl, hfit,
    htyped, rfl⟩
  change UInt32.ofNat n = expectedId
  rw [hn, UInt32.ofNat_toNat]

/-- An accepted line ends with its payload, so not with white space. -/
theorem getLast?_of_parts {r : ActionNode × TypedAction × String} {id : String}
    (h : LineParts line expectedId r id capability payload) :
    line.toList.getLast? ≠ some '\r' := by
  obtain ⟨hblank, htrim⟩ := not_unfit h.fit
  have hne : payload.toList ≠ [] := by
    intro hnil
    have hempty : payload = "" := String.toList_inj.1 (hnil.trans String.toList_empty.symm)
    rw [hempty] at hblank
    exact absurd hblank (by decide)
  have hlast : line.toList.getLast? = payload.toList.getLast? := by
    rw [h.line_eq]
    simp only [String.toList_append]
    rw [List.getLast?_append_of_ne_nil _ (List.append_ne_nil_of_right_ne_nil _ hne),
      List.getLast?_append_of_ne_nil _ hne]
  rw [hlast]
  intro hreturn
  have hwhite := isWhitespace_getLast htrim '\r' hreturn
  exact absurd hwhite (by decide)

/-! ## The lines of a plan -/

/-- **The loop reads the lines before `END`** and stores them as they are. -/
theorem parseActionLines_eq_ok : ∀ {lines : List String} {expectedId : UInt32}
    {plan plan' : ParsedActionPlan} {rest : List String},
    parseActionLines lines expectedId plan = .ok (plan', rest) →
      ∃ acts, lines = acts ++ "END" :: rest ∧
        plan'.canonicalText = plan.canonicalText ++ unlines acts ∧
        (∀ line ∈ acts, line ≠ "END" ∧ line.toList.getLast? ≠ some '\r') ∧
        ∀ rest', parseActionLines (acts ++ "END" :: rest') expectedId plan = .ok (plan', rest')
  | [], _, _, _, _, h => (throw_ne_ok.1 h).elim
  | line :: lines, expectedId, plan, plan', rest, h => by
      rw [parseActionLines] at h
      split at h
      · next hend =>
        obtain ⟨rfl, rfl⟩ := Prod.mk.inj (pure_eq_ok.1 h)
        refine ⟨[], by rw [hend]; rfl, by rw [unlines_nil, String.append_empty], by simp,
          fun rest' => ?_⟩
        rw [List.nil_append, parseActionLines, if_pos rfl]
        rfl
      · next hend =>
        simp only [bind_eq_ok, exists_unit, refuse_eq_ok] at h
        obtain ⟨hcount, ⟨node, action, canonicalLine⟩, hline, hnext, hrest⟩ := h
        obtain ⟨acts, rfl, hcanonical, hacts, hagain⟩ := parseActionLines_eq_ok hrest
        obtain ⟨id, capability, payload, hparts⟩ := parseActionLine_eq_ok hline
        obtain rfl : canonicalLine = line := hparts.canonical
        refine ⟨canonicalLine :: acts, rfl, ?_, ?_, fun rest' => ?_⟩
        · rw [hcanonical, unlines_cons]
          simp only [String.append_assoc]
        · exact List.forall_mem_cons.2 ⟨⟨hend, getLast?_of_parts hparts⟩, hacts⟩
        · rw [List.cons_append, parseActionLines, if_neg hend]
          simp only [bind_eq_ok, exists_unit, refuse_eq_ok]
          exact ⟨hcount, _, hline, hnext, hagain rest'⟩

/-- The plan before the first action line. -/
def startPlan : ParsedActionPlan where
  graph := {}
  canonicalText := nativeActionProtocolV1 ++ "\n"
  payloads := ∅

/-- **An accepted plan**: its action lines, and what the loop makes of them. -/
theorem parseNativeActionPlan_eq_ok {text : String} {plan : ParsedActionPlan}
    (h : parseNativeActionPlan text = .ok (.actions plan)) :
    ∃ acts rest plan', lines (trim text) = nativeActionProtocolV1 :: (acts ++ "END" :: rest) ∧
      (∀ line ∈ acts, line ≠ "END" ∧ '\n' ∉ line.toList ∧ line.toList.getLast? ≠ some '\r') ∧
      (∀ rest', parseActionLines (acts ++ "END" :: rest') 1 startPlan = .ok (plan', rest')) ∧
      plan'.graph.actions ≠ [] ∧
      plan = { plan' with canonicalText := plan'.canonicalText ++ "END" } ∧
      plan.canonicalText = unlines (nativeActionProtocolV1 :: acts) ++ "END" := by
  simp only [parseNativeActionPlan, bind_eq_ok, exists_unit, refuse_eq_ok] at h
  obtain ⟨-, h⟩ := h
  split at h
  · cases pure_eq_ok.1 h
  simp only [bind_eq_ok, exists_unit, refuse_eq_ok, not_not, Prod.exists] at h
  obtain ⟨hheader, plan', rest, hlines, -, hactions, hplan⟩ := h
  obtain ⟨acts, htail, hcanonical, hacts, hagain⟩ := parseActionLines_eq_ok hlines
  have hall : lines (trim text) = nativeActionProtocolV1 :: (acts ++ "END" :: rest) := by
    obtain ⟨ls, hls⟩ := List.head?_eq_some_iff.1 hheader
    rw [hls] at htail ⊢
    rw [← htail, List.tail_cons]
  have hplan : { plan' with canonicalText := plan'.canonicalText ++ "END" } = plan := by
    have heq := pure_eq_ok.1 hplan
    injection heq
  refine ⟨acts, rest, plan', hall, fun line hline => ?_, hagain, hactions, hplan.symm, ?_⟩
  · obtain ⟨hend, hreturn⟩ := hacts line hline
    refine ⟨hend, not_mem_of_mem_lines (s := trim text) ?_, hreturn⟩
    rw [hall]
    exact List.mem_cons_of_mem _ (List.mem_append_left _ hline)
  · rw [← hplan, unlines_cons]
    change plan'.canonicalText ++ "END" = _
    rw [hcanonical]

/-! ## Reading the stored text -/

theorem trim_canonical (acts : List String) :
    trim (unlines (nativeActionProtocolV1 :: acts) ++ "END") =
      unlines (nativeActionProtocolV1 :: acts) ++ "END" := by
  refine trim_eq_self ?_ ?_
  · have hfirst : (unlines (nativeActionProtocolV1 :: acts) ++ "END").toList.head? = some 'N' := by
      rw [unlines_cons, nativeActionProtocolV1]
      simp
    rw [hfirst]
    intro c hc
    obtain rfl := Option.some.inj hc
    decide
  · have hlast : (unlines (nativeActionProtocolV1 :: acts) ++ "END").toList.getLast? =
        some 'D' := by
      rw [String.toList_append, List.getLast?_append_of_ne_nil _ (by decide)]
      decide
    rw [hlast]
    intro c hc
    obtain rfl := Option.some.inj hc
    decide

theorem lines_canonical {acts : List String}
    (h : ∀ line ∈ acts, line ≠ "END" ∧ '\n' ∉ line.toList ∧ line.toList.getLast? ≠ some '\r') :
    lines (unlines (nativeActionProtocolV1 :: acts) ++ "END") =
      nativeActionProtocolV1 :: (acts ++ ["END"]) := by
  refine lines_unlines ?_ (by decide) (by decide)
  refine List.forall_mem_cons.2 ⟨by decide, fun line hline => (h line hline).2⟩

/-- **The stored text is read back to the same plan.** -/
theorem parse_canonicalText (text : String) (plan : ParsedActionPlan)
    (h : parseNativeActionPlan text = .ok (.actions plan)) :
    parseNativeActionPlan plan.canonicalText = .ok (.actions plan) := by
  obtain ⟨acts, rest, plan', -, hacts, hagain, hactions, hplan, hcanonical⟩ :=
    parseNativeActionPlan_eq_ok h
  have hne : ¬ unlines (nativeActionProtocolV1 :: acts) ++ "END" = "" := by
    intro hempty
    have hlength := congrArg String.length hempty
    rw [String.length_append] at hlength
    exact absurd hlength (by simp)
  have hdirect : ¬ unlines (nativeActionProtocolV1 :: acts) ++ "END" = nativeActionDirect := by
    intro heq
    have hfirst := congrArg (fun s => s.toList.head?) heq
    rw [unlines_cons, nativeActionProtocolV1, nativeActionDirect] at hfirst
    simp at hfirst
  rw [hcanonical, parseNativeActionPlan]
  simp only [trim_canonical, lines_canonical hacts, if_neg hdirect, bind_eq_ok, exists_unit,
    refuse_eq_ok, Prod.exists]
  refine ⟨hne, by simp, plan', [], hagain [], by simp, hactions, ?_⟩
  rw [hplan]
  rfl

/-! ## What a payload says -/

/-- A tab, as it is written. -/
def tab : Bytes := utf8 (String.singleton '\t')

/-- An optional last field. -/
def lastField : Option String → Bytes
  | none => []
  | some field => tab ++ utf8 field

/-- **The payload of an action**, as it is written. -/
def payloadBytes : TypedAction → Bytes
  | .webSearch query _ => utf8 query
  | .webFetch url => utf8 url
  | .artifactDownload url path => utf8 url ++ tab ++ utf8 path
  | .artifactUpload url path => utf8 url ++ tab ++ utf8 path
  | .browserObserve target => utf8 target
  | .browserInteract target operation value =>
    utf8 target ++ tab ++ utf8 operation ++ lastField value
  | .fileRead path => utf8 path
  | .fileWrite path bytes => utf8 path ++ tab ++ bytes
  | .deviceObserve surface => utf8 surface
  | .deviceInteract surface operation argument =>
    utf8 surface ++ tab ++ utf8 operation ++ lastField argument
  | .appAction app action payload =>
    utf8 app ++ tab ++ utf8 action ++ if payload = [] then [] else tab ++ payload
  | .pcObserve peer surface => utf8 peer ++ tab ++ utf8 surface
  | .pcExecute peer program args workingDir =>
    utf8 peer ++ tab ++ utf8 program ++
      if args = [] then lastField workingDir
      else tab ++ utf8 (workingDir.getD "") ++ tab ++ utf8 (joinWith '\x1f' args)
  | .pcArtifactRead peer path => utf8 peer ++ tab ++ utf8 path
  | .pcArtifactWrite peer path bytes => utf8 peer ++ tab ++ utf8 path ++ tab ++ bytes
  | .custom _ payload => payload

theorem utf8_ne_nil {field : String} (h : field ≠ "") : utf8 field ≠ [] := by
  intro hnil
  have hsame : ofUtf8 (utf8 field) = ofUtf8 (utf8 "") := by
    rw [hnil]
    rfl
  rw [ofUtf8_utf8, ofUtf8_utf8] at hsame
  exact h (Option.some.inj hsame)

theorem utf8_injective {s t : String} (h : utf8 s = utf8 t) : s = t := by
  have hsame := congrArg ofUtf8 h
  rw [ofUtf8_utf8, ofUtf8_utf8] at hsame
  exact Option.some.inj hsame

/-- What ends with a tab is not trimmed. -/
theorem unfit_tab (field : String) : unfit (field ++ String.singleton '\t') := by
  refine .inr (ne_trim_of_append (by decide) fun c hc => ?_)
  rw [String.toList_singleton, List.mem_singleton] at hc
  rw [hc]
  decide

theorem utf8_of_splitOnce {left right : String} (h : splitOnce '\t' payload = some (left, right)) :
    utf8 payload = utf8 left ++ tab ++ utf8 right := by
  rw [splitOnce_eq_some h, utf8_append, utf8_append]
  rfl

theorem utf8_of_fieldPair {left right : String} (h : fieldPair payload = .ok (left, right)) :
    utf8 payload = utf8 left ++ tab ++ utf8 right := by
  simp only [fieldPair, bind_eq_ok, exists_unit, okOr_eq_ok, pure_eq_ok, Prod.exists] at h
  obtain ⟨left', right', hcut, -, heq⟩ := h
  obtain ⟨rfl, rfl⟩ := Prod.mk.inj heq
  exact utf8_of_splitOnce hcut

/-- The last field of a trimmed payload says something. -/
theorem last_ne_empty {n : ℕ} (hfit : ¬ unfit payload) {before : List String} {last : String}
    (h : splitN (n + 1) '\t' payload = before ++ [last]) (hbefore : before ≠ []) : last ≠ "" := by
  rintro rfl
  have hjoin : ∀ l : List String, l ≠ [] → joinWith '\t' (l ++ [""]) =
      joinWith '\t' l ++ String.singleton '\t' := by
    intro l hl
    induction l with
    | nil => exact absurd rfl hl
    | cons s l ih =>
      rcases List.eq_nil_or_concat' l with rfl | ⟨l', t, rfl⟩
      · rw [List.singleton_append, joinWith, joinWith, joinWith, String.append_empty]
      · have hne : l' ++ [t] ≠ [] := List.concat_ne_nil _ _
        rw [List.cons_append, joinWith_cons (List.append_ne_nil_of_left_ne_nil hne _), ih hne,
          joinWith_cons hne]
        simp only [String.append_assoc]
  have hpayload := joinWith_splitN '\t' n payload
  rw [h, hjoin before hbefore] at hpayload
  exact hfit (hpayload ▸ unfit_tab _)

/-- Two fields, and a third that is not empty if there is one. -/
theorem utf8_of_three (hfit : ¬ unfit payload) {first second : String}
    (hfirst : (splitN 3 '\t' payload)[0]? = some first)
    (hsecond : (splitN 3 '\t' payload)[1]? = some second) :
    utf8 payload =
        utf8 first ++ tab ++ utf8 second ++ lastField (splitN 3 '\t' payload)[2]? ∧
      (splitN 3 '\t' payload)[2]? ≠ some "" := by
  have hlength := length_splitN_le '\t' 3 payload
  have hjoin := joinWith_splitN '\t' 2 payload
  rcases hparts : splitN 3 '\t' payload with _ | ⟨a, _ | ⟨b, _ | ⟨d, _ | ⟨e, l⟩⟩⟩⟩ <;>
    rw [hparts] at hfirst hsecond hlength hjoin
  · exact nomatch hfirst
  · exact nomatch hsecond
  · obtain rfl : a = first := Option.some.inj hfirst
    obtain rfl : b = second := Option.some.inj hsecond
    refine ⟨?_, Option.some_ne_none "" ∘ Eq.symm⟩
    rw [← hjoin, joinWith, joinWith, utf8_append, utf8_append]
    exact (List.append_nil _).symm
  · obtain rfl : a = first := Option.some.inj hfirst
    obtain rfl : b = second := Option.some.inj hsecond
    refine ⟨?_, fun hd => ?_⟩
    · rw [← hjoin, joinWith, joinWith, joinWith]
      simp only [utf8_append, List.append_assoc]
      rfl
    · have hlast : splitN 3 '\t' payload = [a, b] ++ [d] := hparts
      exact last_ne_empty hfit hlast (List.cons_ne_nil _ _) (Option.some.inj hd)
  · simp only [List.length_cons] at hlength
    omega

/-- Two fields, and up to two more, the last of them not empty. -/
theorem utf8_of_four (hfit : ¬ unfit payload) {first second : String}
    (hfirst : (splitN 4 '\t' payload)[0]? = some first)
    (hsecond : (splitN 4 '\t' payload)[1]? = some second) :
    (splitN 4 '\t' payload)[2]? = none ∧ (splitN 4 '\t' payload)[3]? = none ∧
        utf8 payload = utf8 first ++ tab ++ utf8 second ∨
      (∃ third, (splitN 4 '\t' payload)[2]? = some third ∧ third ≠ "" ∧
        (splitN 4 '\t' payload)[3]? = none ∧
        utf8 payload = utf8 first ++ tab ++ utf8 second ++ (tab ++ utf8 third)) ∨
      ∃ third fourth, (splitN 4 '\t' payload)[2]? = some third ∧
        (splitN 4 '\t' payload)[3]? = some fourth ∧ fourth ≠ "" ∧
        utf8 payload =
          utf8 first ++ tab ++ utf8 second ++ (tab ++ utf8 third ++ tab ++ utf8 fourth) := by
  have hlength := length_splitN_le '\t' 4 payload
  have hjoin := joinWith_splitN '\t' 3 payload
  rcases hparts : splitN 4 '\t' payload with _ | ⟨a, _ | ⟨b, _ | ⟨d, _ | ⟨e, _ | ⟨g, l⟩⟩⟩⟩⟩ <;>
    rw [hparts] at hfirst hsecond hlength hjoin
  · exact nomatch hfirst
  · exact nomatch hsecond
  · obtain rfl : a = first := Option.some.inj hfirst
    obtain rfl : b = second := Option.some.inj hsecond
    refine .inl ⟨rfl, rfl, ?_⟩
    rw [← hjoin, joinWith, joinWith, utf8_append, utf8_append]
    rfl
  · obtain rfl : a = first := Option.some.inj hfirst
    obtain rfl : b = second := Option.some.inj hsecond
    have hlast : splitN 4 '\t' payload = [a, b] ++ [d] := hparts
    refine .inr (.inl ⟨d, rfl, last_ne_empty hfit hlast (List.cons_ne_nil _ _), rfl, ?_⟩)
    rw [← hjoin, joinWith, joinWith, joinWith]
    simp only [utf8_append, List.append_assoc]
    rfl
  · obtain rfl : a = first := Option.some.inj hfirst
    obtain rfl : b = second := Option.some.inj hsecond
    have hlast : splitN 4 '\t' payload = [a, b, d] ++ [e] := hparts
    refine .inr (.inr ⟨d, e, rfl, rfl, last_ne_empty hfit hlast (List.cons_ne_nil _ _), ?_⟩)
    rw [← hjoin, joinWith, joinWith, joinWith, joinWith]
    simp only [utf8_append, List.append_assoc]
    rfl
  · simp only [List.length_cons] at hlength
    omega

/-- The arguments of a program, put together again. -/
theorem utf8_of_args (args : String) :
    (args.toList.splitOn '\x1f').map String.ofList ≠ [] ∧
      utf8 (joinWith '\x1f' ((args.toList.splitOn '\x1f').map String.ofList)) = utf8 args := by
  refine ⟨fun hnil => List.splitOn_ne_nil _ _ (List.map_eq_nil_iff.1 hnil), ?_⟩
  rw [joinWith_splitOn]

/-- **An action determines its payload.** -/
theorem utf8_of_parsePayload {action : TypedAction}
    (h : parsePayload capability payload = .ok action) (hfit : ¬ unfit payload) :
    utf8 payload = payloadBytes action := by
  unfold parsePayload at h
  split at h <;> simp only [bind_eq_ok, exists_unit, refuse_eq_ok, okOr_eq_ok, pure_eq_ok,
    throw_ne_ok, Prod.exists, part] at h
  case h_1 | h_2 | h_5 | h_7 | h_11 =>
    -- one field
    rw [← h]
    rfl
  case h_3 | h_4 | h_14 | h_16 =>
    -- two fields
    obtain ⟨left, right, hpair, rfl⟩ := h
    exact utf8_of_fieldPair hpair
  case h_6 | h_12 =>
    -- two fields, and a third that may be missing
    obtain ⟨first, hfirst, second, hsecond, -, rfl⟩ := h
    exact (utf8_of_three hfit hfirst hsecond).1
  case h_8 =>
    obtain ⟨aliasName, path, hpair, -, rfl⟩ := h
    rw [utf8_of_fieldPair hpair, payloadBytes, utf8_append, utf8_append]
    rfl
  case h_9 =>
    obtain ⟨path, text, hcut, -, rfl⟩ := h
    exact utf8_of_splitOnce hcut
  case h_10 =>
    obtain ⟨aliasName, hfirst, path, hsecond, text, hthird, -, rfl⟩ := h
    rw [(utf8_of_three hfit hfirst hsecond).1, hthird, payloadBytes, utf8_append, utf8_append]
    simp only [lastField, List.append_assoc]
    rfl
  case h_13 =>
    -- an empty payload is not written
    obtain ⟨app, hfirst, name, hsecond, -, rfl⟩ := h
    obtain ⟨hpayload, hne⟩ := utf8_of_three hfit hfirst hsecond
    rw [hpayload, payloadBytes]
    rcases hthird : (splitN 3 '\t' payload)[2]? with _ | third
    · rfl
    · rw [hthird] at hne
      have hsome : utf8 third ≠ [] := utf8_ne_nil fun heq => hne (congrArg some heq)
      rw [Option.getD_some, if_neg hsome]
      rfl
  case h_15 =>
    obtain ⟨peer, hfirst, program, hsecond, -, -, rfl⟩ := h
    rcases utf8_of_four hfit hfirst hsecond with ⟨hthird, hfourth, hpayload⟩ |
      ⟨third, hthird, hne, hfourth, hpayload⟩ | ⟨third, fourth, hthird, hfourth, hne, hpayload⟩
    · rw [hpayload, payloadBytes, hthird, hfourth]
      exact (List.append_nil _).symm
    · simp only [hpayload, payloadBytes, hthird, hfourth, Option.getD_some, Option.getD_none,
        if_neg hne]
      rfl
    · obtain ⟨hargs, hjoin⟩ := utf8_of_args fourth
      have hdir : (if third = "" then none else some third).getD "" = third := by
        split
        · next heq => exact heq.symm
        · rfl
      simp only [hpayload, payloadBytes, hthird, hfourth, Option.getD_some, if_neg hne,
        if_neg hargs, hjoin, hdir]
  case h_17 =>
    obtain ⟨peer, hfirst, path, hsecond, text, hthird, -, rfl⟩ := h
    rw [(utf8_of_three hfit hfirst hsecond).1, hthird, payloadBytes]
    simp only [lastField, List.append_assoc]

/-! ## Two spellings of one plan -/

/-- A line and the action it became. -/
def LineReads (line : String) (entry : ActionNode × TypedAction) : Prop :=
  ∃ expectedId id payload,
    LineParts line expectedId (entry.1, entry.2, line) id entry.1.capability.val payload

/-- **The loop files each action under its own id.** -/
theorem parseActionLines_entries : ∀ {lines : List String} {expectedId : UInt32}
    {plan plan' : ParsedActionPlan} {rest : List String},
    parseActionLines lines expectedId plan = .ok (plan', rest) →
      ∃ acts entries, lines = acts ++ "END" :: rest ∧ (∀ line ∈ acts, line ≠ "END") ∧
        List.Forall₂ LineReads acts entries ∧
        plan'.graph.actions = plan.graph.actions ++ entries.map Prod.fst ∧
        (∀ entry ∈ entries, plan'.payloads[entry.1.id]? = some entry.2) ∧
        ∀ id < expectedId, plan'.payloads[id]? = plan.payloads[id]?
  | [], _, _, _, _, h => (throw_ne_ok.1 h).elim
  | line :: lines, expectedId, plan, plan', rest, h => by
      rw [parseActionLines] at h
      split at h
      · next hend =>
        obtain ⟨rfl, rfl⟩ := Prod.mk.inj (pure_eq_ok.1 h)
        exact ⟨[], [], by rw [hend]; rfl, by simp, .nil, (List.append_nil _).symm, by simp,
          fun _ _ => rfl⟩
      · next hend =>
        simp only [bind_eq_ok, exists_unit, refuse_eq_ok] at h
        obtain ⟨-, ⟨node, action, canonicalLine⟩, hline, hnext, hrest⟩ := h
        obtain ⟨acts, entries, rfl, hacts, hreads, hgraph, hfiled, hkept⟩ :=
          parseActionLines_entries hrest
        obtain ⟨id, capability, payload, hparts⟩ := parseActionLine_eq_ok hline
        obtain rfl : canonicalLine = line := hparts.canonical
        obtain rfl : node.id = expectedId := hparts.node_id
        have hcapability : node.capability.val = capability :=
          congrArg CapabilityId.val hparts.node_capability
        have hlt : node.id < node.id + 1 := by
          rw [UInt32.lt_iff_toNat_lt, UInt32.toNat_add, UInt32.toNat_one]
          omega
        refine ⟨canonicalLine :: acts, (node, action) :: entries, rfl,
          List.forall_mem_cons.2 ⟨hend, hacts⟩, .cons ⟨_, id, payload, hcapability ▸ hparts⟩ hreads,
          ?_, List.forall_mem_cons.2 ⟨?_, hfiled⟩, fun k hk => ?_⟩
        · rw [hgraph, List.map_cons]
          exact (List.append_cons ..).symm
        · rw [hkept node.id hlt, Std.ExtTreeMap.getElem?_insert_self]
        · have hcmp : ¬ compare node.id k = .eq := by
            rw [Std.compare_eq_iff_eq]
            rintro rfl
            exact absurd hk (UInt32.lt_irrefl _)
          rw [hkept k (UInt32.lt_trans hk hlt), Std.ExtTreeMap.getElem?_insert, if_neg hcmp]

theorem takeWhile_end {acts rest : List String} (h : ∀ line ∈ acts, line ≠ "END") :
    (acts ++ "END" :: rest).takeWhile (fun line => decide (line ≠ "END")) = acts := by
  rw [List.takeWhile_append_of_pos fun line hline => decide_eq_true (h line hline),
    List.takeWhile_cons_of_neg (by simp), List.append_nil]

/-- The id on a line, as it is spelt. -/
def idField (line : String) : Option String := (splitN 3 '|' line)[0]?

/-- **The ids of a plan's actions**, as the text spells them. -/
def idFields (text : String) : List (Option String) :=
  ((lines (trim text)).tail.takeWhile fun line => decide (line ≠ "END")).map idField

/-- Lines of one action that spell its id alike are one line. -/
theorem line_unique {line line' : String} {entry : ActionNode × TypedAction}
    (h : LineReads line entry) (h' : LineReads line' entry) (hid : idField line = idField line') :
    line = line' := by
  obtain ⟨_, id, payload, hparts⟩ := h
  obtain ⟨_, id', payload', hparts'⟩ := h'
  have hpayload : payload = payload' := by
    refine utf8_injective ?_
    rw [utf8_of_parsePayload hparts.typed hparts.fit, utf8_of_parsePayload hparts'.typed hparts'.fit]
  rw [idField, idField, hparts.id_eq, hparts'.id_eq] at hid
  rw [hparts.line_eq, hparts'.line_eq, hpayload, Option.some.inj hid]

theorem lines_unique : ∀ {acts acts' : List String} {entries : List (ActionNode × TypedAction)},
    List.Forall₂ LineReads acts entries → List.Forall₂ LineReads acts' entries →
      acts.map idField = acts'.map idField → acts = acts'
  | [], [], _, _, _, _ => rfl
  | line :: acts, line' :: acts', _, .cons h hrest, .cons h' hrest', heq => by
      obtain ⟨hid, htail⟩ := List.cons.inj heq
      rw [line_unique h h' hid, lines_unique hrest hrest' htail]

theorem idFields_eq {text : String} {acts rest : List String}
    (h : lines (trim text) = nativeActionProtocolV1 :: (acts ++ "END" :: rest))
    (hacts : ∀ line ∈ acts, line ≠ "END") : idFields text = acts.map idField := by
  rw [idFields, h, List.tail_cons, takeWhile_end hacts]

/-- **The stored text is one for every spelling of a plan exactly if the ids are spelt alike.** -/
theorem canonicalText_eq_iff {text text' : String} {p q : ParsedActionPlan}
    (hp : parseNativeActionPlan text = .ok (.actions p))
    (hq : parseNativeActionPlan text' = .ok (.actions q)) (hgraph : p.graph = q.graph)
    (hpayloads : p.payloads = q.payloads) :
    p.canonicalText = q.canonicalText ↔ idFields text = idFields text' := by
  obtain ⟨acts, rest, p', hlines, hacts, hagain, -, rfl, hcanonical⟩ :=
    parseNativeActionPlan_eq_ok hp
  obtain ⟨acts', rest', q', hlines', hacts', hagain', -, rfl, hcanonical'⟩ :=
    parseNativeActionPlan_eq_ok hq
  have hends : ∀ {l l' : List String} {r r' : List String}, (∀ line ∈ l, line ≠ "END") →
      (∀ line ∈ l', line ≠ "END") → l ++ "END" :: r = l' ++ "END" :: r' → l = l' := by
    intro l l' r r' hl hl' heq
    have htake := congrArg (List.takeWhile fun line => decide (line ≠ "END")) heq
    rwa [takeWhile_end hl, takeWhile_end hl'] at htake
  obtain ⟨l, entries, heq, hl, hreads, hactions, hfiled, -⟩ := parseActionLines_entries (hagain [])
  obtain ⟨l', entries', heq', hl', hreads', hactions', hfiled', -⟩ :=
    parseActionLines_entries (hagain' [])
  obtain rfl : acts = l := hends (fun line h => (hacts line h).1) hl heq
  obtain rfl : acts' = l' := hends (fun line h => (hacts' line h).1) hl' heq'
  -- the same nodes, and under each the same action
  have hnodes : entries.map Prod.fst = entries'.map Prod.fst := by
    have hsame : p'.graph.actions = q'.graph.actions := congrArg TaskGraph.actions hgraph
    rw [hactions, hactions'] at hsame
    exact List.append_cancel_left hsame
  have hentries : entries = entries' := by
    refine List.ext_getElem (by simpa using congrArg List.length hnodes) fun i hi hi' => ?_
    have hnode : entries[i].1 = entries'[i].1 := by
      have hget := congrArg (fun l => l[i]?) hnodes
      simpa [List.getElem?_eq_getElem hi, List.getElem?_eq_getElem hi'] using hget
    have haction := hfiled _ (List.getElem_mem hi)
    have haction' := hfiled' _ (List.getElem_mem hi')
    change p'.payloads = q'.payloads at hpayloads
    rw [hnode, hpayloads, haction'] at haction
    exact Prod.ext hnode (Option.some.inj haction).symm
  subst hentries
  rw [hcanonical, hcanonical', idFields_eq hlines hl, idFields_eq hlines' hl']
  constructor
  · intro hsame
    have hread := congrArg lines hsame
    rw [lines_canonical hacts, lines_canonical hacts'] at hread
    rw [List.append_cancel_right (List.cons.inj hread).2]
  · intro hids
    rw [lines_unique hreads hreads' hids]

/-! ## One search, spelt twice -/

namespace SpellingSample

/-- A plan of one search, its id spelt in a way. -/
def search (id : String) : String := "NTD97_ACTIONS_V1\n" ++ id ++ "|web.search|lean\nEND"

/-- The plan of a text. -/
def planOf (text : String) : Option ParsedActionPlan :=
  match parseNativeActionPlan text with
  | .ok (.actions plan) => some plan
  | _ => none

theorem planOf_eq_some {text : String} {plan : ParsedActionPlan} (h : planOf text = some plan) :
    parseNativeActionPlan text = .ok (.actions plan) := by
  rw [planOf] at h
  split at h
  · next heq => rw [heq, Option.some.inj h]
  · exact nomatch h

/-- Both spellings are read, as one action, and stored as they are. -/
theorem planOf_search :
    ((planOf (search "1")).map fun plan => (plan.graph, plan.payloads.toList, plan.canonicalText)) =
        some (⟨[⟨1, ⟨"web.search"⟩, .readOnly, true⟩]⟩, [(1, .webSearch "lean" 5)], search "1") ∧
      ((planOf (search "01")).map fun plan =>
        (plan.graph, plan.payloads.toList, plan.canonicalText)) =
        some (⟨[⟨1, ⟨"web.search"⟩, .readOnly, true⟩]⟩, [(1, .webSearch "lean" 5)],
          search "01") := by
  decide +kernel

theorem exists_plans : ∃ p q : ParsedActionPlan,
    parseNativeActionPlan (search "1") = .ok (.actions p) ∧
    parseNativeActionPlan (search "01") = .ok (.actions q) ∧ p.graph = q.graph ∧
    p.payloads = q.payloads ∧ p.canonicalText ≠ q.canonicalText := by
  obtain ⟨p, hp, heq⟩ := Option.map_eq_some_iff.1 planOf_search.1
  obtain ⟨q, hq, heq'⟩ := Option.map_eq_some_iff.1 planOf_search.2
  obtain ⟨hgraph, hrest⟩ := Prod.mk.inj heq
  obtain ⟨hgraph', hrest'⟩ := Prod.mk.inj heq'
  obtain ⟨hpayloads, htext⟩ := Prod.mk.inj hrest
  obtain ⟨hpayloads', htext'⟩ := Prod.mk.inj hrest'
  refine ⟨p, q, planOf_eq_some hp, planOf_eq_some hq, hgraph.trans hgraph'.symm,
    Std.ExtTreeMap.ext_toList (by rw [hpayloads, hpayloads']), ?_⟩
  rw [htext, htext']
  decide

end SpellingSample

open SpellingSample

theorem parse_canonicalText_search : ∃ plan,
    parseNativeActionPlan (search "01") = .ok (.actions plan) ∧
      parseNativeActionPlan plan.canonicalText = .ok (.actions plan) := by
  obtain ⟨-, plan, -, hplan, -⟩ := exists_plans
  exact ⟨plan, hplan, parse_canonicalText (search "01") plan hplan⟩

theorem canonicalText_eq_iff_search : ∃ p q : ParsedActionPlan,
    parseNativeActionPlan (search "1") = .ok (.actions p) ∧
    parseNativeActionPlan (search "01") = .ok (.actions q) ∧ p.graph = q.graph ∧
    p.payloads = q.payloads ∧
    (p.canonicalText = q.canonicalText ↔ idFields (search "1") = idFields (search "01")) := by
  obtain ⟨p, q, hp, hq, hgraph, hpayloads, -⟩ := exists_plans
  exact ⟨p, q, hp, hq, hgraph, hpayloads, canonicalText_eq_iff hp hq hgraph hpayloads⟩

/-- One plan has two stored texts. -/
theorem canonicalText_twice : ¬ ∀ (text text' : String) (p q : ParsedActionPlan),
    parseNativeActionPlan text = .ok (.actions p) →
    parseNativeActionPlan text' = .ok (.actions q) → p.graph = q.graph →
    p.payloads = q.payloads → p.canonicalText = q.canonicalText := by
  intro h
  obtain ⟨p, q, hp, hq, hgraph, hpayloads, hne⟩ := exists_plans
  exact hne (h _ _ p q hp hq hgraph hpayloads)

end NTD97
