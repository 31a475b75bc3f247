import Mathlib
import NTD97.Activation
import NTD97.AssistantActions.Canonical
import NTD97.Chat
import NTD97.Generation.Loops
import NTD97.Lib.Growing
import NTD97.Spm.Stream

/-!
# Chat/Planner — a plan that is read while it is written

    token ▸ token ▸ … ▸ text so far ▸ trim ▸ DIRECT │ … END │ a beginning │ anything else

The planner listens to its model and stops at the first text that decides.  A text that is a plan in
the end begins with nothing else: no beginning of it is refused, and the only one with an `END` line
is the plan itself (`earlyDecision_of_prefix`).
-/

namespace NTD97

open Guard Slices Text Wire

/-! ## The planner -/

/-- A loaded model with the graph that runs and the tensors it needs. -/
structure RunnableChatModel extends NativeChatModel where
  activation : ThinGenerativeActivation
  resolver : TensorResolver

def actionPlannerMaxNewTokens : ℕ := 20

def actionPlanningPrompt (userMessage : String) : String :=
  "Choose local action. Reply exactly DIRECT or NTD97_ACTIONS_V1\n1|device.observe|surface\nEND. " ++
    "User: " ++ userMessage ++ "\nPlan:"

/-- The words of a failed planner, and the error they introduce. -/
inductive ActionPlannerError where
  | tokenizer (what : String) (error : TokenizerError)
  | generation (what : String) (error : GenerationError)
  deriving DecidableEq

/-- The outcome of a text that was read to its end. -/
def outcomeOf : Except AssistantPlanError AssistantPlanDecision → NativeActionPlanningOutcome
  | .ok .direct => .direct
  | .ok (.actions plan) => .actions plan
  | .error _ => .invalid

/-- What a trimmed text decides before its end; most texts are still to be continued. -/
def decideEarly (candidate : String) : Option NativeActionPlanningOutcome :=
  if candidate = nativeActionDirect then some .direct
  else if nativeActionProtocolV1.toList <+: candidate.toList ∧ "END" ∈ lines candidate then
    some (match parseNativeActionPlan candidate with
      | .ok (.actions plan) => .actions plan
      | _ => .invalid)
  else if candidate = "" ∨ candidate.toList <+: nativeActionDirect.toList ∨
      candidate.toList <+: nativeActionProtocolV1.toList ∨
      nativeActionProtocolV1.toList <+: candidate.toList then none
  else some .invalid

/-- What the listener leaves behind. -/
structure PlannerNotes where
  earlyDecision : Option NativeActionPlanningOutcome := none
  decodeFailed : Bool := false

namespace RunnableChatModel

variable (ops : F32Ops) (self : RunnableChatModel)

/-- The listener of the planner. -/
def onPlannerToken (previousToken : Option UInt32) : GraphGenerator.OnToken PlannerNotes :=
  fun notes _ generatedTokens =>
    match self.tokenizer.decodeAfter previousToken generatedTokens true with
    | .error _ => (.cancel, { notes with decodeFailed := true })
    | .ok decoded =>
      match decideEarly (trim decoded) with
      | some decision => (.cancel, { notes with earlyDecision := some decision })
      | none => (.continue, notes)

/-- The notes after tokens, each of which was heard behind those before it. -/
def plannerNotes (previousToken : Option UInt32) :
    PlannerNotes → List UInt32 → List UInt32 → PlannerNotes
  | notes, _, [] => notes
  | notes, before, token :: tokens =>
    plannerNotes previousToken (self.onPlannerToken previousToken notes token (before ++ [token])).2
      (before ++ [token]) tokens

def plannerGenerator : Except ActionPlannerError GraphGenerator :=
  (GraphGenerator.new self.activation.graph (cpuReferenceProvider ops) ∅
    self.activation.manifest.tokenInput self.activation.manifest.distributionOutput.toNat
    self.activation.manifest.vocabularySize.toNat).mapError
    (.generation "build native action planner generator")

/-- The configuration behind a prompt of so many tokens. -/
def plannerConfig (promptLength : ℕ) : GenerationConfig where
  maxNewTokens := min actionPlannerMaxNewTokens (self.contextLimit - promptLength)
  contextLimit := self.contextLimit
  eosToken := self.tokenizer.eosToken
  distribution := .logits
  sampling := .greedy

def runNativeActionPlanner (userMessage : String) :
    Code ActionPlannerError NativeActionPlanningOutcome := do
  let promptTokens ← liftM ((self.tokenizer.encode (actionPlanningPrompt userMessage) true).mapError
    (ActionPlannerError.tokenizer "encode native action planner prompt"))
  if promptTokens = [] ∨ self.contextLimit ≤ promptTokens.length then return .invalid
  let config := self.plannerConfig promptTokens.length
  if config.maxNewTokens = 0 then return .invalid
  let generator ← liftM (self.plannerGenerator ops)
  let previousToken := promptTokens.getLast?
  let generated ← ExceptT.adapt (ActionPlannerError.generation "native action planner generation")
    (generator.generateTokensWithResolverStreaming ops self.resolver promptTokens config
      (self.onPlannerToken previousToken) {})
  let generatedTokens := generated.generation.generatedTokens
  let notes := self.plannerNotes previousToken {} [] generatedTokens
  if notes.decodeFailed then return .invalid
  match notes.earlyDecision with
  | some decision => return decision
  | none =>
    let decoded ← liftM ((self.tokenizer.decodeAfter previousToken generatedTokens true).mapError
      (ActionPlannerError.tokenizer "decode native action planner output"))
    return outcomeOf (parseNativeActionPlan decoded)

end RunnableChatModel

/-! ## Accepted texts -/

theorem head_of_parseNat {s : String} {n : ℕ} (h : parseNat s = some n) :
    ∃ c ∈ s.toList.head?, c = '+' ∨ c.isDigit = true := by
  unfold parseNat at h
  split at h
  · next rest heq =>
    exact ⟨'+', by rw [heq]; rfl, .inl rfl⟩
  · dsimp only at h
    split at h
    · next hdigits =>
      obtain ⟨c, rest, heq⟩ := List.exists_cons_of_ne_nil hdigits.1
      refine ⟨c, by rw [heq]; rfl, .inr ?_⟩
      exact List.all_eq_true.1 hdigits.2 c (heq ▸ List.mem_cons_self)
    · cases h

/-- **An action line does not begin like the last line.** -/
theorem not_end_isPrefix {line : String} {expectedId : UInt32}
    {r : ActionNode × TypedAction × String} (h : parseActionLine line expectedId = .ok r) :
    ¬ "END".toList <+: line.toList := by
  have hnumber := h
  simp only [parseActionLine, bind_eq_ok, exists_unit, refuse_eq_ok, okOr_eq_ok, mapError_eq_ok,
    pure_eq_ok] at hnumber
  obtain ⟨id, hid, n, hn, -⟩ := hnumber
  obtain ⟨id', capability, payload, hparts⟩ := parseActionLine_eq_ok h
  obtain rfl := Option.some.inj (hid.symm.trans hparts.id_eq)
  obtain ⟨c, hc, hdigit⟩ := head_of_parseNat hn
  have hhead : line.toList.head? = some c := by
    rw [hparts.line_eq]
    simp only [String.toList_append, List.append_assoc, List.head?_append]
    rw [Option.mem_def.1 hc]
    rfl
  rintro ⟨rest, hrest⟩
  have hE : line.toList.head? = some 'E' := by
    rw [← hrest]
    rfl
  obtain rfl := Option.some.inj (hhead.symm.trans hE)
  exact absurd hdigit (by decide)

/-- The lines that the loop reads are action lines, up to `END`. -/
theorem actionLines_of_ok : ∀ {ls : List String} {expectedId : UInt32}
    {plan plan' : ParsedActionPlan} {rest : List String},
    parseActionLines ls expectedId plan = .ok (plan', rest) →
      ∃ acts, ls = acts ++ "END" :: rest ∧ ∀ line ∈ acts, ¬ "END".toList <+: line.toList
  | [], _, _, _, _, h => (throw_ne_ok.1 h).elim
  | line :: ls, expectedId, plan, plan', rest, h => by
      rw [parseActionLines] at h
      split at h
      · next hend =>
        obtain ⟨-, rfl⟩ := Prod.mk.inj (pure_eq_ok.1 h)
        exact ⟨[], by rw [hend]; rfl, by simp⟩
      · simp only [bind_eq_ok, exists_unit, refuse_eq_ok] at h
        obtain ⟨-, r, hline, -, hrest⟩ := h
        obtain ⟨acts, rfl, hacts⟩ := actionLines_of_ok hrest
        exact ⟨line :: acts, rfl, List.forall_mem_cons.2 ⟨not_end_isPrefix hline, hacts⟩⟩

/-- **An accepted text**, trimmed: the one word, or lines of which only the last one begins like
`END`. -/
theorem shape_of_accepted {text : String} {decision : AssistantPlanDecision}
    (h : parseNativeActionPlan text = .ok decision) :
    (trim text = nativeActionDirect ∧ decision = .direct) ∨
      ∃ acts plan, decision = .actions plan ∧
        lines (trim text) = (nativeActionProtocolV1 :: acts) ++ ["END"] ∧
        ∀ line ∈ nativeActionProtocolV1 :: acts, ¬ "END".toList <+: line.toList := by
  simp only [parseNativeActionPlan, bind_eq_ok, exists_unit, refuse_eq_ok] at h
  obtain ⟨hne, h⟩ := h
  split at h
  · next hdirect => exact .inl ⟨hdirect, (pure_eq_ok.1 h).symm⟩
  right
  simp only [bind_eq_ok, exists_unit, refuse_eq_ok, not_not, Prod.exists] at h
  obtain ⟨hheader, plan', rest, hlines, hrest, -, hplan⟩ := h
  obtain ⟨acts, htail, hacts⟩ := actionLines_of_ok hlines
  have hall : lines (trim text) = nativeActionProtocolV1 :: (acts ++ "END" :: rest) := by
    obtain ⟨ls, hls⟩ := List.head?_eq_some_iff.1 hheader
    rw [hls] at htail ⊢
    rw [← htail, List.tail_cons]
  have hnil : rest = [] := by
    by_contra hrest'
    obtain ⟨before, last, hlast, hkept⟩ := last_line_of_trimmed (trim_trim text).symm hne
    have hmem : last ∈ rest := by
      have hend : (lines (trim text)).getLast? = some last := by
        rw [hlast, List.getLast?_concat]
      rw [hall, ← List.cons_append, List.getLast?_append_of_ne_nil _ (List.cons_ne_nil _ _),
        List.getLast?_cons, List.getLast?_eq_some_getLast hrest'] at hend
      rw [← Option.some.inj hend]
      exact List.getLast_mem hrest'
    refine hrest (List.any_eq_true.2 ⟨last, hmem, ?_⟩)
    rw [hkept]
    rfl
  refine ⟨acts, _, (pure_eq_ok.1 hplan).symm, ?_, List.forall_mem_cons.2 ⟨by decide, hacts⟩⟩
  rw [hall, hnil]
  rfl

theorem not_accepted_empty {decision : AssistantPlanDecision} :
    ¬ parseNativeActionPlan "" = .ok decision := by
  intro h
  rcases shape_of_accepted h with ⟨hdirect, -⟩ | ⟨acts, plan, -, hlines, -⟩
  · exact absurd hdirect (by decide)
  · have hnone : lines (trim "") = [] := by decide
    rw [hnone] at hlines
    cases hlines

/-! ## Early decisions -/

/-- **The whole text decides as it is parsed.** -/
theorem decideEarly_of_accepted {text : String} {decision : AssistantPlanDecision}
    (h : parseNativeActionPlan text = .ok decision) :
    decideEarly (trim text) = some (outcomeOf (.ok decision)) := by
  have hparse : parseNativeActionPlan (trim text) = .ok decision := by
    rw [← h]
    unfold parseNativeActionPlan
    rw [trim_trim]
  rcases shape_of_accepted h with ⟨hdirect, rfl⟩ | ⟨acts, plan, rfl, hlines, -⟩
  · rw [decideEarly, if_pos hdirect]
    rfl
  · have hheader := first_line_prefix hlines
    have hend : "END" ∈ lines (trim text) := by
      rw [hlines]
      exact List.mem_append_right _ (List.mem_singleton_self _)
    have hdirect : ¬ trim text = nativeActionDirect := by
      intro hdirect
      rw [hdirect] at hheader
      exact absurd hheader (by decide)
    rw [decideEarly, if_neg hdirect, if_pos ⟨hheader, hend⟩, hparse]
    rfl

/-- **No beginning of an accepted text is refused**, and none decides anything else. -/
theorem decideEarly_of_prefix {text part : String} {decision : AssistantPlanDecision}
    (h : parseNativeActionPlan text = .ok decision) (hpart : part.toList <+: text.toList) :
    decideEarly (trim part) = none ∨
      decideEarly (trim part) = some (outcomeOf (.ok decision)) := by
  have hbegin := trim_prefix_trim hpart
  by_cases hsame : trim part = trim text
  · rw [hsame]
    exact .inr (decideEarly_of_accepted h)
  left
  rcases shape_of_accepted h with ⟨hdirect, rfl⟩ | ⟨acts, plan, rfl, hlines, hacts⟩
  · rw [hdirect] at hbegin hsame
    have hheader : ¬ nativeActionProtocolV1.toList <+: (trim part).toList := fun hheader =>
      absurd (hheader.trans hbegin) (by decide)
    rw [decideEarly, if_neg hsame, if_neg fun hboth => hheader hboth.1, if_pos (.inr (.inl hbegin))]
  · have hheader := first_line_prefix hlines
    have hdirect : ¬ trim part = nativeActionDirect := by
      intro hdirect
      rw [hdirect] at hbegin
      rcases List.prefix_or_prefix_of_prefix hbegin hheader with hword | hword
      · exact absurd hword (by decide)
      · exact absurd hword (by decide)
    have hend : "END" ∉ lines (trim part) := by
      intro hend
      obtain ⟨line, hline, hgrows, hlast⟩ :=
        mem_lines_of_prefix hbegin hsame (trim_trim part).symm (trim_trim text).symm hend
      rw [hlines, List.dropLast_concat] at hlast
      rw [hlines, List.mem_append, List.mem_singleton] at hline
      rcases hline with hline | rfl
      · exact hacts line hline hgrows
      · exact hacts _ (hlast rfl) hgrows
    rw [decideEarly, if_neg hdirect, if_neg fun hboth => hend hboth.2, if_pos]
    exact (List.prefix_or_prefix_of_prefix hbegin hheader).elim
      (fun hshort => .inr (.inr (.inl hshort))) fun hlong => .inr (.inr (.inr hlong))

/-! ## Tokens -/

namespace LlamaSpmTokenizer

variable {self : LlamaSpmTokenizer}

/-- **More ids, more bytes.** -/
theorem decodeFrom_append : ∀ {ids more : List UInt32} {strip : Bool} {bytes : Bytes},
    self.decodeFrom true strip (ids ++ more) = .ok bytes →
      ∃ first rest, self.decodeFrom true strip ids = .ok first ∧ first ++ rest = bytes
  | [], more, strip, bytes, _ => ⟨[], bytes, rfl, rfl⟩
  | id :: ids, more, strip, bytes, h => by
      obtain ⟨first, rest, hfirst, hrest, rfl⟩ := decodeFrom_cons_eq_ok.1 h
      obtain ⟨second, rest', hsecond, rfl⟩ := decodeFrom_append hrest
      exact ⟨first ++ second, rest', decodeFrom_cons_eq_ok.2 ⟨first, second, hfirst, hsecond, rfl⟩,
        List.append_assoc ..⟩

/-- Texts grow with their ids. -/
theorem decodeAfter_prefix {previous : Option UInt32} {ids ids' : List UInt32}
    {text text' : String} (hids : ids <+: ids')
    (h : self.decodeAfter previous ids true = .ok text)
    (h' : self.decodeAfter previous ids' true = .ok text') : text.toList <+: text'.toList := by
  obtain ⟨more, rfl⟩ := hids
  obtain ⟨first, rest, hfirst, hwhole⟩ := decodeFrom_append (decodeAfter_eq_ok.1 h')
  obtain rfl := Except.ok.inj (hfirst.symm.trans (decodeAfter_eq_ok.1 h))
  exact toList_prefix_of_utf8 ⟨rest, hwhole⟩

end LlamaSpmTokenizer

/-- **A listener to a run that would end by itself** hears a beginning of it. -/
theorem GraphGenerator.exists_streaming {σ : Type} {ops : F32Ops} {self : GraphGenerator}
    {resolver : TensorResolver} {promptTokens : List UInt32} {config : GenerationConfig}
    {r : GenerationResult}
    (h : (self.generateTokensWithResolver ops resolver promptTokens config).run = some (.ok r))
    (onToken : OnToken σ) (s : σ) :
    ∃ generated, (self.generateTokensWithResolverStreaming ops resolver promptTokens config onToken
        s).run = some (.ok generated) ∧
      generated.generation.generatedTokens = (heard onToken s [] r.generatedTokens).1 := by
  obtain ⟨hbegun, tokens, hsaid, rfl⟩ := generateTokensWithResolver_eq_ok.1 h
  refine ⟨{ generation := resultOf promptTokens (heard onToken s [] tokens).1
            finishReason := finish config.eosToken (heard onToken s [] tokens).2
              (heard onToken s [] tokens).1 }, streaming_eq_ok.2 ⟨hbegun, ?_⟩, rfl⟩
  rw [hsaid]
  rcases heard onToken s [] tokens with ⟨tokens', cancelled⟩
  cases cancelled <;> rfl

namespace RunnableChatModel

variable {ops : F32Ops} {self : RunnableChatModel} {previousToken : Option UInt32}

/-- **What the listener says to a beginning**: it goes on, or it notes the decision of the whole.
The whole itself is decided. -/
theorem onPlannerToken_of_prefix {tokens ids : List UInt32} {text part : String}
    {decision : AssistantPlanDecision} (notes : PlannerNotes) (token : UInt32)
    (hwhole : self.tokenizer.decodeAfter previousToken tokens true = .ok text)
    (hparse : parseNativeActionPlan text = .ok decision) (hids : ids <+: tokens)
    (hpart : self.tokenizer.decodeAfter previousToken ids true = .ok part) :
    (self.onPlannerToken previousToken notes token ids = (.continue, notes) ∧ ids ≠ tokens) ∨
      self.onPlannerToken previousToken notes token ids =
        (.cancel, { notes with earlyDecision := some (outcomeOf (.ok decision)) }) := by
  have hbegin := LlamaSpmTokenizer.decodeAfter_prefix hids hpart hwhole
  rcases decideEarly_of_prefix hparse hbegin with hnone | hsome
  · refine .inl ⟨by rw [onPlannerToken, hpart]; simp only [hnone], ?_⟩
    rintro rfl
    obtain rfl := Except.ok.inj (hpart.symm.trans hwhole)
    rw [decideEarly_of_accepted hparse] at hnone
    cases hnone
  · right
    rw [onPlannerToken, hpart]
    simp only [hsome]

/-- **The notes after what was heard** hold the decision of the whole: the listener has gone on up to
some beginning, and has stopped there. -/
theorem plannerNotes_heard {tokens : List UInt32} {text : String} {decision : AssistantPlanDecision}
    (hwhole : self.tokenizer.decodeAfter previousToken tokens true = .ok text)
    (hparse : parseNativeActionPlan text = .ok decision)
    (hparts : ∀ ids, ids <+: tokens →
      ∃ part, self.tokenizer.decodeAfter previousToken ids true = .ok part) :
    ∀ {before rest : List UInt32} (notes : PlannerNotes), before ++ rest = tokens → rest ≠ [] →
      self.plannerNotes previousToken notes before
          (GraphGenerator.heard (self.onPlannerToken previousToken) notes before rest).1 =
        { notes with earlyDecision := some (outcomeOf (.ok decision)) }
  | before, [], notes, _, hrest => absurd rfl hrest
  | before, token :: rest, notes, htokens, _ => by
      have hids : before ++ [token] <+: tokens := ⟨rest, by rw [← htokens]; simp⟩
      obtain ⟨part, hpart⟩ := hparts _ hids
      rcases onPlannerToken_of_prefix notes token hwhole hparse hids hpart with
        ⟨hgoes, hne⟩ | hstops
      · have hmore : rest ≠ [] := by
          rintro rfl
          exact hne htokens
        rw [GraphGenerator.heard_cons hgoes, if_neg (by decide), plannerNotes, hgoes]
        exact plannerNotes_heard hwhole hparse hparts notes (by rw [← htokens]; simp) hmore
      · rw [GraphGenerator.heard_cons hstops, if_pos rfl, plannerNotes, hstops, plannerNotes]

/-- **The streaming planner agrees with the parser**: if all that its model would write is a text
that is parsed, and every beginning of it is a text, then the planner decides what is parsed. -/
theorem runNativeActionPlanner_of_parse {userMessage text : String} {promptTokens : List UInt32}
    {generator : GraphGenerator} {r : GenerationResult} {decision : AssistantPlanDecision}
    (hprompt : self.tokenizer.encode (actionPlanningPrompt userMessage) true = .ok promptTokens)
    (hroom : promptTokens ≠ [] ∧ promptTokens.length < self.contextLimit)
    (hgenerator : self.plannerGenerator ops = .ok generator)
    (hwrites : (generator.generateTokensWithResolver ops self.resolver promptTokens
      (self.plannerConfig promptTokens.length)).run = some (.ok r))
    (hparts : ∀ ids, ids <+: r.generatedTokens →
      ∃ part, self.tokenizer.decodeAfter promptTokens.getLast? ids true = .ok part)
    (hwhole : self.tokenizer.decodeAfter promptTokens.getLast? r.generatedTokens true = .ok text)
    (hparse : parseNativeActionPlan text = .ok decision) :
    (self.runNativeActionPlanner ops userMessage).run = some (.ok (outcomeOf (.ok decision))) := by
  have htokens : r.generatedTokens ≠ [] := by
    intro hnil
    rw [hnil] at hwhole
    have hbytes : [] = utf8 text := Except.ok.inj (LlamaSpmTokenizer.decodeAfter_eq_ok.1 hwhole)
    have hempty : ofUtf8 (utf8 text) = some "" := by
      rw [← hbytes]
      decide +kernel
    rw [ofUtf8_utf8] at hempty
    obtain rfl := Option.some.inj hempty
    exact not_accepted_empty hparse
  have hstart : [] ++ r.generatedTokens = r.generatedTokens := rfl
  have hnotes := plannerNotes_heard hwhole hparse hparts {} hstart htokens
  obtain ⟨generated, hstream, hheard⟩ := GraphGenerator.exists_streaming hwrites
    (self.onPlannerToken promptTokens.getLast?) {}
  have hfits : ¬ (promptTokens = [] ∨ self.contextLimit ≤ promptTokens.length) :=
    not_or.2 ⟨hroom.1, Nat.not_le.2 hroom.2⟩
  have hbudget : ¬ (self.plannerConfig promptTokens.length).maxNewTokens = 0 := by
    have hleft : 0 < self.contextLimit - promptTokens.length := Nat.sub_pos_of_lt hroom.2
    exact (Nat.lt_min.2 ⟨by decide, hleft⟩).ne'
  rw [runNativeActionPlanner, hprompt]
  refine run_bind_eq_ok.2 ⟨promptTokens, rfl, ?_⟩
  rw [if_neg hfits]
  dsimp only
  rw [if_neg hbudget, hgenerator]
  refine run_bind_eq_ok.2 ⟨generator, rfl, ?_⟩
  refine run_bind_eq_ok.2 ⟨generated, run_adapt_eq_ok.2 hstream, ?_⟩
  rw [hheard, hnotes]
  rfl

end RunnableChatModel

namespace PlannerSample

def config : LlamaSpmConfig where
  bosToken := none
  eosToken := none
  unknownToken := none
  addSpacePrefix := false
  addBosToken := false
  addEosToken := false

/-- The lines of a plan. -/
def planLines : List String := [nativeActionProtocolV1 ++ "\n", "1|device.observe|surface\n", "END"]

def characters : List Char :=
  (actionPlanningPrompt "").toList.eraseDups.map fun c => if c = ' ' then '▁' else c

def vocabulary : List (List UInt8) :=
  planLines.map utf8 ++ characters.map fun c => utf8 c.toString

/-- A line of the plan stands before the next one, and anything else before the first. -/
def table : Except TensorError Tensor :=
  Tensor.new [vocabulary.length, vocabulary.length] <|
    (List.range vocabulary.length).flatMap fun i => (List.range vocabulary.length).map fun j =>
      if j = (if i < 2 then i + 1 else 0) then F32.one else F32.zero

/-- A graph that looks up the last token in the table. -/
def model : RunnableChatModel where
  assetId := "model"
  version := 1
  tokenizer := (LlamaSpmTokenizer.new vocabulary (vocabulary.map fun _ => 0)
    (vocabulary.map fun _ => tokenTypeNormal) config).toOption.getD
    ⟨[], [], [], none, none, none, false, false, false, ∅, []⟩
  contextLimit := 107
  activation := {
    graph := {
      version := .current
      inputs := [⟨⟨0⟩, .tensor .f32 1⟩, ⟨⟨1⟩, .tensor .f32 2⟩]
      outputs := [⟨2⟩]
      nodes := [⟨⟨0⟩, .tensor .gather, [⟨1⟩, ⟨0⟩], [⟨⟨2⟩, .tensor .f32 2⟩]⟩] }
    tokenizer := ⟨[], none, none, none, .vocabulary⟩
    manifest := ⟨⟨0⟩, 0, UInt32.ofNat vocabulary.length⟩
    tensorShards := ∅ }
  resolver := fun id => .ok (if id = ⟨1⟩ then table.toOption else none)

def promptTokens : List UInt32 :=
  (model.tokenizer.encode (actionPlanningPrompt "") true).toOption.getD []

theorem vocabularySize_ne : model.activation.manifest.vocabularySize.toNat ≠ 0 := by decide +kernel

def generator : GraphGenerator where
  graph := model.activation.graph
  executor := cpuReferenceProvider .words
  staticInputs := ∅
  tokenInput := ⟨0⟩
  distributionOutput := 0
  vocabSize := model.activation.manifest.vocabularySize.toNat
  vocab_ne := vocabularySize_ne

theorem plannerGenerator_eq : model.plannerGenerator .words = .ok generator := by
  rw [RunnableChatModel.plannerGenerator, GraphGenerator.new, dif_neg vocabularySize_ne]
  rfl

/-- The plan, line by line. -/
def written : GenerationResult where
  promptTokens := promptTokens
  generatedTokens := [0, 1, 2]
  allTokens := promptTokens ++ [0, 1, 2]

def isActions : Except AssistantPlanError AssistantPlanDecision → Bool
  | .ok (.actions _) => true
  | _ => false

theorem planner_facts :
    ((model.tokenizer.encode (actionPlanningPrompt "") true).toOption.isSome ∧
      promptTokens ≠ [] ∧ promptTokens.length < model.contextLimit) ∧
    (generator.generateTokensWithResolver .words model.resolver promptTokens
      (model.plannerConfig promptTokens.length)).run = some (.ok written) ∧
    (∀ ids ∈ written.generatedTokens.inits,
      (model.tokenizer.decodeAfter promptTokens.getLast? ids true).toOption.isSome) ∧
    model.tokenizer.decodeAfter promptTokens.getLast? written.generatedTokens true =
      .ok (String.join planLines) ∧
    isActions (parseNativeActionPlan (String.join planLines)) = true := by
  decide +kernel

theorem runNativeActionPlanner_of_parse_lines : ∃ plan,
    parseNativeActionPlan (String.join planLines) = .ok (.actions plan) ∧
      (model.runNativeActionPlanner .words "").run = some (.ok (.actions plan)) := by
  obtain ⟨⟨hprompt, hroom⟩, hwrites, hparts, hwhole, hactions⟩ := planner_facts
  obtain ⟨plan, hparse⟩ :
      ∃ plan, parseNativeActionPlan (String.join planLines) = .ok (.actions plan) := by
    rcases hparsed : parseNativeActionPlan (String.join planLines) with e | (_ | plan)
    · rw [hparsed] at hactions
      cases hactions
    · rw [hparsed] at hactions
      cases hactions
    · exact ⟨plan, rfl⟩
  refine ⟨plan, hparse, RunnableChatModel.runNativeActionPlanner_of_parse
    (eq_ok_getD hprompt []) hroom plannerGenerator_eq hwrites (fun ids hids => ?_) hwhole hparse⟩
  exact ⟨_, eq_ok_getD (hparts ids ((List.mem_inits ..).2 hids)) ""⟩

end PlannerSample

end NTD97
