import Mathlib
import NTD97.Generation

/-!
# Generation/Loops — the three loops say the same

    spoken = t₁ t₂ … tₙ (│ an error)          heard = t₁ … tₖ, up to the first cancel

`spoken` is what a generator says when nobody cancels, with the error that may stop it; every loop
is read off it.  A listener cuts it after the first token at which it cancels, so what comes later,
be it an error, never happens.  All of them begin alike: they check the prompt, and panic if there is
no room for the budget.
-/

namespace NTD97

open Guard Slices

namespace GraphGenerator

variable {next : ℕ → List UInt32 → Except GenerationError UInt32} {eos : Option UInt32} {σ : Type}

/-! ## What is said and what is heard -/

/-- The tokens of at most `remaining` steps, and the error that stopped them. -/
def spoken (next : ℕ → List UInt32 → Except GenerationError UInt32) (eos : Option UInt32) :
    ℕ → ℕ → List UInt32 → List UInt32 × Option GenerationError
  | 0, _, _ => ([], none)
  | remaining + 1, step, allTokens =>
    match next step allTokens with
    | .error e => ([], some e)
    | .ok token =>
      if eos = some token then ([token], none)
      else
        let rest := spoken next eos remaining (step + 1) (allTokens ++ [token])
        (token :: rest.1, rest.2)

/-- The tokens up to the first one at which the listener cancels, and whether it did. -/
def heard (onToken : OnToken σ) : σ → List UInt32 → List UInt32 → List UInt32 × Bool
  | _, _, [] => ([], false)
  | s, before, token :: tokens =>
    match onToken s token (before ++ [token]) with
    | (.cancel, _) => ([token], true)
    | (.continue, s) =>
      let rest := heard onToken s (before ++ [token]) tokens
      (token :: rest.1, rest.2)

/-- Why the tokens ended: the end token goes before the listener. -/
def finish (eos : Option UInt32) (cancelled : Bool) (tokens : List UInt32) :
    GenerationFinishReason :=
  if eos.isSome ∧ tokens.getLast? = eos then .eos else if cancelled then .cancelled else .maxTokens

/-- A token is said, and the last one ends the speech. -/
theorem spoken_succ_ok {remaining step : ℕ} {allTokens : List UInt32} {token : UInt32}
    (h : next step allTokens = .ok token) : spoken next eos (remaining + 1) step allTokens =
      if eos = some token then ([token], none)
      else (token :: (spoken next eos remaining (step + 1) (allTokens ++ [token])).1,
        (spoken next eos remaining (step + 1) (allTokens ++ [token])).2) := by
  rw [spoken, h]

/-- A failure ends the speech. -/
theorem spoken_succ_error {remaining step : ℕ} {allTokens : List UInt32} {e : GenerationError}
    (h : next step allTokens = .error e) :
    spoken next eos (remaining + 1) step allTokens = ([], some e) := by
  rw [spoken, h]

/-- No more is said than the budget allows. -/
theorem length_spoken : ∀ (remaining step : ℕ) (allTokens : List UInt32),
    (spoken next eos remaining step allTokens).1.length ≤ remaining
  | 0, _, _ => Nat.le_refl 0
  | remaining + 1, step, allTokens => by
      cases h : next step allTokens with
      | error e =>
        rw [spoken_succ_error h]
        exact Nat.zero_le _
      | ok token =>
        rw [spoken_succ_ok h]
        split
        · exact Nat.le_add_left 1 remaining
        · exact Nat.succ_le_succ (length_spoken remaining (step + 1) (allTokens ++ [token]))

/-- The token occurs at most as the last one. -/
def OnlyLast (token : UInt32) (tokens : List UInt32) : Prop :=
  ∀ i, tokens[i]? = some token → i + 1 = tokens.length

/-- **The end token ends what is said.** -/
theorem onlyLast_spoken {token : UInt32} : ∀ (remaining step : ℕ) (allTokens : List UInt32),
    OnlyLast token (spoken next (some token) remaining step allTokens).1
  | 0, _, _ => fun _ h => nomatch h
  | remaining + 1, step, allTokens => by
      cases h : next step allTokens with
      | error e =>
        rw [spoken_succ_error h]
        exact fun _ h => nomatch h
      | ok first =>
        rw [spoken_succ_ok h]
        split
        · intro i hi
          cases i with
          | zero => rfl
          | succ i => exact nomatch hi
        · next hne =>
          intro i hi
          cases i with
          | zero => exact absurd (Option.some.inj hi).symm (fun heq => hne (congrArg some heq))
          | succ i =>
            exact congrArg (· + 1) (onlyLast_spoken remaining (step + 1) _ i hi)

/-- What is heard is the beginning of what is said. -/
theorem heard_initial (onToken : OnToken σ) : ∀ (s : σ) (before tokens : List UInt32),
    (heard onToken s before tokens).1 <+: tokens
  | _, _, [] => List.prefix_refl []
  | s, before, token :: tokens => by
      rw [heard]
      split
      · exact ⟨tokens, rfl⟩
      · next s' _ =>
        exact (List.prefix_cons_inj token).2 (heard_initial onToken s' (before ++ [token]) tokens)

/-- Who never cancels hears everything. -/
theorem heard_of_continue {onToken : OnToken σ}
    (h : ∀ s token tokens, (onToken s token tokens).1 = .continue) :
    ∀ (s : σ) (before tokens : List UInt32), heard onToken s before tokens = (tokens, false)
  | _, _, [] => rfl
  | s, before, token :: tokens => by
      have hcontinue := h s token (before ++ [token])
      rw [heard]
      split
      · next s' heq =>
        rw [heq] at hcontinue
        exact nomatch hcontinue
      · next s' heq => rw [heard_of_continue h s' (before ++ [token]) tokens]

/-- Hearing again what was heard changes nothing. -/
theorem heard_heard (onToken : OnToken σ) : ∀ (s : σ) (before tokens : List UInt32),
    heard onToken s before (heard onToken s before tokens).1 = heard onToken s before tokens
  | _, _, [] => rfl
  | s, before, token :: tokens => by
      have ih := fun s' => heard_heard onToken s' (before ++ [token]) tokens
      cases h : onToken s token (before ++ [token]) with | mk control s' =>
      cases control with
      | cancel => simp only [heard, h]
      | «continue» => simp only [heard, h, ih s']

/-- What is at most last in a list is at most last in what the list begins with. -/
theorem OnlyLast.of_prefix {token : UInt32} {tokens tokens' : List UInt32}
    (h : OnlyLast token tokens) (hinitial : tokens' <+: tokens) : OnlyLast token tokens' := by
  obtain ⟨rest, rfl⟩ := hinitial
  intro i hi
  obtain ⟨hlt, -⟩ := List.getElem?_eq_some_iff.1 hi
  have hlast := h i (by rw [List.getElem?_append_left hlt, hi])
  rw [List.length_append] at hlast
  omega

/-! ## The loops -/

/-- **The loop without a listener** answers what was said. -/
theorem generateLoop_eq : ∀ (remaining step : ℕ) (generated allTokens : List UInt32),
    generateLoop next eos remaining step generated allTokens =
      match spoken next eos remaining step allTokens with
      | (_, some e) => .error e
      | (tokens, none) => .ok (generated ++ tokens, allTokens ++ tokens)
  | 0, _, generated, allTokens => by simp [generateLoop, spoken, pure, Except.pure]
  | remaining + 1, step, generated, allTokens => by
      cases h : next step allTokens with
      | error e =>
        rw [generateLoop, h, spoken_succ_error h]
        rfl
      | ok token =>
        rw [generateLoop, h, spoken_succ_ok h]
        change (if eos = some token then _ else _) = _
        split
        · rfl
        · rw [generateLoop_eq remaining (step + 1)]
          cases spoken next eos remaining (step + 1) (allTokens ++ [token]) with
          | mk tokens stop => cases stop <;> simp

/-- A token that is not the end token tells nothing about the end. -/
theorem finish_cons {token : UInt32} (h : ¬ eos = some token) (cancelled : Bool)
    (tokens : List UInt32) :
    finish eos cancelled (token :: tokens) = finish eos cancelled tokens := by
  unfold finish
  cases tokens with
  | nil =>
    have hlast : ¬ (eos.isSome ∧ [token].getLast? = eos) := fun hend => h hend.2.symm
    have hnone : ¬ (eos.isSome ∧ ([] : List UInt32).getLast? = eos) := fun hend => by
      rw [← hend.2] at hend
      exact nomatch hend.1
    rw [if_neg hlast, if_neg hnone]
  | cons first tokens => rw [List.getLast?_cons_cons]

/-- The listener hears one token, and the others if it goes on. -/
theorem heard_cons {onToken : OnToken σ} {s s' : σ} {before tokens : List UInt32} {token : UInt32}
    {control : GenerationControl} (h : onToken s token (before ++ [token]) = (control, s')) :
    heard onToken s before (token :: tokens) =
      if control = .cancel then ([token], true)
      else (token :: (heard onToken s' (before ++ [token]) tokens).1,
        (heard onToken s' (before ++ [token]) tokens).2) := by
  rw [heard, h]
  cases control <;> rfl

/-- One turn of the loop with a listener. -/
theorem streamingLoop_succ_ok {onToken : OnToken σ} {s s' : σ} {remaining step : ℕ}
    {generated allTokens : List UInt32} {token : UInt32} {control : GenerationControl}
    (h : next step allTokens = .ok token)
    (hcontrol : onToken s token (generated ++ [token]) = (control, s')) :
    streamingLoop next eos onToken (remaining + 1) step s generated allTokens =
      if eos = some token then .ok (generated ++ [token], allTokens ++ [token], .eos)
      else if control = .cancel then .ok (generated ++ [token], allTokens ++ [token], .cancelled)
      else streamingLoop next eos onToken remaining (step + 1) s' (generated ++ [token])
        (allTokens ++ [token]) := by
  rw [streamingLoop]
  simp only [h, hcontrol, bind, Except.bind, pure, Except.pure]

/-- What the loop with a listener answers: what was heard, or the error that comes before any
cancel. -/
def listened (eos : Option UInt32) (stop : Option GenerationError)
    (generated allTokens : List UInt32) :
    List UInt32 × Bool → Except GenerationError (List UInt32 × List UInt32 × GenerationFinishReason)
  | (tokens, cancelled) =>
    match cancelled, stop with
    | false, some e => .error e
    | _, _ => .ok (generated ++ tokens, allTokens ++ tokens, finish eos cancelled tokens)

/-- What was heard so far, and one token more. -/
theorem listened_cons {stop : Option GenerationError} {generated allTokens : List UInt32}
    {token : UInt32} (h : ¬ eos = some token) (r : List UInt32 × Bool) :
    listened eos stop (generated ++ [token]) (allTokens ++ [token]) r =
      listened eos stop generated allTokens (token :: r.1, r.2) := by
  obtain ⟨tokens, cancelled⟩ := r
  simp only [listened, finish_cons h, List.append_assoc, List.singleton_append]

/-- **The loop with a listener** answers what was heard. -/
theorem streamingLoop_eq (onToken : OnToken σ) :
    ∀ (remaining step : ℕ) (s : σ) (generated allTokens : List UInt32),
    streamingLoop next eos onToken remaining step s generated allTokens =
      listened eos (spoken next eos remaining step allTokens).2 generated allTokens
        (heard onToken s generated (spoken next eos remaining step allTokens).1)
  | 0, _, s, generated, allTokens => by
      have hfinish : finish eos false [] = .maxTokens := by
        cases eos <;> rfl
      simp [streamingLoop, spoken, heard, listened, hfinish, pure, Except.pure]
  | remaining + 1, step, s, generated, allTokens => by
      cases h : next step allTokens with
      | error e =>
        rw [streamingLoop, h, spoken_succ_error h]
        rfl
      | ok token =>
        cases hcontrol : onToken s token (generated ++ [token]) with | mk control s' =>
        rw [streamingLoop_succ_ok h hcontrol, spoken_succ_ok h]
        by_cases hend : eos = some token
        · -- at the end token the listener is heard in vain
          have hfinish : ∀ cancelled, finish eos cancelled [token] = .eos := fun _ =>
            if_pos ⟨by rw [hend]; rfl, hend.symm⟩
          rw [if_pos hend, if_pos hend, heard_cons hcontrol]
          cases control <;> simp [heard, listened, hfinish]
        · rw [if_neg hend, if_neg hend, heard_cons hcontrol]
          cases control with
          | cancel =>
            have hfinish : finish eos true [token] = .cancelled :=
              (finish_cons hend true []).trans (by cases eos <;> rfl)
            simp [listened, hfinish]
          | «continue» =>
            rw [if_neg (by decide), if_neg (by decide), streamingLoop_eq onToken remaining,
              listened_cons hend]

/-! ## The calls -/

section Calls

variable (ops : F32Ops) (self : GraphGenerator) (resolver : TensorResolver)
  (promptTokens : List UInt32) (config : GenerationConfig)

/-- What the generator says to the prompt. -/
def said : List UInt32 × Option GenerationError :=
  spoken (nextToken ops self
      (fun inputs => GraphExecutor.executeWithResolver self.executor self.graph inputs resolver)
      config)
    config.eosToken config.maxNewTokens 0 promptTokens

/-- The result with these tokens generated. -/
def resultOf (tokens : List UInt32) : GenerationResult where
  promptTokens := promptTokens
  generatedTokens := tokens
  allTokens := promptTokens ++ tokens

/-- What every loop does first: it checks the prompt, and asks for room for the budget. -/
def begun : Code GenerationError Unit := do
  liftM (validatePromptTokens promptTokens self.vocabSize config.contextLimit)
  let _ ← roomFor config.maxNewTokens

/-- There is nothing in the room yet. -/
theorem roomFor_bind {α : Type} {maxNewTokens : ℕ} {f : List UInt32 → Code GenerationError α} :
    roomFor maxNewTokens >>= f = roomFor maxNewTokens >>= fun _ => f [] := by
  unfold roomFor PointerWidth.withCapacity
  split <;> rfl

theorem begun_bind {α : Type} {f : List UInt32 → Code GenerationError α} :
    (do
      liftM (validatePromptTokens promptTokens self.vocabSize config.contextLimit)
      let generatedTokens ← roomFor config.maxNewTokens
      f generatedTokens) = (do
      begun self promptTokens config
      f []) := by
  rw [begun, bind_assoc]
  refine bind_congr fun _ => ?_
  rw [roomFor_bind, bind_assoc]
  exact bind_congr fun _ => (pure_bind ..).symm

/-- The answer without a listener: all that is said, or the failure that ends it. -/
def answerOf : List UInt32 × Option GenerationError → Except GenerationError GenerationResult
  | (_, some e) => .error e
  | (tokens, none) => .ok (resultOf promptTokens tokens)

/-- **The loop gives what is said**, or the failure that ends it. -/
theorem generateTokensWithResolver_eq :
    generateTokensWithResolver ops self resolver promptTokens config = (do
      begun self promptTokens config
      liftM (answerOf promptTokens (said ops self resolver promptTokens config))) := by
  rw [generateTokensWithResolver, begun_bind]
  refine bind_congr fun _ => ?_
  rw [generateLoop_eq, said]
  rcases spoken _ _ _ _ _ with ⟨tokens, stop | e⟩ <;> rfl

/-- The answer to a listener that heard these tokens, and cancelled or not. -/
def answerTo (stop : Option GenerationError) :
    List UInt32 × Bool → Except GenerationError StreamingGenerationResult
  | (tokens, cancelled) =>
    match cancelled, stop with
    | false, some e => .error e
    | _, _ => .ok {
      generation := resultOf promptTokens tokens
      finishReason := finish config.eosToken cancelled tokens }

/-- **The loop with a listener gives what is heard of it.** -/
theorem streaming_eq {σ : Type} (onToken : OnToken σ) (s : σ) :
    generateTokensWithResolverStreaming ops self resolver promptTokens config onToken s = (do
      begun self promptTokens config
      liftM (answerTo promptTokens config (said ops self resolver promptTokens config).2
        (heard onToken s [] (said ops self resolver promptTokens config).1))) := by
  rw [generateTokensWithResolverStreaming, begun_bind]
  refine bind_congr fun _ => ?_
  rw [streamingLoop_eq, said]
  rcases heard onToken s [] _ with ⟨tokens, cancelled⟩
  rcases (spoken _ _ _ _ _).2 with stop | e <;> cases cancelled <;> rfl

/-- **What every result is**: the prompt and the tokens after it, within the budget, the end token
the last one if any. -/
structure Complies (r : GenerationResult) : Prop where
  prompt : r.promptTokens = promptTokens
  all : r.allTokens = promptTokens ++ r.generatedTokens
  budget : r.generatedTokens.length ≤ config.maxNewTokens
  eos : ∀ eos, config.eosToken = some eos → OnlyLast eos r.generatedTokens

/-- A beginning of what is said makes such a result. -/
theorem complies_of_initial {tokens : List UInt32}
    (h : tokens <+: (said ops self resolver promptTokens config).1) :
    Complies promptTokens config (resultOf promptTokens tokens) where
  prompt := rfl
  all := rfl
  budget := h.length_le.trans (length_spoken ..)
  eos eos heos := by
    rw [said, heos] at h
    exact OnlyLast.of_prefix (onlyLast_spoken _ _ _) h

/-- **The three loops agree.** -/
structure LoopsAgree : Prop where
  /-- Without a resolver is with the empty one. -/
  empty : generateTokensWithResolver ops self emptyTensorResolver promptTokens config =
    generateTokens ops self promptTokens config
  /-- A listener who never cancels changes nothing. -/
  continued : ∀ {σ : Type} (onToken : OnToken σ) (s : σ),
    (∀ s token tokens, (onToken s token tokens).1 = .continue) →
    (·.generation) <$>
      generateTokensWithResolverStreaming ops self resolver promptTokens config onToken s =
        generateTokensWithResolver ops self resolver promptTokens config
  /-- A listener cuts the result after the first token at which it cancels. -/
  cut : ∀ {σ : Type} (onToken : OnToken σ) (s : σ) (r : GenerationResult),
    (generateTokensWithResolver ops self resolver promptTokens config).run = some (.ok r) →
    (generateTokensWithResolverStreaming ops self resolver promptTokens config onToken s).run =
      some (.ok {
        generation := resultOf promptTokens (heard onToken s [] r.generatedTokens).1
        finishReason := finish config.eosToken (heard onToken s [] r.generatedTokens).2
          (heard onToken s [] r.generatedTokens).1 })
  /-- An error is met by the listener too, unless it cancels before. -/
  failed : ∀ {σ : Type} (onToken : OnToken σ) (s : σ) (e : GenerationError),
    (generateTokensWithResolver ops self resolver promptTokens config).run = some (.error e) →
    (generateTokensWithResolverStreaming ops self resolver promptTokens config onToken s).run =
        some (.error e) ∨
      ∃ r, (generateTokensWithResolverStreaming ops self resolver promptTokens config onToken
          s).run = some (.ok r) ∧
        heard onToken s [] r.generation.generatedTokens = (r.generation.generatedTokens, true)
  /-- A listener does not keep the loop from its panic, and brings about none. -/
  panicked : ∀ {σ : Type} (onToken : OnToken σ) (s : σ),
    (generateTokensWithResolverStreaming ops self resolver promptTokens config onToken s).run =
      none ↔ (generateTokensWithResolver ops self resolver promptTokens config).run = none
  complies : ∀ r, (generateTokensWithResolver ops self resolver promptTokens config).run =
    some (.ok r) → Complies promptTokens config r
  streamingComplies : ∀ {σ : Type} (onToken : OnToken σ) (s : σ) (r : StreamingGenerationResult),
    (generateTokensWithResolverStreaming ops self resolver promptTokens config onToken s).run =
      some (.ok r) → Complies promptTokens config r.generation

variable {ops self resolver promptTokens config}

/-- When the loops begin. -/
theorem begun_eq_ok : (begun self promptTokens config).run = some (.ok ()) ↔
    validatePromptTokens promptTokens self.vocabSize config.contextLimit = .ok () ∧
      4 * config.maxNewTokens ≤ PointerWidth.arm64V8a.isizeMax := by
  rw [begun, run_bind_eq_ok, exists_unit, run_liftM_eq_ok, roomFor,
    PointerWidth.run_withCapacity_bind_eq_ok]
  exact and_congr_right fun _ => and_iff_left rfl

/-- An answer without a listener is all that is said. -/
theorem generateTokensWithResolver_eq_ok {r : GenerationResult} :
    (generateTokensWithResolver ops self resolver promptTokens config).run = some (.ok r) ↔
      (begun self promptTokens config).run = some (.ok ()) ∧
      ∃ tokens, said ops self resolver promptTokens config = (tokens, none) ∧
        r = resultOf promptTokens tokens := by
  rw [generateTokensWithResolver_eq, run_bind_eq_ok, exists_unit, run_liftM_eq_ok]
  refine and_congr_right fun _ => ?_
  rcases said ops self resolver promptTokens config with ⟨tokens, stop | e⟩
  · refine ⟨fun h => ⟨tokens, rfl, (Except.ok.inj h).symm⟩, ?_⟩
    rintro ⟨tokens', heq, rfl⟩
    cases heq
    rfl
  · refine ⟨fun h => (nomatch h), ?_⟩
    rintro ⟨tokens', heq, -⟩
    exact nomatch (Prod.mk.inj heq).2

/-- An answer to a listener is made of what it heard. -/
theorem streaming_eq_ok {σ : Type} {onToken : OnToken σ} {s : σ} {r : StreamingGenerationResult} :
    (generateTokensWithResolverStreaming ops self resolver promptTokens config onToken s).run =
        some (.ok r) ↔
      (begun self promptTokens config).run = some (.ok ()) ∧
      answerTo promptTokens config (said ops self resolver promptTokens config).2
        (heard onToken s [] (said ops self resolver promptTokens config).1) = .ok r := by
  rw [streaming_eq, run_bind_eq_ok, exists_unit, run_liftM_eq_ok]

end Calls

/-- **The three loops agree**, for every generator, resolver, prompt and configuration. -/
theorem loopsAgree (ops : F32Ops) (self : GraphGenerator) (resolver : TensorResolver)
    (promptTokens : List UInt32) (config : GenerationConfig) :
    LoopsAgree ops self resolver promptTokens config where
  empty := rfl
  continued onToken s h := by
    rw [streaming_eq, generateTokensWithResolver_eq, heard_of_continue h, map_bind]
    refine bind_congr fun _ => ?_
    rcases said ops self resolver promptTokens config with ⟨tokens, stop | e⟩ <;> rfl
  cut onToken s r h := by
    obtain ⟨hbegun, tokens, hsaid, rfl⟩ := generateTokensWithResolver_eq_ok.1 h
    refine streaming_eq_ok.2 ⟨hbegun, ?_⟩
    rw [hsaid]
    change answerTo promptTokens config none (heard onToken s [] tokens) = .ok {
      generation := resultOf promptTokens (heard onToken s [] tokens).1
      finishReason := finish config.eosToken (heard onToken s [] tokens).2
        (heard onToken s [] tokens).1 }
    rcases heard onToken s [] tokens with ⟨tokens', cancelled⟩
    cases cancelled <;> rfl
  failed onToken s e h := by
    have hagain := heard_heard onToken s [] (said ops self resolver promptTokens config).1
    rw [generateTokensWithResolver_eq, run_bind_eq_error, exists_unit, run_liftM_eq_error] at h
    rw [streaming_eq, run_bind_eq_error, exists_unit, run_liftM_eq_error]
    rcases h with hinvalid | ⟨hbegun, hstop⟩
    · exact .inl (.inl hinvalid)
    cases hsaid : said ops self resolver promptTokens config with | mk tokens stop =>
    rw [hsaid] at hstop hagain
    cases stop with
    | none => cases hstop
    | some e' =>
      obtain rfl : e' = e := Except.error.inj hstop
      cases hheard : heard onToken s [] tokens with | mk tokens' cancelled =>
      dsimp only at hagain
      rw [hheard] at hagain
      cases cancelled with
      | false => exact .inl (.inr ⟨hbegun, rfl⟩)
      | true => exact .inr ⟨_, run_bind_eq_ok.2 ⟨(), hbegun, rfl⟩, hagain⟩
  panicked onToken s := by
    rw [generateTokensWithResolver_eq, streaming_eq, run_bind_eq_none, run_bind_eq_none]
    simp only [run_liftM_ne_none, and_false, exists_const]
  complies r h := by
    obtain ⟨-, tokens, hsaid, rfl⟩ := generateTokensWithResolver_eq_ok.1 h
    exact complies_of_initial ops self resolver promptTokens config
      (by rw [hsaid])
  streamingComplies onToken s r h := by
    obtain ⟨-, hanswer⟩ := streaming_eq_ok.1 h
    have hinitial := heard_initial onToken s [] (said ops self resolver promptTokens config).1
    cases hheard : heard onToken s [] (said ops self resolver promptTokens config).1 with
    | mk tokens cancelled =>
    rw [hheard] at hanswer hinitial
    have hcomplies := complies_of_initial ops self resolver promptTokens config hinitial
    cases cancelled with
    | true => exact Except.ok.inj hanswer ▸ hcomplies
    | false =>
      cases hstop : (said ops self resolver promptTokens config).2 with
      | some e =>
        rw [hstop] at hanswer
        exact nomatch hanswer
      | none =>
        rw [hstop] at hanswer
        exact Except.ok.inj hanswer ▸ hcomplies

end GraphGenerator

end NTD97
