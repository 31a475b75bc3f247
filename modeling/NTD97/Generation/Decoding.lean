import Mathlib
import NTD97.Generation.Loops

/-!
# Generation/Decoding — what a run of the loop is

    prompt ──Next──▸ t₁ ──Next──▸ t₂ ──Next──▸ … tₙ     up to the end token, or the budget

A decoding is a list of tokens, each the next one after those before it.  The loop answers with the
decoding of its step function and with nothing else.  Every token it adds is one of the vocabulary,
whatever picks it, so what is generated can be a prompt again.
-/

namespace NTD97

open Guard Slices

namespace GraphGenerator

/-- **The tokens after these**: one after the other, until the end token or the budget. -/
inductive Decodes (Next : ℕ → List UInt32 → UInt32 → Prop) (eos : Option UInt32) :
    ℕ → ℕ → List UInt32 → List UInt32 → Prop
  | spent {step : ℕ} {allTokens : List UInt32} : Decodes Next eos 0 step allTokens []
  | ended {remaining step : ℕ} {allTokens : List UInt32} {token : UInt32}
      (next : Next step allTokens token) (last : eos = some token) :
      Decodes Next eos (remaining + 1) step allTokens [token]
  | more {remaining step : ℕ} {allTokens tokens : List UInt32} {token : UInt32}
      (next : Next step allTokens token) (goesOn : eos ≠ some token)
      (rest : Decodes Next eos remaining (step + 1) (allTokens ++ [token]) tokens) :
      Decodes Next eos (remaining + 1) step allTokens (token :: tokens)

section Decodings

variable {Next Next' : ℕ → List UInt32 → UInt32 → Prop} {eos : Option UInt32}
  {remaining step : ℕ} {allTokens tokens : List UInt32}

theorem Decodes.mono (h : Decodes Next eos remaining step allTokens tokens)
    (hnext : ∀ step allTokens token, Next step allTokens token → Next' step allTokens token) :
    Decodes Next' eos remaining step allTokens tokens := by
  induction h with
  | spent => exact .spent
  | ended next last => exact .ended (hnext _ _ _ next) last
  | more next goesOn _ ih => exact .more (hnext _ _ _ next) goesOn ih

/-- Steps that say the same tokens decode the same. -/
theorem Decodes.congr
    (hnext : ∀ step allTokens token, Next step allTokens token ↔ Next' step allTokens token) :
    Decodes Next eos remaining step allTokens tokens ↔
      Decodes Next' eos remaining step allTokens tokens :=
  ⟨fun h => h.mono fun _ _ _ => (hnext _ _ _).1, fun h => h.mono fun _ _ _ => (hnext _ _ _).2⟩

/-- **What every step keeps, all tokens have.** -/
theorem Decodes.forall_mem {P : UInt32 → Prop}
    (h : Decodes Next eos remaining step allTokens tokens)
    (hnext : ∀ step allTokens token, Next step allTokens token → P token) : ∀ t ∈ tokens, P t := by
  induction h with
  | spent => exact fun t ht => absurd ht List.not_mem_nil
  | ended next _ => exact List.forall_mem_singleton.2 (hnext _ _ _ next)
  | more next _ _ ih => exact List.forall_mem_cons.2 ⟨hnext _ _ _ next, ih⟩

end Decodings

/-! ## The loop -/

section Loop

variable {next : ℕ → List UInt32 → Except GenerationError UInt32} {eos : Option UInt32}

/-- **What is said without a failure is the decoding of the step function.** -/
theorem spoken_eq_iff_decodes : ∀ {remaining step : ℕ} {allTokens tokens : List UInt32},
    spoken next eos remaining step allTokens = (tokens, none) ↔
      Decodes (fun step allTokens token => next step allTokens = .ok token) eos remaining step
        allTokens tokens
  | 0, step, allTokens, tokens => by
      constructor
      · intro h
        obtain rfl : [] = tokens := congrArg Prod.fst h
        exact .spent
      · intro h
        cases h
        rfl
  | remaining + 1, step, allTokens, tokens => by
      constructor
      · intro h
        cases hnext : next step allTokens with
        | error e =>
          rw [spoken_succ_error hnext] at h
          cases congrArg Prod.snd h
        | ok token =>
          rw [spoken_succ_ok hnext] at h
          by_cases heos : eos = some token
          · rw [if_pos heos] at h
            obtain rfl : [token] = tokens := congrArg Prod.fst h
            exact .ended hnext heos
          · rw [if_neg heos, Prod.mk.injEq] at h
            obtain ⟨rfl, hstop⟩ := h
            exact .more hnext heos (spoken_eq_iff_decodes.1 (Prod.ext rfl hstop))
      · intro h
        cases h with
        | ended hnext heos => rw [spoken_succ_ok hnext, if_pos heos]
        | more hnext heos rest => rw [spoken_succ_ok hnext, if_neg heos, spoken_eq_iff_decodes.2 rest]

end Loop

/-! ## Tokens of the vocabulary -/

section Sampling

variable {ops : F32Ops} {values : List F32} {kind : DistributionKind} {mode : SamplingMode}
  {step next : ℕ}

/-- The best element is an element. -/
theorem mem_of_maxBy {α : Type} {gt : α → α → Bool} {l : List α} {a : α} (h : maxBy gt l = some a) :
    a ∈ l := by
  cases l with
  | nil => cases h
  | cons first l =>
    obtain rfl := Option.some.inj h
    suffices hfold : ∀ (l : List α) (best : α),
        l.foldl (fun best x => if gt best x then best else x) best ∈ best :: l from hfold l first
    intro l
    induction l with
    | nil => exact fun best => List.mem_cons_self
    | cons x l ih =>
      intro best
      rw [List.foldl_cons]
      split
      · exact List.mem_cons.2 ((List.mem_cons.1 (ih best)).imp_right (List.mem_cons_of_mem x))
      · exact List.mem_cons_of_mem _ (ih x)

/-- What is picked stands next to a weight, or was the fallback. -/
theorem mem_of_pick : ∀ {l : List (F32 × ℕ)} {target : F32} {fallback : Option ℕ},
    pick ops l target fallback = .ok next → fallback = some next ∨ next ∈ l.map Prod.snd
  | [], _, _, h => .inl (okOr_eq_ok.1 h)
  | (weight, index) :: l, target, fallback, h => by
      rw [pick] at h
      split at h
      · exact (mem_of_pick h).imp_right (List.mem_cons_of_mem _)
      · split at h
        · obtain rfl := pure_eq_ok.1 h
          exact .inr List.mem_cons_self
        · rcases mem_of_pick h with heq | hmem
          · exact .inr (Option.some.inj heq ▸ List.mem_cons_self)
          · exact .inr (List.mem_cons_of_mem _ hmem)

theorem lt_of_mem_zipIdx {α : Type} {l : List α} {n : ℕ} (h : n ∈ l.zipIdx.map Prod.snd) :
    n < l.length := by
  rw [List.zipIdx_map_snd, List.range'_eq_map_range, List.mem_map] at h
  obtain ⟨i, hi, rfl⟩ := h
  rwa [Nat.zero_add, ← List.mem_range]

theorem length_keepTopK {weights kept : List F32} {k : ℕ} (h : keepTopK weights k = .ok kept) :
    kept.length = weights.length := by
  obtain ⟨_, -, h⟩ := bind_eq_ok.1 h
  obtain rfl := pure_eq_ok.1 h
  suffices hfold : ∀ (l : List (F32 × ℕ)) (weights : List F32),
      (l.foldl (fun weights e => weights.set e.2 F32.zero) weights).length = weights.length from
    hfold _ _
  intro l
  induction l with
  | nil => exact fun _ => rfl
  | cons e l ih =>
    intro weights
    rw [List.foldl_cons, ih, List.length_set]

/-- What is picked among weights is the place of one. -/
theorem lt_of_pick {weights : List F32} {target : F32}
    (h : pick ops weights.zipIdx target none = .ok next) : next < weights.length :=
  lt_of_mem_zipIdx ((mem_of_pick h).resolve_left (Option.some_ne_none _).symm)

/-- **Whatever is sampled is a place of the distribution.** -/
theorem sampleToken_lt (h : sampleToken ops values kind mode step = .ok next) :
    next < values.length := by
  cases mode with
  | greedy =>
    obtain ⟨_, -, h⟩ := bind_eq_ok.1 h
    obtain ⟨_, -, h⟩ := bind_eq_ok.1 h
    obtain ⟨best, hbest, rfl⟩ := Option.map_eq_some_iff.1 (okOr_eq_ok.1 h)
    exact lt_of_mem_zipIdx (List.mem_map_of_mem (mem_of_maxBy hbest))
  | stochastic temperature topK seed =>
    have hlogits : (logitsToWeights ops values temperature).length = values.length :=
      List.length_map _
    have hprobabilities {weights : List F32}
        (h : probabilitiesToWeights ops values temperature = .ok weights) :
        weights.length = values.length := by
      obtain ⟨_, -, h⟩ := bind_eq_ok.1 h
      obtain rfl := pure_eq_ok.1 h
      exact List.length_map _
    cases kind with
    | logits =>
      cases topK with
      | none =>
        simp only [sampleToken, pure_bind, bind_eq_ok, exists_unit] at h
        exact hlogits ▸ lt_of_pick h.2.2.2.2.2
      | some k =>
        simp only [sampleToken, pure_bind, bind_eq_ok, exists_unit] at h
        obtain ⟨-, -, -, -, kept, hkept, -, h⟩ := h
        exact hlogits ▸ length_keepTopK hkept ▸ lt_of_pick h
    | probabilities =>
      cases topK with
      | none =>
        simp only [sampleToken, pure_bind, bind_eq_ok, exists_unit] at h
        obtain ⟨-, -, -, -, weights, hweights, -, h⟩ := h
        exact hprobabilities hweights ▸ lt_of_pick h
      | some k =>
        simp only [sampleToken, bind_eq_ok, exists_unit] at h
        obtain ⟨-, -, -, -, weights, hweights, kept, hkept, -, h⟩ := h
        exact hprobabilities hweights ▸ length_keepTopK hkept ▸ lt_of_pick h

end Sampling

section Tokens

variable {ops : F32Ops} {self : GraphGenerator} {tensor : Tensor} {vocabSize : ℕ} {values : List F32}
  {execute : Values → Except ExecutionError (List Tensor)} {config : GenerationConfig} {step : ℕ}
  {promptTokens allTokens tokens : List UInt32} {token : UInt32} {contextLimit : ℕ}

theorem lastDistribution_eq_ok : lastDistribution tensor vocabSize = .ok values ↔
    vocabSize ≤ tensor.data.length ∧ vocabSize ∣ tensor.data.length ∧
      values = tensor.data.drop (tensor.data.length - vocabSize) := by
  simp only [lastDistribution, bind_eq_ok, exists_unit, refuse_eq_ok, pure_eq_ok, not_or, not_lt,
    not_not, Nat.dvd_iff_mod_eq_zero, and_assoc]
  exact and_congr_right fun _ => and_congr_right fun _ => eq_comm

theorem length_lastDistribution (h : lastDistribution tensor vocabSize = .ok values) :
    values.length = vocabSize := by
  obtain ⟨hle, -, rfl⟩ := lastDistribution_eq_ok.1 h
  rw [List.length_drop, Nat.sub_sub_self hle]

theorem validatePromptTokens_eq_ok : validatePromptTokens promptTokens vocabSize contextLimit =
    .ok () ↔ promptTokens ≠ [] ∧ contextLimit ≠ 0 ∧ ∀ t ∈ promptTokens, t.toNat < vocabSize := by
  simp only [validatePromptTokens, bind_eq_ok, exists_unit, refuse_eq_ok, forM_eq_ok, not_le]

/-- The window that the graph is given. -/
def windowOf (contextLimit : ℕ) (allTokens : List UInt32) : List UInt32 :=
  allTokens.drop (allTokens.length - contextLimit)

/-- **When a token is the next one**: the graph runs on the window, and the token is sampled from the
last row of its answer. -/
theorem nextToken_eq_ok : nextToken ops self execute config step allTokens = .ok token ↔
    ∃ tokens outputs output values,
      Tensor.new [(windowOf config.contextLimit allTokens).length]
        ((windowOf config.contextLimit allTokens).map fun t => ops.ofInt t.toNat) = .ok tokens ∧
      execute (self.staticInputs.insert self.tokenInput.val tokens) = .ok outputs ∧
      outputs[self.distributionOutput]? = some output ∧
      lastDistribution output self.vocabSize = .ok values ∧
      sampleToken ops values config.distribution config.sampling step = .ok token.toNat := by
  simp only [nextToken, distribution, windowOf, bind_eq_ok, exists_unit, mapError_eq_ok,
    okOr_eq_ok, refuse_eq_ok, pure_eq_ok, not_le]
  constructor
  · rintro ⟨values, ⟨tokens, htokens, outputs, houtputs, output, houtput, hvalues⟩, next, hnext, hlt,
      rfl⟩
    rw [UInt32.toNat_ofNat_of_lt' hlt]
    exact ⟨tokens, outputs, output, values, htokens, houtputs, houtput, hvalues, hnext⟩
  · rintro ⟨tokens, outputs, output, values, htokens, houtputs, houtput, hvalues, hnext⟩
    exact ⟨values, ⟨tokens, htokens, outputs, houtputs, output, houtput, hvalues⟩, _, hnext,
      token.toNat_lt, UInt32.ofNat_toNat⟩

/-- **No token is generated that is not in the vocabulary.** -/
theorem nextToken_lt (h : nextToken ops self execute config step allTokens = .ok token) :
    token.toNat < self.vocabSize := by
  obtain ⟨-, -, output, values, -, -, -, hvalues, hnext⟩ := nextToken_eq_ok.1 h
  exact length_lastDistribution hvalues ▸ sampleToken_lt hnext

variable {resolver : TensorResolver} {r : GenerationResult}

/-- **The loop answers with the decoding of its step, and with nothing else**, after a prompt of
tokens of the vocabulary, with a budget that a vector has room for. -/
theorem generateTokensWithResolver_iff_decodes :
    (generateTokensWithResolver ops self resolver promptTokens config).run = some (.ok r) ↔
      ((promptTokens ≠ [] ∧ config.contextLimit ≠ 0 ∧
          ∀ t ∈ promptTokens, t.toNat < self.vocabSize) ∧
        4 * config.maxNewTokens ≤ PointerWidth.arm64V8a.isizeMax) ∧
      ∃ tokens, Decodes (fun step allTokens token => nextToken ops self (fun inputs =>
          GraphExecutor.executeWithResolver self.executor self.graph inputs resolver) config step
            allTokens = .ok token)
        config.eosToken config.maxNewTokens 0 promptTokens tokens ∧
        r = resultOf promptTokens tokens := by
  rw [generateTokensWithResolver_eq_ok, begun_eq_ok, validatePromptTokens_eq_ok]
  simp only [said, spoken_eq_iff_decodes]

end Tokens

end GraphGenerator

end NTD97
