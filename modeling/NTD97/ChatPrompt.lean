import Mathlib
import NTD97.Conversation
import NTD97.TextTokenizer

/-!
# ChatPrompt — the prompt of a turn, as long as it fits

    dropped exchanges 0, 2, 4, …        memory items all, …, 1, 0

A prompt is the memory, the history and the message.  The compiler tries it whole, then with fewer
memory items, then without the oldest exchange, and takes the first that fits.  Nothing is known of
the tokenizer, so a longer text may have fewer tokens; the first that fits is still the one that
keeps the most (`compileWithMemory_spec`).
-/

namespace NTD97

open Guard Text

structure CompiledChatPrompt where
  text : String
  tokenIds : List UInt32
  retainedHistoryTurns : ℕ
  droppedHistoryTurns : ℕ
  retainedMemoryItems : ℕ
  droppedMemoryItems : ℕ
  deriving DecidableEq

inductive ChatPromptError where
  | emptyUserMessage
  | emptyTurn (index : ℕ)
  | invalidHistoryOrder (index : ℕ)
  | invalidTokenBudget
  | contextOverflow (required limit : ℕ)
  | tokenizer (source : TokenizerError)
  deriving DecidableEq

/-- `encode_text` of a tokenizer. -/
abbrev EncodeText := String → Bool → Except TokenizerError (List UInt32)

namespace NativeChatPromptCompiler

def validateInputs (history : List ConversationTurn) (memory : List String) (userMessage : String)
    (maxPromptTokens : ℕ) : Except ChatPromptError Unit := do
  refuse (isBlank userMessage) .emptyUserMessage
  refuse (maxPromptTokens = 0) .invalidTokenBudget
  history.zipIdx.forM fun (turn, index) => do
    refuse (isBlank turn.content) (.emptyTurn index)
    refuse (turn.role ≠ expectedRole index) (.invalidHistoryOrder index)
  refuse (history.length % 2 ≠ 0) (.invalidHistoryOrder (history.length - 1))
  memory.forM fun item => refuse (isBlank item) (.emptyTurn history.length)

def renderMemory (memory : List String) : String :=
  if memory = [] then ""
  else "Relevant memory:\n" ++ String.join (memory.map fun item => "- " ++ item ++ "\n") ++ "\n"

def renderTurn (turn : ConversationTurn) : String :=
  (match turn.role with
    | .user => "User: "
    | .assistant => "Assistant: ") ++ turn.content ++ "\n"

def renderPrompt (history : List ConversationTurn) (memory : List String) (userMessage : String) :
    String :=
  renderMemory memory ++ String.join (history.map renderTurn) ++ "User: " ++ userMessage ++
    "\nAssistant:"

/-- How much is dropped of the history and kept of the memory, in the order of the two loops. -/
def candidates (history : List ConversationTurn) (memory : List String) : List (ℕ × ℕ) :=
  (List.range (history.length / 2 + 1)).flatMap fun exchanges =>
    (List.range (memory.length + 1)).reverse.map fun retained => (2 * exchanges, retained)

/-- The text of a candidate. -/
def textOf (history : List ConversationTurn) (memory : List String) (userMessage : String)
    (candidate : ℕ × ℕ) : String :=
  renderPrompt (history.drop candidate.1) (memory.take candidate.2) userMessage

/-- The two loops, from a candidate on. -/
def firstFit (encodeText : EncodeText) (history : List ConversationTurn) (memory : List String)
    (userMessage : String) (maxPromptTokens : ℕ) :
    List (ℕ × ℕ) → Except ChatPromptError (Option CompiledChatPrompt)
  | [] => return none
  | candidate :: rest => do
    let text := textOf history memory userMessage candidate
    let tokenIds ← (encodeText text true).mapError .tokenizer
    if tokenIds.length ≤ maxPromptTokens then
      return some {
        text, tokenIds
        retainedHistoryTurns := (history.drop candidate.1).length
        droppedHistoryTurns := candidate.1
        retainedMemoryItems := candidate.2
        droppedMemoryItems := memory.length - candidate.2 }
    else firstFit encodeText history memory userMessage maxPromptTokens rest

def compileWithMemory (encodeText : EncodeText) (history : List ConversationTurn)
    (memory : List String) (userMessage : String) (maxPromptTokens : ℕ) :
    Except ChatPromptError CompiledChatPrompt := do
  validateInputs history memory userMessage maxPromptTokens
  let found ← firstFit encodeText history memory userMessage maxPromptTokens
    (candidates history memory)
  match found with
  | some prompt => return prompt
  | none => do
    let tokenIds ← (encodeText (renderPrompt [] [] userMessage) true).mapError .tokenizer
    throw (.contextOverflow tokenIds.length maxPromptTokens)

def compile (encodeText : EncodeText) (history : List ConversationTurn) (userMessage : String)
    (maxPromptTokens : ℕ) : Except ChatPromptError CompiledChatPrompt :=
  compileWithMemory encodeText history [] userMessage maxPromptTokens

/-! ## The order of the candidates -/

/-- The order of the two loops: less is dropped, or else more is kept. -/
def KeepsMore (a b : ℕ × ℕ) : Prop := a.1 < b.1 ∨ (a.1 = b.1 ∧ b.2 < a.2)

/-- In a list in some order, the first that passes is the one before which none passes. -/
theorem find?_eq_some_iff {α : Type} {R : α → α → Prop} (hasymm : ∀ a b, R a b → ¬ R b a)
    {p : α → Bool} {a : α} : ∀ {l : List α}, l.Pairwise R →
      (l.find? p = some a ↔ a ∈ l ∧ p a = true ∧ ∀ b ∈ l, R b a → p b = false)
  | [], _ => by simp
  | x :: l, h => by
      obtain ⟨hx, hl⟩ := List.pairwise_cons.1 h
      have ih := find?_eq_some_iff hasymm (p := p) (a := a) hl
      by_cases hpx : p x = true
      · rw [List.find?_cons_of_pos hpx, Option.some_inj]
        constructor
        · rintro rfl
          refine ⟨List.mem_cons_self, hpx, fun b hb hR => ?_⟩
          rcases List.mem_cons.1 hb with rfl | hb
          · exact absurd hR (hasymm _ _ hR)
          · exact absurd (hx b hb) (hasymm _ _ hR)
        · rintro ⟨ha, -, hbefore⟩
          rcases List.mem_cons.1 ha with rfl | ha
          · rfl
          · rw [hbefore x List.mem_cons_self (hx a ha)] at hpx
            exact absurd hpx Bool.false_ne_true
      · rw [List.find?_cons_of_neg hpx, ih]
        constructor
        · rintro ⟨ha, hpa, hbefore⟩
          refine ⟨List.mem_cons_of_mem _ ha, hpa, List.forall_mem_cons.2 ⟨fun _ => ?_, hbefore⟩⟩
          exact Bool.not_eq_true _ ▸ hpx
        · rintro ⟨ha, hpa, hbefore⟩
          rcases List.mem_cons.1 ha with rfl | ha
          · exact absurd hpa hpx
          · exact ⟨ha, hpa, (List.forall_mem_cons.1 hbefore).2⟩

theorem keepsMore_asymm (a b : ℕ × ℕ) (h : KeepsMore a b) : ¬ KeepsMore b a := by
  simp only [KeepsMore] at h ⊢
  omega

variable {history : List ConversationTurn} {memory : List String} {userMessage : String}
  {maxPromptTokens : ℕ}

theorem mem_candidates {candidate : ℕ × ℕ} (heven : history.length % 2 = 0) :
    candidate ∈ candidates history memory ↔
      candidate.1 ≤ history.length ∧ candidate.1 % 2 = 0 ∧ candidate.2 ≤ memory.length := by
  obtain ⟨dropped, retained⟩ := candidate
  simp only [candidates, List.mem_flatMap, List.mem_map, List.mem_reverse, List.mem_range,
    Prod.mk.injEq]
  constructor
  · rintro ⟨exchanges, hexchanges, r, hr, rfl, rfl⟩
    omega
  · rintro ⟨hle, hmod, hr⟩
    exact ⟨dropped / 2, by omega, retained, by omega, by omega, rfl⟩

theorem pairwise_candidates : (candidates history memory).Pairwise KeepsMore := by
  rw [candidates, List.pairwise_flatMap]
  constructor
  · intro exchanges _
    rw [List.pairwise_map, List.pairwise_reverse]
    exact List.pairwise_lt_range.imp fun h => .inr ⟨rfl, h⟩
  · refine List.pairwise_lt_range.imp fun {a b} h x hx y hy => .inl ?_
    obtain ⟨r, -, rfl⟩ := List.mem_map.1 hx
    obtain ⟨r', -, rfl⟩ := List.mem_map.1 hy
    dsimp only
    omega

/-! ## What is compiled -/

variable (encode : String → Bool → List UInt32)

/-- A candidate fits the budget. -/
def Fits (history : List ConversationTurn) (memory : List String) (userMessage : String)
    (maxPromptTokens : ℕ) (candidate : ℕ × ℕ) : Prop :=
  (encode (textOf history memory userMessage candidate) true).length ≤ maxPromptTokens

instance (candidate : ℕ × ℕ) :
    Decidable (Fits encode history memory userMessage maxPromptTokens candidate) :=
  inferInstanceAs (Decidable (_ ≤ _))

/-- The prompt of a candidate. -/
def promptOf (history : List ConversationTurn) (memory : List String) (userMessage : String)
    (candidate : ℕ × ℕ) : CompiledChatPrompt where
  text := textOf history memory userMessage candidate
  tokenIds := encode (textOf history memory userMessage candidate) true
  retainedHistoryTurns := history.length - candidate.1
  droppedHistoryTurns := candidate.1
  retainedMemoryItems := candidate.2
  droppedMemoryItems := memory.length - candidate.2

/-- **The best candidate**: it fits, no smaller number of dropped exchanges fits with any memory, and
no more memory fits with its history. -/
structure Best (history : List ConversationTurn) (memory : List String) (userMessage : String)
    (maxPromptTokens dropped retained : ℕ) : Prop where
  dropped_le : dropped ≤ history.length
  whole : dropped % 2 = 0
  retained_le : retained ≤ memory.length
  fits : Fits encode history memory userMessage maxPromptTokens (dropped, retained)
  least : ∀ d < dropped, d % 2 = 0 → ∀ r ≤ memory.length,
    ¬ Fits encode history memory userMessage maxPromptTokens (d, r)
  longest : ∀ r, retained < r → r ≤ memory.length →
    ¬ Fits encode history memory userMessage maxPromptTokens (dropped, r)

/-- A tokenizer that always answers. -/
def total (encode : String → Bool → List UInt32) : EncodeText := fun text special =>
  .ok (encode text special)

/-- **The loops find the first candidate that fits.** -/
theorem firstFit_eq : ∀ l : List (ℕ × ℕ),
    firstFit (total encode) history memory userMessage maxPromptTokens l =
      .ok ((l.find? fun candidate =>
        decide (Fits encode history memory userMessage maxPromptTokens candidate)).map
          (promptOf encode history memory userMessage))
  | [] => rfl
  | candidate :: rest => by
      have hencode : (total encode (textOf history memory userMessage candidate) true).mapError
          ChatPromptError.tokenizer =
            .ok (encode (textOf history memory userMessage candidate) true) := rfl
      rw [firstFit, hencode]
      by_cases hfits : Fits encode history memory userMessage maxPromptTokens candidate
      · rw [List.find?_cons_of_pos (by simpa using hfits)]
        refine (if_pos hfits).trans ?_
        rw [List.length_drop]
        rfl
      · rw [List.find?_cons_of_neg (by simpa using hfits)]
        exact (if_neg hfits).trans (firstFit_eq rest)

theorem find?_eq_some_iff_best (heven : history.length % 2 = 0) {candidate : ℕ × ℕ} :
    ((candidates history memory).find? fun candidate =>
        decide (Fits encode history memory userMessage maxPromptTokens candidate)) =
      some candidate ↔
        Best encode history memory userMessage maxPromptTokens candidate.1 candidate.2 := by
  rw [find?_eq_some_iff keepsMore_asymm pairwise_candidates, mem_candidates heven,
    decide_eq_true_eq]
  constructor
  · rintro ⟨⟨hle, hmod, hr⟩, hfits, hbefore⟩
    refine ⟨hle, hmod, hr, hfits, fun d hd hdmod r hrle => ?_, fun r hrlt hrle => ?_⟩
    · exact of_decide_eq_false (hbefore (d, r)
        ((mem_candidates heven).2 ⟨(hd.trans_le hle).le, hdmod, hrle⟩) (.inl hd))
    · exact of_decide_eq_false (hbefore (candidate.1, r)
        ((mem_candidates heven).2 ⟨hle, hmod, hrle⟩) (.inr ⟨rfl, hrlt⟩))
  · intro hbest
    refine ⟨⟨hbest.dropped_le, hbest.whole, hbest.retained_le⟩, hbest.fits, ?_⟩
    rintro ⟨d, r⟩ hmem (hlt | ⟨heq, hlt⟩) <;> obtain ⟨-, hmod, hr⟩ := (mem_candidates heven).1 hmem
    · exact decide_eq_false (hbest.least d hlt hmod r hr)
    · obtain rfl : d = candidate.1 := heq
      exact decide_eq_false (hbest.longest r hlt hr)

theorem even_of_valid (hvalid : validateInputs history memory userMessage maxPromptTokens = .ok ()) :
    history.length % 2 = 0 := by
  simp only [validateInputs, bind_eq_ok, exists_unit, refuse_eq_ok, not_not] at hvalid
  exact hvalid.2.2.2.1

/-- **The compiler keeps the most context that fits**, for every tokenizer, and reports an overflow
exactly if nothing fits. -/
theorem compileWithMemory_spec
    (hvalid : validateInputs history memory userMessage maxPromptTokens = .ok ()) :
    (∀ prompt, compileWithMemory (total encode) history memory userMessage maxPromptTokens =
        .ok prompt ↔ ∃ dropped retained,
          Best encode history memory userMessage maxPromptTokens dropped retained ∧
            prompt = promptOf encode history memory userMessage (dropped, retained)) ∧
    ∀ e, compileWithMemory (total encode) history memory userMessage maxPromptTokens = .error e ↔
      (∀ dropped ≤ history.length, dropped % 2 = 0 → ∀ retained ≤ memory.length,
        ¬ Fits encode history memory userMessage maxPromptTokens (dropped, retained)) ∧
      maxPromptTokens < (encode (renderPrompt [] [] userMessage) true).length ∧
      e = .contextOverflow (encode (renderPrompt [] [] userMessage) true).length
        maxPromptTokens := by
  have heven := even_of_valid hvalid
  have hbest (candidate : ℕ × ℕ) :
      ((candidates history memory).find? fun candidate =>
        decide (Fits encode history memory userMessage maxPromptTokens candidate)) =
          some candidate ↔
        Best encode history memory userMessage maxPromptTokens candidate.1 candidate.2 :=
    find?_eq_some_iff_best encode heven
  have hrun : compileWithMemory (total encode) history memory userMessage maxPromptTokens =
      match (candidates history memory).find? fun candidate =>
        decide (Fits encode history memory userMessage maxPromptTokens candidate) with
      | some candidate => .ok (promptOf encode history memory userMessage candidate)
      | none => .error (.contextOverflow (encode (renderPrompt [] [] userMessage) true).length
          maxPromptTokens) := by
    rw [compileWithMemory, hvalid, firstFit_eq]
    rcases (candidates history memory).find? _ with _ | candidate <;> rfl
  rcases hfind : (candidates history memory).find? fun candidate =>
    decide (Fits encode history memory userMessage maxPromptTokens candidate) with _ | candidate
  · -- nothing fits, the bare message included
    rw [hfind] at hrun
    have hnone : ∀ dropped ≤ history.length, dropped % 2 = 0 → ∀ retained ≤ memory.length,
        ¬ Fits encode history memory userMessage maxPromptTokens (dropped, retained) := by
      intro d hd hmod r hr hfits
      exact List.find?_eq_none.1 hfind (d, r) ((mem_candidates heven).2 ⟨hd, hmod, hr⟩)
        (decide_eq_true hfits)
    have hbare : maxPromptTokens < (encode (renderPrompt [] [] userMessage) true).length := by
      have hlast := hnone history.length le_rfl heven 0 (Nat.zero_le _)
      rw [Fits, textOf, List.drop_length, List.take_zero] at hlast
      exact Nat.not_le.1 hlast
    refine ⟨fun prompt => ⟨fun h => ?_, ?_⟩, fun e => ⟨fun h => ?_, ?_⟩⟩
    · rw [hrun] at h
      exact nomatch h
    · rintro ⟨d, r, hdr, -⟩
      exact absurd hdr.fits (hnone d hdr.dropped_le hdr.whole r hdr.retained_le)
    · rw [hrun] at h
      exact ⟨hnone, hbare, (Except.error.inj h).symm⟩
    · rintro ⟨-, -, rfl⟩
      exact hrun
  · rw [hfind] at hrun
    refine ⟨fun prompt => ⟨fun h => ?_, ?_⟩, fun e => ⟨fun h => ?_, ?_⟩⟩
    · rw [hrun] at h
      exact ⟨candidate.1, candidate.2, (hbest candidate).1 hfind, (Except.ok.inj h).symm⟩
    · rintro ⟨d, r, hdr, rfl⟩
      have hsame := hfind.symm.trans ((hbest (d, r)).2 hdr)
      rw [hrun, Option.some.inj hsame]
    · rw [hrun] at h
      exact nomatch h
    · rintro ⟨hnone, -, -⟩
      have hcandidate := (hbest candidate).1 hfind
      exact absurd hcandidate.fits
        (hnone _ hcandidate.dropped_le hcandidate.whole _ hcandidate.retained_le)

/-! ## A tokenizer that is not monotone -/

namespace PromptSample

/-- A tokenizer for which a prompt without memory is the longest. -/
def forgetful (text : String) (_ : Bool) : List UInt32 :=
  if "Relevant memory:".toList <+: text.toList then [] else [0, 0]

theorem forgotten : validateInputs [] ["m"] "q" 1 = .ok () ∧
    (forgetful (renderPrompt [] ["m"] "q") true).length ≤ 1 ∧
    1 < (forgetful (renderPrompt [] [] "q") true).length ∧
    (compileWithMemory (total forgetful) [] ["m"] "q" 1).toOption.isSome := by
  decide +kernel

/-- A tokenizer with a token for every character. -/
def letters (text : String) (_ : Bool) : List UInt32 :=
  text.toList.map Char.val

/-- Two exchanges, and two things remembered. -/
def asked : List ConversationTurn :=
  [.user "where do the geese go in winter?", .assistant "south, most of them", .user "why?",
    .assistant "food"]

def remembered : List String := ["the user likes birds", "the user asked in the autumn"]

theorem valid_asked : validateInputs asked remembered "when?" 110 = .ok () := by
  decide +kernel

/-- The first exchange has to go, and so has what is remembered last. -/
theorem best_asked : Best letters asked remembered "when?" 110 2 1 where
  dropped_le := by decide
  whole := rfl
  retained_le := by decide
  fits := by decide +kernel
  least := by decide +kernel
  longest r hlt hle := by
    obtain rfl : r = 2 := Nat.le_antisymm hle hlt
    decide +kernel

end PromptSample

open PromptSample

/-- The prompt keeps the second exchange and the first memory. -/
theorem compileWithMemory_spec_history :
    compileWithMemory (total letters) asked remembered "when?" 110 =
      .ok (promptOf letters asked remembered "when?" (2, 1)) :=
  ((compileWithMemory_spec letters valid_asked).1 _).2 ⟨2, 1, best_asked, rfl⟩

/-- **Not every bare message that exceeds the budget is an overflow.** -/
theorem not_contextOverflow_iff : ¬ ∀ (encode : String → Bool → List UInt32)
    (history : List ConversationTurn) (memory : List String) (userMessage : String)
    (maxPromptTokens : ℕ), validateInputs history memory userMessage maxPromptTokens = .ok () →
      ((∃ required, compileWithMemory (total encode) history memory userMessage maxPromptTokens =
          .error (.contextOverflow required maxPromptTokens)) ↔
        maxPromptTokens < (encode (renderPrompt [] [] userMessage) true).length) := by
  intro h
  obtain ⟨hinputs, -, hlong, hok⟩ := forgotten
  obtain ⟨required, herror⟩ := (h forgetful [] ["m"] "q" 1 hinputs).2 hlong
  rw [herror] at hok
  exact absurd hok Bool.false_ne_true

end NativeChatPromptCompiler

end NTD97
