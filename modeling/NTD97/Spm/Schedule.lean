import Mathlib
import NTD97.Spm

/-!
# Spm/Schedule — the queue finds the best pair

    ▁ h e l l o ──best pair──▸ ▁ h e ll o ──▸ …          queue: (l, l) ▪ (h, e) ▪ …

The list of symbols and the queue stay together (`Held`): the symbols that are left follow one
another in the text, and every two of them that make a token are in the queue, with the score of
that token.  An entry that is out of date is none of these, so it can be skipped; one that is not is
the best pair of the text, the leftmost of equal ones.
-/

namespace NTD97

open Guard Wire

namespace LlamaSpmTokenizer

/-! ## The best entry -/

/-- The order of the queue: by score, then the leftmost, then the nearest. -/
theorem key_le_iff {a b : SpmBigram} : a.key ≤ b.key ↔
    Binary32.totalRank a.score < Binary32.totalRank b.score ∨
      (Binary32.totalRank a.score = Binary32.totalRank b.score ∧
        (b.left < a.left ∨ (a.left = b.left ∧ b.right ≤ a.right))) := by
  simp only [SpmBigram.key, Prod.Lex.le_iff, ofLex_toLex, OrderDual.toDual_lt_toDual,
    OrderDual.toDual_le_toDual, OrderDual.toDual_inj]

/-- What is later in the queue has no greater score. -/
theorem totalRank_le_of_key_le {a b : SpmBigram} (h : a.key ≤ b.key) :
    Binary32.totalRank a.score ≤ Binary32.totalRank b.score := by
  rcases key_le_iff.1 h with hlt | ⟨heq, -⟩
  · exact hlt.le
  · exact heq.le

/-- Of one score, what is later in the queue is not further left. -/
theorem left_le_of_key_le {a b : SpmBigram} (h : a.key ≤ b.key)
    (hrank : Binary32.totalRank a.score = Binary32.totalRank b.score) : b.left ≤ a.left := by
  rcases key_le_iff.1 h with hlt | ⟨-, hlt | ⟨heq, -⟩⟩
  · exact absurd hrank hlt.ne
  · exact hlt.le
  · exact heq.ge

theorem mem_push {bigram e : SpmBigram} {queue : List SpmBigram} :
    e ∈ push bigram queue ↔ e = bigram ∨ e ∈ queue := List.mem_orderedInsert _

/-- The best entries come first. -/
def Sorted (queue : List SpmBigram) : Prop := queue.Pairwise fun a b => b.key ≤ a.key

/-- The queue stays in order. -/
theorem sorted_push {bigram : SpmBigram} {queue : List SpmBigram} (h : Sorted queue) :
    Sorted (push bigram queue) := by
  have : Std.Total fun a b : SpmBigram => b.key ≤ a.key := ⟨fun a b => le_total b.key a.key⟩
  have : IsTrans SpmBigram fun a b => b.key ≤ a.key := ⟨fun _ _ _ hab hbc => hbc.trans hab⟩
  exact h.orderedInsert bigram queue

/-! ## Neighbours -/

variable (t : LlamaSpmTokenizer) (normalized : Bytes)

/-- The stretch of the text that a symbol covers. -/
def stretch (symbols : List SpmSymbol) (i : ℕ) : Bytes :=
  slice normalized (symbolAt symbols i).start
    ((symbolAt symbols i).start + (symbolAt symbols i).len)

/-- The entry of two neighbours. -/
def entry (symbols : List SpmSymbol) (x y : ℕ) (score : UInt32) : SpmBigram where
  left := x
  right := y
  score := score
  size := (symbolAt symbols x).len + (symbolAt symbols y).len

/-- **Two symbols that follow one another**, in the list and in the text; if they make a token they
are in the queue. -/
structure Follows (symbols : List SpmSymbol) (queue : List SpmBigram) (x y : ℕ) : Prop where
  next : (symbolAt symbols x).next = some y
  prev : (symbolAt symbols y).prev = some x
  touch : (symbolAt symbols x).start + (symbolAt symbols x).len = (symbolAt symbols y).start
  lt : x < y
  queued : ∀ score, t.mergeScore (stretch normalized symbols x ++ stretch normalized symbols y) =
    some score → entry symbols x y score ∈ queue

/-- Every entry has the score of the token it makes, and only tokens are taken apart again. -/
structure Scored (symbols : List SpmSymbol) (bigrams : Bigrams) : Prop where
  sorted : Sorted bigrams.queue
  score : ∀ e ∈ bigrams.queue, t.mergeScore (slice normalized (symbolAt symbols e.left).start
    ((symbolAt symbols e.left).start + e.size)) = some e.score
  merged : ∀ text ∈ bigrams.reverseMerges.entries, (t.mergeScore text).isSome

/-- **The list and the queue stay together**: `is` are the symbols that are left. -/
structure Held (symbols : List SpmSymbol) (bigrams : Bigrams) (is : List ℕ) : Prop
    extends Scored t normalized symbols bigrams where
  chain : is.IsChain (Follows t normalized symbols bigrams.queue)
  head : is.head? = some 0
  first : (symbolAt symbols 0).prev = none
  last : ∀ pre z, is = pre ++ [z] → (symbolAt symbols z).next = none
  alive : ∀ i, (symbolAt symbols i).len ≠ 0 ↔ i ∈ is
  within : ∀ i ∈ is, (symbolAt symbols i).start + (symbolAt symbols i).len ≤ normalized.length

/-- The rank of a pair of neighbours: the greater the score, the better. -/
def rankOf (left right : Bytes) : Option ℤᵒᵈ :=
  (t.mergeScore (left ++ right)).map fun score => OrderDual.toDual (Binary32.totalRank score)

/-- **The naive algorithm**: of all neighbours that make a token merge those of the greatest score,
the leftmost of equal ones, until none make one. -/
def naiveMerges (symbols : List Bytes) : List Bytes :=
  Merging.mergeAll t.rankOf (· ++ ·) symbols

variable {t normalized}

/-- Two stretches that meet are one. -/
theorem slice_append {start mid stop : ℕ} (h : start ≤ mid) (h' : mid ≤ stop) :
    slice normalized start mid ++ slice normalized mid stop = slice normalized start stop := by
  unfold slice
  rw [List.drop_take, List.drop_take, List.drop_take]
  have hsplit : stop - start = (mid - start) + (stop - mid) := by omega
  have hdrop : normalized.drop mid = (normalized.drop start).drop (mid - start) := by
    rw [List.drop_drop, Nat.add_sub_cancel' h]
  rw [hsplit, hdrop, List.take_add]

/-- Two symbols that meet cover one stretch. -/
theorem stretch_append {symbols : List SpmSymbol} {x y : ℕ}
    (h : (symbolAt symbols x).start + (symbolAt symbols x).len = (symbolAt symbols y).start) :
    stretch normalized symbols x ++ stretch normalized symbols y =
      slice normalized (symbolAt symbols x).start ((symbolAt symbols x).start +
        ((symbolAt symbols x).len + (symbolAt symbols y).len)) := by
  unfold stretch
  rw [← h, slice_append (Nat.le_add_right ..) (Nat.le_add_right ..), Nat.add_assoc]

/-! ## Adding a candidate -/

/-- What adding the candidate of two symbols does. -/
structure Added (t : LlamaSpmTokenizer) (normalized : Bytes) (symbols : List SpmSymbol) (x y : ℕ)
    (bigrams bigrams' : Bigrams) : Prop extends Scored t normalized symbols bigrams' where
  sub : ∀ e ∈ bigrams.queue, e ∈ bigrams'.queue
  queued : ∀ score, t.mergeScore (stretch normalized symbols x ++ stretch normalized symbols y) =
    some score → entry symbols x y score ∈ bigrams'.queue

/-- **Two neighbours become a candidate if they make a token.** -/
theorem exists_added {symbols : List SpmSymbol} {bigrams : Bigrams} {x y : ℕ}
    (h : Scored t normalized symbols bigrams) (hx : (symbolAt symbols x).len ≠ 0)
    (hy : (symbolAt symbols y).len ≠ 0)
    (htouch : (symbolAt symbols x).start + (symbolAt symbols x).len = (symbolAt symbols y).start)
    (hwithin : (symbolAt symbols y).start + (symbolAt symbols y).len ≤ normalized.length) :
    ∃ bigrams', t.tryAddBigram normalized symbols x y bigrams = .ok bigrams' ∧
      Added t normalized symbols x y bigrams bigrams' := by
  have hlens : ¬ ((symbolAt symbols x).len = 0 ∨ (symbolAt symbols y).len = 0) :=
    not_or.2 ⟨hx, hy⟩
  have hstop : (symbolAt symbols x).start + (symbolAt symbols x).len +
      (symbolAt symbols y).len ≤ normalized.length := by rwa [htouch]
  have htext : stretch normalized symbols x ++ stretch normalized symbols y =
      slice normalized (symbolAt symbols x).start ((symbolAt symbols x).start +
        (symbolAt symbols x).len + (symbolAt symbols y).len) := by
    rw [stretch_append htouch, Nat.add_assoc]
  unfold tryAddBigram
  dsimp only
  rw [dif_neg hlens, if_neg (not_not.2 htouch), dif_pos hstop]
  split
  · next hnone =>
    refine ⟨bigrams, rfl, h, fun _ he => he, fun score hscore => ?_⟩
    rw [htext, hnone] at hscore
    exact nomatch hscore
  · next score hscore =>
    have hsize : (slice normalized (symbolAt symbols x).start ((symbolAt symbols x).start +
        (symbolAt symbols x).len + (symbolAt symbols y).len)).length =
          (symbolAt symbols x).len + (symbolAt symbols y).len := by
      rw [length_slice hstop]
      omega
    refine ⟨_, rfl, ⟨sorted_push h.sorted, ?_, ?_⟩, fun e he => mem_push.2 (.inr he), ?_⟩
    · intro e he
      rcases mem_push.1 he with rfl | he
      · dsimp only
        rw [hsize, ← Nat.add_assoc]
        exact hscore
      · exact h.score e he
    · intro text htext'
      rcases Std.ExtTreeMap.mem_insert.1 htext' with heq | hmem
      · obtain rfl := Std.LawfulEqCmp.eq_of_compare heq
        rw [hscore]
        rfl
      · exact h.merged text hmem
    · intro score' hscore'
      rw [htext, hscore] at hscore'
      refine mem_push.2 (.inl ?_)
      rw [entry, hsize, Option.some.inj hscore']

/-- Candidates are tried where there are two symbols. -/
theorem exists_link {symbols : List SpmSymbol} {bigrams : Bigrams} {o p : Option ℕ}
    (h : Scored t normalized symbols bigrams) (hxy : ∀ x y, o = some x → p = some y →
      (symbolAt symbols x).len ≠ 0 ∧ (symbolAt symbols y).len ≠ 0 ∧
      (symbolAt symbols x).start + (symbolAt symbols x).len = (symbolAt symbols y).start ∧
      (symbolAt symbols y).start + (symbolAt symbols y).len ≤ normalized.length) :
    ∃ bigrams', t.tryAddLink normalized symbols o p bigrams = .ok bigrams' ∧
      Scored t normalized symbols bigrams' ∧ (∀ e ∈ bigrams.queue, e ∈ bigrams'.queue) ∧
      ∀ x y, o = some x → p = some y → ∀ score,
        t.mergeScore (stretch normalized symbols x ++ stretch normalized symbols y) = some score →
          entry symbols x y score ∈ bigrams'.queue := by
  cases o with
  | none => exact ⟨bigrams, rfl, h, fun _ he => he, fun _ _ hx => (nomatch hx)⟩
  | some x =>
    cases p with
    | none => exact ⟨bigrams, rfl, h, fun _ he => he, fun _ _ _ hy => (nomatch hy)⟩
    | some y =>
      obtain ⟨hx, hy, htouch, hwithin⟩ := hxy x y rfl rfl
      obtain ⟨bigrams', hadd, hadded⟩ := exists_added h hx hy htouch hwithin
      refine ⟨bigrams', hadd, hadded.toScored, hadded.sub, ?_⟩
      rintro _ _ ⟨⟩ ⟨⟩
      exact hadded.queued

/-- Neighbours that a merge leaves as they are still follow one another. -/
theorem Follows.keep {symbols symbols' : List SpmSymbol} {queue queue' : List SpmBigram} {x y : ℕ}
    (h : Follows t normalized symbols queue x y)
    (hx : (symbolAt symbols' x).start = (symbolAt symbols x).start ∧
      (symbolAt symbols' x).len = (symbolAt symbols x).len ∧
      (symbolAt symbols' x).next = (symbolAt symbols x).next)
    (hy : (symbolAt symbols' y).start = (symbolAt symbols y).start ∧
      (symbolAt symbols' y).len = (symbolAt symbols y).len ∧
      (symbolAt symbols' y).prev = (symbolAt symbols y).prev)
    (hsub : ∀ score, entry symbols x y score ∈ queue → entry symbols x y score ∈ queue') :
    Follows t normalized symbols' queue' x y where
  next := hx.2.2.trans h.next
  prev := hy.2.2.trans h.prev
  touch := by rw [hx.1, hx.2.1, hy.1, h.touch]
  lt := h.lt
  queued score hscore := by
    rw [stretch, stretch, hx.1, hx.2.1, hy.1, hy.2.1] at hscore
    rw [entry, hx.2.1, hy.2.1]
    exact hsub score (h.queued score hscore)

/-! ## The list of what is left -/

section Held

variable {symbols : List SpmSymbol} {bigrams : Bigrams} {is : List ℕ}

theorem Held.ascending (h : Held t normalized symbols bigrams is) : is.Pairwise (· < ·) :=
  (h.chain.imp fun _ _ hxy => hxy.lt).pairwise

theorem Held.lt_length (h : Held t normalized symbols bigrams is) {i : ℕ} (hi : i ∈ is) :
    i < symbols.length := lt_length_of_len ((h.alive i).2 hi)

/-- The symbols of an entry that is not out of date are neighbours. -/
theorem Held.split (h : Held t normalized symbols bigrams is) {e : SpmBigram}
    (he : ¬ Stale symbols e) : ∃ before after, is = before ++ e.left :: e.right :: after := by
  simp only [Stale, not_or, not_not] at he
  obtain ⟨⟨hleft, -⟩, -, hnext⟩ := he
  obtain ⟨before, rest, hsplit⟩ := List.append_of_mem ((h.alive _).1 hleft)
  cases rest with
  | nil => exact absurd ((h.last before _ hsplit).symm.trans hnext) (Option.some_ne_none _).symm
  | cons r after =>
    have hfollows := h.chain
    rw [hsplit, List.isChain_append_cons_cons] at hfollows
    obtain rfl := Option.some.inj (hfollows.2.1.next.symm.trans hnext)
    exact ⟨before, after, hsplit⟩

/-- **What a merge does to the symbols.** -/
theorem symbolAt_absorb {e : SpmBigram} (hleft : e.left < symbols.length)
    (hright : e.right < symbols.length) (hne : e.left ≠ e.right)
    (hnext : ∀ n, (symbolAt symbols e.right).next = some n → n < symbols.length) (i : ℕ) :
    symbolAt (absorb symbols e) i = {
      start := (symbolAt symbols i).start
      len := if i = e.right then 0 else if i = e.left then e.size else (symbolAt symbols i).len
      prev := if (symbolAt symbols e.right).next = some i then some e.left
        else (symbolAt symbols i).prev
      next := if i = e.left then (symbolAt symbols e.right).next
        else (symbolAt symbols i).next } := by
  have hright' : e.right < (update symbols e.left fun symbol => { symbol with
      len := e.size, next := (symbolAt symbols e.right).next }).length := by rwa [update_length]
  unfold absorb
  dsimp only
  cases hn : (symbolAt symbols e.right).next with
  | none =>
    rw [hn] at hright'
    dsimp only
    rw [symbolAt_update hright', symbolAt_update hleft]
    by_cases hi : i = e.right
    · have hi' : i ≠ e.left := fun heq => hne (heq.symm.trans hi)
      simp only [if_pos hi, if_neg hi', reduceCtorEq, if_false]
    · by_cases hi' : i = e.left
      · simp only [if_neg hi, if_pos hi', reduceCtorEq, if_false]
      · simp only [if_neg hi, if_neg hi', reduceCtorEq, if_false]
  | some n =>
    rw [hn] at hright'
    dsimp only
    rw [symbolAt_update (by rw [update_length, update_length]; exact hnext n hn),
      symbolAt_update hright', symbolAt_update hleft]
    simp only [Option.some.injEq, eq_comm (a := n)]
    by_cases hi : i = e.right
    · have hi' : i ≠ e.left := fun heq => hne (heq.symm.trans hi)
      simp only [if_pos hi, if_neg hi']
      split_ifs <;> rfl
    · by_cases hi' : i = e.left
      · simp only [if_neg hi, if_pos hi']
        split_ifs <;> rfl
      · simp only [if_neg hi, if_neg hi']
        split_ifs <;> rfl

end Held

/-! ## One merge -/

/-- **Where a merge happens**: the best entry is not out of date, and these are its neighbours. -/
structure Site (t : LlamaSpmTokenizer) (normalized : Bytes) (symbols : List SpmSymbol)
    (bigrams : Bigrams) (e : SpmBigram) (before after : List ℕ) : Prop where
  held : Held t normalized symbols bigrams (before ++ e.left :: e.right :: after)
  left : (symbolAt symbols e.left).len ≠ 0
  right : (symbolAt symbols e.right).len ≠ 0
  size : (symbolAt symbols e.left).len + (symbolAt symbols e.right).len = e.size

namespace Site

variable {symbols : List SpmSymbol} {bigrams : Bigrams} {e : SpmBigram} {before after : List ℕ}
  (h : Site t normalized symbols bigrams e before after)

include h

/-- The pair is a pair of neighbours. -/
theorem follows : Follows t normalized symbols bigrams.queue e.left e.right :=
  (List.isChain_append_cons_cons.1 h.held.chain).2.1

theorem ne : e.left ≠ e.right := h.follows.lt.ne

theorem lt_of_mem_before {x : ℕ} (hx : x ∈ before) : x < e.left :=
  (List.pairwise_append.1 h.held.ascending).2.2 x hx _ (by simp)

theorem lt_of_mem_after {y : ℕ} (hy : y ∈ after) : e.right < y :=
  (List.pairwise_cons.1 (List.pairwise_cons.1 (List.pairwise_append.1 h.held.ascending).2.1).2).1
    y hy

/-- The symbol before the pair, if there is one. -/
theorem before_of_prev {x : ℕ} (hx : (symbolAt symbols e.left).prev = some x) :
    ∃ b, before = b ++ [x] ∧ Follows t normalized symbols bigrams.queue x e.left := by
  rcases List.eq_nil_or_concat before with rfl | ⟨b, y, rfl⟩
  · have hzero : e.left = 0 := Option.some.inj h.held.head
    rw [hzero, h.held.first] at hx
    exact nomatch hx
  · have hchain := (List.isChain_append_cons_cons.1 h.held.chain).1
    rw [List.concat_eq_append, List.append_assoc] at hchain
    have hyl := (List.isChain_append_cons_cons.1 hchain).2.1
    obtain rfl := Option.some.inj (hyl.prev.symm.trans hx)
    exact ⟨b, List.concat_eq_append, hyl⟩

/-- The symbol after the pair, if there is one. -/
theorem after_of_next {n : ℕ} (hn : (symbolAt symbols e.right).next = some n) :
    ∃ a, after = n :: a ∧ Follows t normalized symbols bigrams.queue e.right n := by
  cases after with
  | nil =>
    rw [h.held.last (before ++ [e.left]) e.right (by simp)] at hn
    exact nomatch hn
  | cons m a =>
    have hrm := (List.isChain_cons_cons.1 (List.isChain_append_cons_cons.1 h.held.chain).2.2).1
    obtain rfl := Option.some.inj (hrm.next.symm.trans hn)
    exact ⟨a, rfl, hrm⟩

theorem symbolAt_absorb (i : ℕ) : symbolAt (absorb symbols e) i = {
    start := (symbolAt symbols i).start
    len := if i = e.right then 0 else if i = e.left then e.size else (symbolAt symbols i).len
    prev := if (symbolAt symbols e.right).next = some i then some e.left
      else (symbolAt symbols i).prev
    next := if i = e.left then (symbolAt symbols e.right).next else (symbolAt symbols i).next } :=
  LlamaSpmTokenizer.symbolAt_absorb (lt_length_of_len h.left) (lt_length_of_len h.right) h.ne
    (fun n hn => by
      obtain ⟨a, rfl, -⟩ := h.after_of_next hn
      exact h.held.lt_length (by simp)) i

/-- No symbol begins elsewhere. -/
theorem start (i : ℕ) : (symbolAt (absorb symbols e) i).start = (symbolAt symbols i).start := by
  rw [h.symbolAt_absorb]

/-- The left symbol covers both. -/
theorem len_left : (symbolAt (absorb symbols e) e.left).len = e.size := by
  rw [h.symbolAt_absorb]
  exact (if_neg h.ne).trans (if_pos rfl)

/-- The right symbol is gone. -/
theorem len_right : (symbolAt (absorb symbols e) e.right).len = 0 := by
  rw [h.symbolAt_absorb]
  exact if_pos rfl

/-- The other symbols cover what they did. -/
theorem len_other {i : ℕ} (hl : i ≠ e.left) (hr : i ≠ e.right) :
    (symbolAt (absorb symbols e) i).len = (symbolAt symbols i).len := by
  rw [h.symbolAt_absorb]
  exact (if_neg hr).trans (if_neg hl)

/-- The left symbol is followed by what followed the right one. -/
theorem next_left :
    (symbolAt (absorb symbols e) e.left).next = (symbolAt symbols e.right).next := by
  rw [h.symbolAt_absorb]
  exact if_pos rfl

theorem next_other {i : ℕ} (hl : i ≠ e.left) :
    (symbolAt (absorb symbols e) i).next = (symbolAt symbols i).next := by
  rw [h.symbolAt_absorb]
  exact if_neg hl

/-- What followed the right symbol follows the left one. -/
theorem prev_next {n : ℕ} (hn : (symbolAt symbols e.right).next = some n) :
    (symbolAt (absorb symbols e) n).prev = some e.left := by
  rw [h.symbolAt_absorb]
  exact if_pos hn

theorem prev_other {i : ℕ} (hi : (symbolAt symbols e.right).next ≠ some i) :
    (symbolAt (absorb symbols e) i).prev = (symbolAt symbols i).prev := by
  rw [h.symbolAt_absorb]
  exact if_neg hi

/-- Up to the right symbol, what was before a symbol still is. -/
theorem prev_low {i : ℕ} (hi : i ≤ e.right) :
    (symbolAt (absorb symbols e) i).prev = (symbolAt symbols i).prev := by
  refine h.prev_other fun hn => ?_
  obtain ⟨a, -, hrn⟩ := h.after_of_next hn
  exact absurd hrn.lt (not_lt.2 hi)

/-- The merged symbol ends where the right one did. -/
theorem stop : (symbolAt symbols e.left).start + e.size =
    (symbolAt symbols e.right).start + (symbolAt symbols e.right).len := by
  rw [← h.size, ← h.follows.touch, Nat.add_assoc]

/-- The pair covers something. -/
theorem size_ne : e.size ≠ 0 := by
  have := h.left
  have := h.size
  omega

theorem stop_le : (symbolAt symbols e.left).start + e.size ≤ normalized.length := by
  rw [h.stop]
  exact h.held.within e.right (by simp)

/-- The entries that are left still have the scores of their tokens. -/
theorem scored {queue : List SpmBigram} (hqueue : bigrams.queue = e :: queue) :
    Scored t normalized (absorb symbols e) { bigrams with queue } where
  sorted := by
    have hsorted := h.held.sorted
    rw [hqueue] at hsorted
    exact hsorted.of_cons
  score e' he' := by
    rw [h.start]
    exact h.held.score e' (hqueue ▸ List.mem_cons_of_mem _ he')
  merged := h.held.merged

/-- **The new neighbours become candidates.** -/
theorem exists_addNeighbours {queue : List SpmBigram} (hqueue : bigrams.queue = e :: queue) :
    ∃ bigrams', t.addNeighbours normalized (absorb symbols e) e.left { bigrams with queue } =
        .ok bigrams' ∧
      Scored t normalized (absorb symbols e) bigrams' ∧ (∀ e' ∈ queue, e' ∈ bigrams'.queue) ∧
      (∀ x, (symbolAt symbols e.left).prev = some x → ∀ score,
        t.mergeScore (stretch normalized (absorb symbols e) x ++
          stretch normalized (absorb symbols e) e.left) = some score →
        entry (absorb symbols e) x e.left score ∈ bigrams'.queue) ∧
      ∀ n, (symbolAt symbols e.right).next = some n → ∀ score,
        t.mergeScore (stretch normalized (absorb symbols e) e.left ++
          stretch normalized (absorb symbols e) n) = some score →
        entry (absorb symbols e) e.left n score ∈ bigrams'.queue := by
  have hprev := h.prev_low h.follows.lt.le
  obtain ⟨mid, hmid, hscored, hsub, hqueued⟩ :=
    exists_link (o := (symbolAt (absorb symbols e) e.left).prev) (p := some e.left)
      (h.scored hqueue) (by
        rintro x _ hx ⟨⟩
        obtain ⟨b, rfl, hxl⟩ := h.before_of_prev (hprev.symm.trans hx)
        have hlt : x < e.left := hxl.lt
        rw [h.len_left, h.len_other hlt.ne (hlt.trans h.follows.lt).ne, h.start, h.start]
        exact ⟨(h.held.alive x).2 (by simp), h.size_ne, hxl.touch, h.stop_le⟩)
  obtain ⟨bigrams', hadd, hscored', hsub', hqueued'⟩ :=
    exists_link (o := some e.left) (p := (symbolAt (absorb symbols e) e.left).next) hscored (by
      rintro _ n ⟨⟩ hn
      obtain ⟨a, rfl, hrn⟩ := h.after_of_next (h.next_left.symm.trans hn)
      have hlt : e.right < n := hrn.lt
      rw [h.len_left, h.len_other (h.follows.lt.trans hlt).ne' hlt.ne', h.start, h.start]
      exact ⟨h.size_ne, (h.held.alive n).2 (by simp), h.stop.trans hrn.touch,
        h.held.within n (by simp)⟩)
  refine ⟨bigrams', ?_, hscored', fun e' he' => hsub' e' (hsub e' he'), ?_, ?_⟩
  · unfold addNeighbours
    rw [hmid]
    exact hadd
  · intro x hx score hscore
    exact hsub' _ (hqueued x e.left (hprev.trans hx) rfl score hscore)
  · intro n hn score hscore
    exact hqueued' e.left n rfl (h.next_left.trans hn) score hscore

/-- Two neighbours away from the pair are neighbours as before. -/
theorem keep {queue' : List SpmBigram} {x y : ℕ}
    (hxy : Follows t normalized symbols bigrams.queue x y) (hx : x ≠ e.left ∧ x ≠ e.right)
    (hy : y ≠ e.left ∧ y ≠ e.right) (hn : (symbolAt symbols e.right).next ≠ some y)
    {queue : List SpmBigram} (hqueue : bigrams.queue = e :: queue)
    (hsub : ∀ e' ∈ queue, e' ∈ queue') :
    Follows t normalized (absorb symbols e) queue' x y := by
  refine hxy.keep ⟨h.start x, h.len_other hx.1 hx.2, h.next_other hx.1⟩
    ⟨h.start y, h.len_other hy.1 hy.2, h.prev_other hn⟩ fun score hentry => ?_
  rw [hqueue] at hentry
  refine hsub _ ((List.mem_cons.1 hentry).resolve_left fun heq => hx.1 ?_)
  exact congrArg SpmBigram.left heq

/-- The chain up to the merged symbol. -/
theorem chain_before {queue queue' : List SpmBigram} (hqueue : bigrams.queue = e :: queue)
    (hsub : ∀ e' ∈ queue, e' ∈ queue')
    (hqueued : ∀ x, (symbolAt symbols e.left).prev = some x → ∀ score,
      t.mergeScore (stretch normalized (absorb symbols e) x ++
        stretch normalized (absorb symbols e) e.left) = some score →
      entry (absorb symbols e) x e.left score ∈ queue') :
    (before ++ [e.left]).IsChain (Follows t normalized (absorb symbols e) queue') := by
  have hchain := (List.isChain_append_cons_cons.1 h.held.chain).1
  have hlow : ∀ x ∈ before, (x ≠ e.left ∧ x ≠ e.right) ∧
      (symbolAt symbols e.right).next ≠ some x := fun x hx => by
    have hlt := h.lt_of_mem_before hx
    have hlt' := hlt.trans h.follows.lt
    refine ⟨⟨hlt.ne, hlt'.ne⟩, fun hn => ?_⟩
    obtain ⟨a, -, hrn⟩ := h.after_of_next hn
    exact lt_asymm hlt' hrn.lt
  rcases List.eq_nil_or_concat before with rfl | ⟨b, x, rfl⟩
  · exact List.isChain_singleton _
  · rw [List.concat_eq_append] at hlow hchain ⊢
    rw [List.append_assoc] at hchain ⊢
    obtain ⟨hb, hxl, -⟩ := List.isChain_append_cons_cons.1 hchain
    refine List.isChain_append_cons_cons.2 ⟨?_, ?_, List.isChain_singleton _⟩
    · refine hb.imp_of_mem_imp fun y z hy hz hyz => ?_
      exact h.keep hyz (hlow y hy).1 (hlow z hz).1 (hlow z hz).2 hqueue hsub
    · have hx := (hlow x (by simp)).1
      exact {
        next := (h.next_other hx.1).trans hxl.next
        prev := (h.prev_low h.follows.lt.le).trans hxl.prev
        touch := by rw [h.start, h.start, h.len_other hx.1 hx.2, hxl.touch]
        lt := hxl.lt
        queued := hqueued x hxl.prev }

/-- The chain from the merged symbol on. -/
theorem chain_after {queue queue' : List SpmBigram} (hqueue : bigrams.queue = e :: queue)
    (hsub : ∀ e' ∈ queue, e' ∈ queue')
    (hqueued : ∀ n, (symbolAt symbols e.right).next = some n → ∀ score,
      t.mergeScore (stretch normalized (absorb symbols e) e.left ++
        stretch normalized (absorb symbols e) n) = some score →
      entry (absorb symbols e) e.left n score ∈ queue') :
    (e.left :: after).IsChain (Follows t normalized (absorb symbols e) queue') := by
  have hhigh : ∀ y ∈ after, y ≠ e.left ∧ y ≠ e.right := fun y hy => by
    have hlt := h.lt_of_mem_after hy
    exact ⟨(h.follows.lt.trans hlt).ne', hlt.ne'⟩
  have hchain := (List.isChain_append_cons_cons.1 h.held.chain).2.2
  cases after with
  | nil => exact List.isChain_singleton _
  | cons n after =>
    obtain ⟨hrn, hrest⟩ := List.isChain_cons_cons.1 hchain
    have hn := hhigh n (by simp)
    refine List.isChain_cons_cons.2 ⟨?_, ?_⟩
    · exact {
        next := h.next_left.trans hrn.next
        prev := h.prev_next hrn.next
        touch := by rw [h.start, h.start, h.len_left, h.stop, hrn.touch]
        lt := h.follows.lt.trans hrn.lt
        queued := hqueued n hrn.next }
    · have hgt := (List.pairwise_cons.1 (hrest.imp fun _ _ hxy => hxy.lt).pairwise).1
      refine hrest.imp_of_mem_tail_imp fun y z hy hz hyz => ?_
      refine h.keep hyz (hhigh y hy) (hhigh z (List.mem_of_mem_tail hz)) (fun heq => ?_) hqueue hsub
      rw [hrn.next] at heq
      exact (hgt z hz).ne (Option.some.inj heq)

/-- **A merge keeps the list and the queue together.** -/
theorem exists_held {queue : List SpmBigram} (hqueue : bigrams.queue = e :: queue) :
    ∃ bigrams', t.addNeighbours normalized (absorb symbols e) e.left { bigrams with queue } =
        .ok bigrams' ∧
      Held t normalized (absorb symbols e) bigrams' (before ++ e.left :: after) := by
  obtain ⟨bigrams', hadd, hscored, hsub, hprev, hnext⟩ := h.exists_addNeighbours hqueue
  have hmem : ∀ {i}, i ∈ before ++ e.left :: after → i ≠ e.left → i ≠ e.right ∧
      i ∈ before ++ e.left :: e.right :: after := by
    intro i hi hl
    rcases List.mem_append.1 hi with hi | hi
    · exact ⟨((h.lt_of_mem_before hi).trans h.follows.lt).ne, List.mem_append_left _ hi⟩
    · have hi := (List.mem_cons.1 hi).resolve_left hl
      exact ⟨(h.lt_of_mem_after hi).ne', by simp [hi]⟩
  refine ⟨bigrams', hadd, { hscored with
    chain := List.isChain_split.2
      ⟨h.chain_before hqueue hsub hprev, h.chain_after hqueue hsub hnext⟩
    head := ?_, first := ?_, last := ?_, alive := ?_, within := ?_ }⟩
  · have hhead := h.held.head
    cases before with
    | nil => exact hhead
    | cons x before => exact hhead
  · exact (h.prev_low (Nat.zero_le _)).trans h.held.first
  · intro pre z heq
    rcases List.eq_nil_or_concat after with rfl | ⟨a, w, rfl⟩
    · obtain ⟨-, hz⟩ := List.append_inj' heq rfl
      cases hz
      rw [h.next_left]
      exact h.held.last (before ++ [e.left]) e.right (by simp)
    · rw [List.concat_eq_append] at heq
      have hsplit : (before ++ e.left :: a) ++ [w] = pre ++ [z] := by simpa using heq
      obtain ⟨-, hz⟩ := List.append_inj' hsplit rfl
      cases hz
      have hw : z ∈ a.concat z := by simp
      rw [h.next_other (h.follows.lt.trans (h.lt_of_mem_after hw)).ne']
      exact h.held.last (before ++ e.left :: e.right :: a) z (by simp)
  · intro i
    by_cases hl : i = e.left
    · subst hl
      rw [h.len_left]
      exact iff_of_true h.size_ne (by simp)
    · by_cases hr : i = e.right
      · subst hr
        rw [h.len_right]
        exact iff_of_false (not_not.2 rfl) fun hi => (hmem hi hl).1 rfl
      · rw [h.len_other hl hr, h.held.alive]
        simp [hl, hr]
  · intro i hi
    by_cases hl : i = e.left
    · subst hl
      rw [h.start, h.len_left]
      exact h.stop_le
    · obtain ⟨hr, hi⟩ := hmem hi hl
      rw [h.start, h.len_other hl hr]
      exact h.held.within i hi

/-! ### It is the best merge -/

/-- The pair at the head of the queue has the rank of its score. -/
theorem rankOf_eq {queue : List SpmBigram} (hqueue : bigrams.queue = e :: queue) :
    t.rankOf (stretch normalized symbols e.left) (stretch normalized symbols e.right) =
      some (OrderDual.toDual (Binary32.totalRank e.score)) := by
  have hscore := h.held.score e (hqueue ▸ List.mem_cons_self)
  rw [rankOf, stretch_append h.follows.touch, h.size, hscore]
  rfl

/-- No neighbours have a better rank than the best entry, and none further left one as good. -/
theorem best {queue : List SpmBigram} (hqueue : bigrams.queue = e :: queue) {x y : ℕ}
    (hxy : Follows t normalized symbols bigrams.queue x y) {k : ℤᵒᵈ}
    (hk : t.rankOf (stretch normalized symbols x) (stretch normalized symbols y) = some k) :
    OrderDual.toDual (Binary32.totalRank e.score) ≤ k ∧
      (OrderDual.toDual (Binary32.totalRank e.score) = k → e.left ≤ x) := by
  obtain ⟨score, hscore, rfl⟩ := Option.map_eq_some_iff.1 hk
  have hentry := hxy.queued score hscore
  have hkey : (entry symbols x y score).key ≤ e.key := by
    have hsorted := h.held.sorted
    rw [hqueue] at hentry hsorted
    rcases List.mem_cons.1 hentry with heq | hmem
    · exact (congrArg SpmBigram.key heq).le
    · exact (List.pairwise_cons.1 hsorted).1 _ hmem
  exact ⟨OrderDual.toDual_le_toDual.2 (totalRank_le_of_key_le hkey),
    fun heq => left_le_of_key_le hkey (OrderDual.toDual_inj.1 heq).symm⟩

/-- **The merge is the one the naive algorithm makes.** -/
theorem naiveMerges_eq {queue : List SpmBigram} (hqueue : bigrams.queue = e :: queue) :
    naiveMerges t ((before ++ e.left :: e.right :: after).map (stretch normalized symbols)) =
      naiveMerges t
        ((before ++ e.left :: after).map (stretch normalized (absorb symbols e))) := by
  have hrank := h.rankOf_eq hqueue
  have hsame : ∀ i, i ≠ e.left → i ≠ e.right →
      stretch normalized (absorb symbols e) i = stretch normalized symbols i := fun i hl hr => by
    rw [stretch, stretch, h.start, h.len_other hl hr]
  have hmerged : stretch normalized (absorb symbols e) e.left =
      stretch normalized symbols e.left ++ stretch normalized symbols e.right := by
    rw [stretch_append h.follows.touch, stretch, h.start, h.len_left, h.size]
  have hbefore : before.map (stretch normalized (absorb symbols e)) =
      before.map (stretch normalized symbols) := List.map_congr_left fun i hi =>
    hsame i (h.lt_of_mem_before hi).ne ((h.lt_of_mem_before hi).trans h.follows.lt).ne
  have hafter : after.map (stretch normalized (absorb symbols e)) =
      after.map (stretch normalized symbols) := List.map_congr_left fun i hi =>
    hsame i (h.follows.lt.trans (h.lt_of_mem_after hi)).ne' (h.lt_of_mem_after hi).ne'
  simp only [List.map_append, List.map_cons, hbefore, hafter, hmerged]
  have hfloor : Merging.Floor t.rankOf (OrderDual.toDual (Binary32.totalRank e.score))
      (before.map (stretch normalized symbols) ++ stretch normalized symbols e.left ::
        stretch normalized symbols e.right :: after.map (stretch normalized symbols)) := by
    have hmap : Merging.Floor t.rankOf (OrderDual.toDual (Binary32.totalRank e.score))
        ((before ++ e.left :: e.right :: after).map (stretch normalized symbols)) :=
      (List.isChain_map _).2 (h.held.chain.imp fun x y hxy k hk => (h.best hqueue hxy hk).1)
    simpa only [List.map_append, List.map_cons] using hmap
  have hfree : Merging.Free t.rankOf (OrderDual.toDual (Binary32.totalRank e.score))
      (before.map (stretch normalized symbols) ++ [stretch normalized symbols e.left]) := by
    have hle : ∀ y ∈ before ++ [e.left], y ≤ e.left := fun y hy => by
      rcases List.mem_append.1 hy with hy | hy
      · exact (h.lt_of_mem_before hy).le
      · exact (List.mem_singleton.1 hy).le
    have hmap : Merging.Free t.rankOf (OrderDual.toDual (Binary32.totalRank e.score))
        ((before ++ [e.left]).map (stretch normalized symbols)) :=
      (List.isChain_map _).2 ((List.isChain_append_cons_cons.1 h.held.chain).1.imp_of_mem_imp
        fun x y _ hy hxy hk =>
          absurd ((h.best hqueue hxy hk).2 rfl) (not_le.2 (hxy.lt.trans_le (hle y hy))))
    simpa only [List.map_append, List.map_cons, List.map_nil] using hmap
  have hbest := Merging.bestPair_append hrank hfloor hfree
  rw [naiveMerges, Merging.mergeAll_of_some hbest, Merging.mergeAt_append]
  rfl

end Site

/-! ## The run of the loop -/

section Loop

variable {symbols : List SpmSymbol} {bigrams : Bigrams} {is : List ℕ}

/-- **An entry that is out of date is skipped.** -/
theorem Held.skip (h : Held t normalized symbols bigrams is) {e : SpmBigram}
    {queue : List SpmBigram} (hqueue : bigrams.queue = e :: queue) (he : Stale symbols e) :
    Held t normalized symbols { bigrams with queue } is where
  sorted := by
    have hsorted := h.sorted
    rw [hqueue] at hsorted
    exact hsorted.of_cons
  score e' he' := h.score e' (hqueue ▸ List.mem_cons_of_mem _ he')
  merged := h.merged
  chain := h.chain.imp_of_mem_imp fun x y hx hy hxy => { hxy with
    queued := fun score hscore => by
      have hentry := hxy.queued score hscore
      rw [hqueue] at hentry
      refine (List.mem_cons.1 hentry).resolve_left fun heq => ?_
      -- neighbours are never out of date
      rcases (heq ▸ he : Stale symbols (entry symbols x y score)) with hlen | hsize | hnext
      · exact hlen.elim (absurd · ((h.alive x).2 hx)) (absurd · ((h.alive y).2 hy))
      · exact hsize rfl
      · exact hnext hxy.next }
  head := h.head
  first := h.first
  last := h.last
  alive := h.alive
  within := h.within

/-- With enough fuel the walk visits the chain. -/
theorem walk_eq {fuel i : ℕ} {is : List ℕ}
    (hchain : (i :: is).IsChain fun x y => (symbolAt symbols x).next = some y)
    (hlast : ∀ pre z, i :: is = pre ++ [z] → (symbolAt symbols z).next = none)
    (hfuel : (i :: is).length ≤ fuel) :
    walk symbols fuel (some i) = (i :: is).map (symbolAt symbols) := by
  induction is generalizing fuel i with
  | nil =>
    obtain ⟨fuel, rfl⟩ := Nat.exists_eq_succ_of_ne_zero (Nat.pos_iff_ne_zero.1 hfuel)
    rw [walk, hlast [] i rfl]
    cases fuel <;> rfl
  | cons j is ih =>
    obtain ⟨fuel, rfl⟩ := Nat.exists_eq_succ_of_ne_zero
      (Nat.pos_iff_ne_zero.1 ((Nat.succ_pos _).trans_le hfuel))
    obtain ⟨hnext, hrest⟩ := List.isChain_cons_cons.1 hchain
    rw [walk, hnext, ih hrest (fun pre z heq => hlast (i :: pre) z (by rw [heq]; rfl))
      (Nat.le_of_succ_le_succ hfuel)]
    rfl

/-- **The pieces are the stretches of the symbols that are left.** -/
theorem Held.pieces_eq (h : Held t normalized symbols bigrams is) :
    pieces normalized symbols = is.map (stretch normalized symbols) := by
  have hle : is.length ≤ symbols.length := by
    have hnodup : is.Nodup := h.ascending.imp fun hlt => hlt.ne
    have hsub : is ⊆ List.range symbols.length := fun i hi => List.mem_range.2 (h.lt_length hi)
    exact (List.subperm_of_subset hnodup hsub).length_le.trans (List.length_range).le
  cases is with
  | nil => exact nomatch h.head
  | cons i is =>
    obtain rfl := Option.some.inj h.head
    have hwalk := walk_eq (h.chain.imp fun _ _ hxy => hxy.next) h.last hle
    have hall : ∀ symbol ∈ (0 :: is).map (symbolAt symbols), (decide (symbol.len ≠ 0)) = true := by
      intro symbol hsymbol
      obtain ⟨i, hi, rfl⟩ := List.mem_map.1 hsymbol
      exact decide_eq_true ((h.alive i).2 hi)
    rw [pieces, hwalk, List.filter_eq_self.2 hall, List.map_map]
    rfl

/-- Nothing is left to merge when the queue is empty. -/
theorem Held.naiveMerges_eq (h : Held t normalized symbols bigrams is)
    (hqueue : bigrams.queue = []) :
    naiveMerges t (is.map (stretch normalized symbols)) = is.map (stretch normalized symbols) := by
  refine Merging.mergeAll_of_none (Merging.bestPair_eq_none.2 ((List.isChain_map _).2 ?_))
  refine h.chain.imp fun x y hxy => ?_
  rw [rankOf, Option.map_eq_none_iff]
  cases hscore : t.mergeScore (stretch normalized symbols x ++ stretch normalized symbols y) with
  | none => rfl
  | some score =>
    have hentry := hxy.queued score hscore
    rw [hqueue] at hentry
    exact nomatch hentry

end Loop

/-- **The loop ends with what the naive algorithm ends with.** -/
theorem Held.mergeLoop_eq {symbols : List SpmSymbol} {bigrams : Bigrams} {is : List ℕ}
    (h : Held t normalized symbols bigrams is) :
    ∃ symbols' reverseMerges,
      t.mergeLoop normalized symbols bigrams = .ok (symbols', reverseMerges) ∧
      (∀ text ∈ reverseMerges.entries, (t.mergeScore text).isSome) ∧
      pieces normalized symbols' = naiveMerges t (is.map (stretch normalized symbols)) := by
  rw [mergeLoop]
  split
  · next hqueue =>
    refine ⟨symbols, bigrams.reverseMerges, rfl, h.merged, ?_⟩
    rw [h.pieces_eq, h.naiveMerges_eq hqueue]
  · next e queue hqueue =>
    by_cases hstale : Stale symbols e
    · rw [dif_pos hstale]
      have hlt : 3 * live symbols + queue.length < 3 * live symbols + bigrams.queue.length :=
        Nat.add_lt_add_left (hqueue ▸ Nat.lt_succ_self _) _
      exact (h.skip hqueue hstale).mergeLoop_eq
    · obtain ⟨before, after, rfl⟩ := h.split hstale
      have hlive := live_absorb hstale
      rw [dif_neg hstale]
      simp only [Stale, not_or, not_not] at hstale
      have hsite : Site t normalized symbols bigrams e before after :=
        ⟨h, hstale.1.1, hstale.1.2, hstale.2.1⟩
      obtain ⟨bigrams', hadd, hheld⟩ := hsite.exists_held hqueue
      have hlt : 3 * live (absorb symbols e) + bigrams'.queue.length <
          3 * live symbols + bigrams.queue.length := by
        have hlen := addNeighbours_queue_le t hadd
        rw [hqueue, List.length_cons]
        dsimp only at hlen
        omega
      rw [hsite.naiveMerges_eq hqueue]
      split
      · next bigrams'' hadd' =>
        obtain rfl := Except.ok.inj (hadd.symm.trans hadd')
        exact hheld.mergeLoop_eq
      · next hadd' => cases hadd.symm.trans hadd'
termination_by 3 * live symbols + bigrams.queue.length
decreasing_by all_goals exact hlt


/-! ## The first symbols -/

/-- Only the empty text has no symbols. -/
theorem splitFrom_eq_nil (offset index : ℕ) (text : Bytes) :
    splitFrom offset index text = [] ↔ text = [] := by
  cases text with
  | nil => rw [splitFrom]; simp
  | cons first rest => rw [splitFrom]; simp

/-- What a text is split into, from an offset and an index on. -/
structure Split (offset index : ℕ) (text : Bytes) (symbols : List SpmSymbol) : Prop where
  len : ∀ s ∈ symbols, s.len ≠ 0
  stop_le : ∀ s ∈ symbols, s.start + s.len ≤ offset + text.length
  touch : symbols.IsChain fun a b => a.start + a.len = b.start
  start : ∀ s ∈ symbols.head?, s.start = offset
  prev : ∀ j s, symbols[j]? = some s → s.prev = if index + j = 0 then none else some (index + j - 1)
  next : ∀ j s, symbols[j]? = some s →
    s.next = if j + 1 < symbols.length then some (index + j + 1) else none

/-- **The characters of a text lie next to each other, and are linked.** -/
theorem split_splitFrom (offset index : ℕ) (text : Bytes) :
    Split offset index text (splitFrom offset index text) := by
  cases htext : text with
  | nil =>
    rw [splitFrom]
    exact ⟨by simp, by simp, List.isChain_nil, by simp, by simp, by simp⟩
  | cons first rest =>
    have hpos := utf8CharLen_pos first
    have hlen : ((first :: rest).drop (min (utf8CharLen first) (rest.length + 1))).length =
        rest.length + 1 - min (utf8CharLen first) (rest.length + 1) := by
      rw [List.length_drop, List.length_cons]
    have hlt : ((first :: rest).drop (min (utf8CharLen first) (rest.length + 1))).length <
        text.length := by
      rw [hlen, htext, List.length_cons]
      omega
    have ih := split_splitFrom (offset + min (utf8CharLen first) (rest.length + 1)) (index + 1)
      ((first :: rest).drop (min (utf8CharLen first) (rest.length + 1)))
    have hnil := splitFrom_eq_nil (offset + min (utf8CharLen first) (rest.length + 1)) (index + 1)
      ((first :: rest).drop (min (utf8CharLen first) (rest.length + 1)))
    rw [splitFrom]
    generalize splitFrom (offset + min (utf8CharLen first) (rest.length + 1)) (index + 1)
      ((first :: rest).drop (min (utf8CharLen first) (rest.length + 1))) = tail at ih hnil ⊢
    refine ⟨?_, ?_, ?_, ?_, ?_, ?_⟩
    · refine List.forall_mem_cons.2 ⟨?_, ih.len⟩
      dsimp only
      omega
    · refine List.forall_mem_cons.2 ⟨?_, fun s hs => (ih.stop_le s hs).trans ?_⟩
      · rw [List.length_cons]
        dsimp only
        omega
      · rw [hlen, List.length_cons]
        omega
    · refine List.isChain_cons.2 ⟨fun s hs => (ih.start s hs).symm, ih.touch⟩
    · rintro s ⟨⟩
      rfl
    · rintro (_ | j) s hs
      · cases hs
        rfl
      · rw [ih.prev j s hs, if_neg (by omega), if_neg (by omega)]
        exact congrArg some (by omega)
    · rintro (_ | j) s hs
      · cases hs
        dsimp only
        by_cases hempty : (first :: rest).drop (min (utf8CharLen first) (rest.length + 1)) = []
        · rw [if_pos hempty, hnil.2 hempty, if_neg (by simp)]
        · have htail : tail ≠ [] := fun h => hempty (hnil.1 h)
          have hcons : 0 + 1 < tail.length + 1 :=
            Nat.succ_lt_succ (List.length_pos_of_ne_nil htail)
          rw [if_neg hempty, List.length_cons, if_pos hcons]
      · rw [ih.next j s hs, List.length_cons]
        simp only [Nat.add_lt_add_iff_right]
        split
        · exact congrArg some (by omega)
        · rfl
termination_by text.length

/-- The candidates of the first `n` pairs of neighbours are in the queue. -/
theorem exists_firstBigrams {symbols : List SpmSymbol}
    (hpair : ∀ i, i + 1 < symbols.length →
      (symbolAt symbols i).len ≠ 0 ∧ (symbolAt symbols (i + 1)).len ≠ 0 ∧
      (symbolAt symbols i).start + (symbolAt symbols i).len = (symbolAt symbols (i + 1)).start ∧
      (symbolAt symbols (i + 1)).start + (symbolAt symbols (i + 1)).len ≤ normalized.length) :
    ∀ n, n + 1 ≤ symbols.length → ∃ bigrams, (List.range n).foldlM (fun bigrams index =>
        t.tryAddBigram normalized symbols index (index + 1) bigrams) ⟨[], .empty⟩ = .ok bigrams ∧
      Scored t normalized symbols bigrams ∧ ∀ i < n, ∀ score,
        t.mergeScore (stretch normalized symbols i ++ stretch normalized symbols (i + 1)) =
          some score → entry symbols i (i + 1) score ∈ bigrams.queue
  | 0, _ => ⟨_, rfl, ⟨List.Pairwise.nil, by simp, by simp [ReverseMerges.empty]⟩, by simp⟩
  | n + 1, hn => by
      obtain ⟨bigrams, hfold, hscored, hqueued⟩ := exists_firstBigrams hpair n (by omega)
      obtain ⟨hx, hy, htouch, hwithin⟩ := hpair n hn
      obtain ⟨bigrams', hadd, hadded⟩ := exists_added hscored hx hy htouch hwithin
      refine ⟨bigrams', ?_, hadded.toScored, fun i hi score hscore => ?_⟩
      · rw [List.range_succ, List.foldlM_append, hfold]
        exact bind_eq_ok.2 ⟨bigrams, rfl, bind_eq_ok.2 ⟨bigrams', hadd, rfl⟩⟩
      · rcases Nat.lt_succ_iff_lt_or_eq.1 hi with hlt | rfl
        · exact hadded.sub _ (hqueued i hlt score hscore)
        · exact hadded.queued score hscore

/-- **What the loop begins with.** -/
theorem exists_held_split (hne : normalized ≠ []) : ∃ bigrams,
    (List.range ((splitUtf8Symbols normalized).length - 1)).foldlM (fun bigrams index =>
      t.tryAddBigram normalized (splitUtf8Symbols normalized) index (index + 1) bigrams)
      ⟨[], .empty⟩ = .ok bigrams ∧
    Held t normalized (splitUtf8Symbols normalized) bigrams
      (List.range (splitUtf8Symbols normalized).length) := by
  have hsplit := split_splitFrom 0 0 normalized
  have hnil : splitUtf8Symbols normalized ≠ [] :=
    fun h => hne ((splitFrom_eq_nil 0 0 normalized).1 h)
  change Split 0 0 normalized (splitUtf8Symbols normalized) at hsplit
  generalize splitUtf8Symbols normalized = symbols at hsplit hnil ⊢
  have hpos := List.length_pos_of_ne_nil hnil
  have hget : ∀ i, (hi : i < symbols.length) → symbolAt symbols i = symbols[i] := fun i hi =>
    List.getD_eq_getElem _ _ hi
  have hlen : ∀ i, i < symbols.length → (symbolAt symbols i).len ≠ 0 := fun i hi => by
    rw [hget i hi]
    exact hsplit.len _ (List.getElem_mem hi)
  have hstop : ∀ i, i < symbols.length →
      (symbolAt symbols i).start + (symbolAt symbols i).len ≤ normalized.length := fun i hi => by
    have hle := hsplit.stop_le _ (List.getElem_mem hi)
    rw [Nat.zero_add] at hle
    rw [hget i hi]
    exact hle
  have htouch : ∀ i, i + 1 < symbols.length →
      (symbolAt symbols i).start + (symbolAt symbols i).len =
        (symbolAt symbols (i + 1)).start := fun i hi => by
    rw [hget i (by omega), hget (i + 1) hi]
    exact hsplit.touch.getElem i hi
  have hprev : ∀ i, i < symbols.length →
      (symbolAt symbols i).prev = if 0 + i = 0 then none else some (0 + i - 1) := fun i hi => by
    rw [hget i hi]
    exact hsplit.prev i _ (List.getElem?_eq_getElem hi)
  have hnext : ∀ i, i < symbols.length → (symbolAt symbols i).next =
      if i + 1 < symbols.length then some (0 + i + 1) else none := fun i hi => by
    rw [hget i hi]
    exact hsplit.next i _ (List.getElem?_eq_getElem hi)
  obtain ⟨bigrams, hfold, hscored, hqueued⟩ := exists_firstBigrams (t := t)
    (fun i hi => ⟨hlen i (by omega), hlen (i + 1) hi, htouch i hi, hstop (i + 1) hi⟩)
    (symbols.length - 1) (by omega)
  refine ⟨bigrams, hfold, { hscored with
    chain := (List.isChain_range _ _).2 fun i hi => ?_
    head := ?_, first := ?_, last := ?_, alive := ?_
    within := fun i hi => hstop i (List.mem_range.1 hi) }⟩
  · have hi' : i + 1 < symbols.length := by omega
    exact {
      next := by rw [hnext i (by omega), if_pos hi', Nat.zero_add]
      prev := by
        rw [hprev (i + 1) hi', if_neg (by omega), Nat.zero_add, Nat.add_sub_cancel]
      touch := htouch i hi'
      lt := Nat.lt_succ_self i
      queued := hqueued i hi }
  · obtain ⟨n, hn⟩ := Nat.exists_eq_succ_of_ne_zero hpos.ne'
    rw [hn, List.range_succ_eq_map]
    rfl
  · rw [hprev 0 hpos]
    rfl
  · intro pre z heq
    obtain ⟨n, hn⟩ := Nat.exists_eq_succ_of_ne_zero hpos.ne'
    rw [hn, List.range_succ] at heq
    obtain ⟨-, hz⟩ := List.append_inj' heq rfl
    rw [← List.singleton_inj.1 hz, hnext n (by omega), if_neg (by omega)]
  · intro i
    rw [List.mem_range]
    exact ⟨lt_length_of_len, hlen i⟩

/-! ## The segmentation of a text -/

/-- The characters of a text. -/
def characters (normalized : Bytes) : List Bytes :=
  (splitUtf8Symbols normalized).map fun symbol =>
    slice normalized symbol.start (symbol.start + symbol.len)

/-- **The queue finds what the naive algorithm finds**, and takes only tokens apart. -/
theorem exists_segment (t : LlamaSpmTokenizer) (normalized : Bytes) : ∃ reverseMerges,
    t.segment normalized = .ok (t.naiveMerges (characters normalized), reverseMerges) ∧
      ∀ text ∈ reverseMerges.entries, (t.mergeScore text).isSome := by
  by_cases hne : normalized = []
  · subst hne
    have hsplit : splitUtf8Symbols [] = [] := (splitFrom_eq_nil 0 0 []).2 rfl
    have hloop : t.mergeLoop [] [] ⟨[], .empty⟩ = .ok ([], .empty) := by rw [mergeLoop]
    have hnaive : t.naiveMerges [] = [] := Merging.mergeAll_of_none rfl
    refine ⟨.empty, ?_, by simp [ReverseMerges.empty]⟩
    rw [segment, characters, hsplit, List.map_nil, hnaive]
    exact bind_eq_ok.2 ⟨_, rfl, bind_eq_ok.2 ⟨_, hloop, rfl⟩⟩
  · obtain ⟨bigrams, hfold, hheld⟩ := exists_held_split (t := t) hne
    obtain ⟨symbols, reverseMerges, hloop, hmerged, hpieces⟩ := hheld.mergeLoop_eq
    have hmap : (List.range (splitUtf8Symbols normalized).length).map
        (stretch normalized (splitUtf8Symbols normalized)) = characters normalized := by
      refine List.ext_getElem (by simp [characters]) fun i hi hi' => ?_
      have hlt : i < (splitUtf8Symbols normalized).length := by simpa using hi
      simp only [characters, List.getElem_map, List.getElem_range, stretch, symbolAt,
        List.getD_eq_getElem _ _ hlt]
    refine ⟨reverseMerges, ?_, hmerged⟩
    rw [← hmap, ← hpieces, segment]
    refine bind_eq_ok.2 ⟨bigrams, hfold, bind_eq_ok.2 ⟨_, hloop, rfl⟩⟩

/-- **Merging by the queue is merging by the naive algorithm.** -/
theorem segment_eq_naiveMerges (t : LlamaSpmTokenizer) (text : String) : ∃ reverseMerges,
    t.segment (normalizeSpm text t.addSpacePrefix) =
      .ok (t.naiveMerges (characters (normalizeSpm text t.addSpacePrefix)), reverseMerges) := by
  obtain ⟨reverseMerges, hsegment, -⟩ := exists_segment t (normalizeSpm text t.addSpacePrefix)
  exact ⟨reverseMerges, hsegment⟩

end LlamaSpmTokenizer

end NTD97
