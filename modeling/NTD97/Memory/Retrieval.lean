import Mathlib
import NTD97.Memory

/-!
# Memory/Retrieval — what a query finds

    records ──matching──▸ ranked ──take──▸ hits ──recall──▸ records

The ranked list is the one list that holds every matching record once and is strictly ordered, so
the hits are its first ones.  Their scores come from the state before the call; recalling a hit
writes to its own record only, so the order of the recalls does not matter.
-/

namespace NTD97

open Guard Effect Text SortedMap

namespace SovereignMemory

/-! ## Sets of texts -/

/-- Texts by their lower case. -/
def foldedTags (tags : List String) : BTreeSet := .ofList (tags.map toAsciiLowercase)

theorem mem_foldedTags {tags : List String} {text : String} :
    text ∈ foldedTags tags ↔ ∃ tag ∈ tags, toAsciiLowercase tag = text := by
  rw [foldedTags, Std.ExtTreeSet.mem_ofList, List.contains_iff_mem, List.mem_map]

theorem isEmpty_iff_forall {a : BTreeSet} : a.isEmpty = true ↔ ∀ text, text ∉ a := by
  rw [← Std.ExtTreeSet.isEmpty_toList, List.isEmpty_iff, List.eq_nil_iff_forall_not_mem]
  exact forall_congr' fun text => not_congr Std.ExtTreeSet.mem_toList

theorem foldedTags_isEmpty {tags : List String} : (foldedTags tags).isEmpty = true ↔ tags = [] := by
  rw [isEmpty_iff_forall, List.eq_nil_iff_forall_not_mem]
  constructor
  · exact fun h tag htag => h _ (mem_foldedTags.2 ⟨tag, htag, rfl⟩)
  · rintro h text htext
    obtain ⟨tag, htag, -⟩ := mem_foldedTags.1 htext
    exact h tag htag

/-- Sets share something exactly if the count is not zero. -/
theorem matchCount_eq_zero {a b : BTreeSet} : matchCount a b = 0 ↔ ¬ ∃ text ∈ a, text ∈ b := by
  have hzero {n : ℕ} : UInt64.ofNat (min n (2 ^ 64 - 1)) = 0 ↔ n = 0 := by
    rw [← UInt64.toNat_inj, UInt64.toNat_ofNat', UInt64.toNat_zero]
    omega
  rw [matchCount, hzero, List.length_eq_zero_iff, List.filter_eq_nil_iff, not_exists]
  refine forall_congr' fun text => ?_
  rw [Std.ExtTreeSet.mem_toList, not_and, ← Std.ExtTreeSet.contains_iff_mem (t := b)]

/-! ## The recalls -/

/-- **Recalling distinct hits** shows and updates each of their records once. -/
theorem exec_recallHits (tick : UInt64) : ∀ {l : List (UInt64 × UInt64)} {m : SovereignMemory},
    (l.map Prod.fst).Nodup → (∀ hit ∈ l, hit.1 ∈ m.records) →
      ∃ hits m', exec (l.mapM (recallHit tick)) m = (.ok hits, m') ∧
        hits.map (fun hit => (hit.id, hit.score)) = l ∧
        (∀ hit ∈ hits, ∃ record, m.records[hit.id]? = some record ∧
          hit.record = record.recalled tick) ∧
        m'.nextId = m.nextId ∧
        ∀ id, m'.records[id]? = if id ∈ l.map Prod.fst then
          (m.records[id]?).map (MemoryRecord.recalled tick) else m.records[id]?
  | [], m, _, _ => ⟨[], m, rfl, rfl, by simp, rfl, by simp⟩
  | (id, score) :: l, m, hnodup, hmem => by
      obtain ⟨hnew, hnodup⟩ := List.nodup_cons.1 hnodup
      obtain ⟨hhead, htail⟩ := List.forall_mem_cons.1 hmem
      obtain ⟨record, hrecord⟩ := Option.isSome_iff_exists.1
        (Std.ExtTreeMap.mem_iff_isSome_getElem?.1 hhead)
      dsimp only at hrecord hnew
      have hrun : exec (recallHit tick (id, score)) m =
          (.ok ⟨id, score, record.recalled tick⟩, m.touch id tick) := by
        rw [recallHit, exec_get_bind, hrecord, exec_okOr_some_bind, exec_modify_bind, exec_pure]
      have hlook : ∀ other, (m.touch id tick).records[other]? = if id = other then
          (m.records[other]?).map (MemoryRecord.recalled tick) else m.records[other]? := by
        intro other
        change (m.records.modify id _)[other]? = _
        rw [Std.ExtTreeMap.getElem?_modify]
        simp only [Std.compare_eq_iff_eq]
        split
        · next heq => rw [heq]
        · rfl
      obtain ⟨hits, m', hexec, hids, hshown, hnext, hrecords⟩ := exec_recallHits tick
        (m := m.touch id tick) hnodup fun hit h => Std.ExtTreeMap.mem_modify.2 (htail hit h)
      refine ⟨⟨id, score, record.recalled tick⟩ :: hits, m', ?_, ?_, ?_, hnext, fun other => ?_⟩
      · rw [List.mapM_cons, exec_bind_ok hrun, exec_bind_ok hexec, exec_pure]
      · rw [List.map_cons, hids]
      · refine List.forall_mem_cons.2 ⟨⟨record, hrecord, rfl⟩, fun hit hhit => ?_⟩
        obtain ⟨record', hrecord', hshow⟩ := hshown hit hhit
        have hne : ¬ id = hit.id := by
          rintro rfl
          exact hnew (hids ▸ List.mem_map.2 ⟨_, List.mem_map.2 ⟨hit, hhit, rfl⟩, rfl⟩)
        rw [hlook, if_neg hne] at hrecord'
        exact ⟨record', hrecord', hshow⟩
      · rw [hrecords, hlook]
        rcases eq_or_ne id other with rfl | hne
        · have hfirst : id ∈ ((id, score) :: l).map Prod.fst := List.mem_cons_self
          rw [if_neg hnew, if_pos rfl, if_pos hfirst]
        · simp only [List.map_cons, List.mem_cons, hne, hne.symm, if_false, false_or]

section Ranked

variable [CharTables] {self : SovereignMemory} {query : MemoryQuery} {record : MemoryRecord}

/-! ## Which records match -/

def queryTerms (query : MemoryQuery) : BTreeSet := normalizedTerms query.text

/-- **A record matches a query**: its kind passes, and it shares a term or a tag, unless the query
has neither. -/
def Matches (query : MemoryQuery) (record : MemoryRecord) : Prop :=
  (query.kinds = [] ∨ record.kind ∈ query.kinds) ∧
    ((∀ term, term ∉ queryTerms query) ∧ query.tags = [] ∨
      (∃ term ∈ queryTerms query, term ∈ normalizedTerms record.content) ∨
      ∃ tag ∈ query.tags, ∃ own ∈ record.tags, toAsciiLowercase tag = toAsciiLowercase own)

/-- The score of a record for a query, if it shares anything with it. -/
def scoreFor (query : MemoryQuery) (record : MemoryRecord) : Option UInt64 :=
  scoreRecord record (queryTerms query) (foldedTags query.tags)

/-- **A score is given** exactly to the records that share something. -/
theorem scoreFor_isSome : (scoreFor query record).isSome = true ↔
    ((∀ term, term ∉ queryTerms query) ∧ query.tags = [] ∨
      (∃ term ∈ queryTerms query, term ∈ normalizedTerms record.content) ∨
      ∃ tag ∈ query.tags, ∃ own ∈ record.tags, toAsciiLowercase tag = toAsciiLowercase own) := by
  have hterms := matchCount_eq_zero (a := queryTerms query) (b := normalizedTerms record.content)
  have htags := matchCount_eq_zero (a := foldedTags query.tags) (b := foldedTags record.tags)
  have hshared : (∃ text ∈ foldedTags query.tags, text ∈ foldedTags record.tags) ↔
      ∃ tag ∈ query.tags, ∃ own ∈ record.tags, toAsciiLowercase tag = toAsciiLowercase own := by
    constructor
    · rintro ⟨text, hquery, hrecord⟩
      obtain ⟨tag, htag, rfl⟩ := mem_foldedTags.1 hquery
      obtain ⟨own, hown, heq⟩ := mem_foldedTags.1 hrecord
      exact ⟨tag, htag, own, hown, heq.symm⟩
    · rintro ⟨tag, htag, own, hown, heq⟩
      exact ⟨_, mem_foldedTags.2 ⟨tag, htag, rfl⟩, mem_foldedTags.2 ⟨own, hown, heq.symm⟩⟩
  have hnone : (queryTerms query).isEmpty = true ∧ (foldedTags query.tags).isEmpty = true ↔
      (∀ term, term ∉ queryTerms query) ∧ query.tags = [] :=
    and_congr isEmpty_iff_forall foldedTags_isEmpty
  have hscore : (scoreFor query record).isSome = true ↔
      ¬ ((!(queryTerms query).isEmpty || !(foldedTags query.tags).isEmpty) = true ∧
        matchCount (queryTerms query) (normalizedTerms record.content) = 0 ∧
        matchCount (foldedTags query.tags) (foldedTags record.tags) = 0) := by
    rw [scoreFor, scoreRecord]
    split
    · next h => exact iff_of_false (by simp) (not_not.2 h)
    · next h => exact iff_of_true rfl h
  rw [hscore, hterms, htags, hshared, ← hnone]
  simp only [Bool.or_eq_true, Bool.not_eq_true', not_and_or, not_not, not_or, Bool.not_eq_false]

/-! ## The ranking -/

/-- The matching records with their scores, before they are sorted. -/
def matching (self : SovereignMemory) (query : MemoryQuery) : List (UInt64 × UInt64) :=
  self.records.toList.filterMap fun (_, record) =>
    if query.kinds.isEmpty ∨ record.kind ∈ query.kinds then
      (scoreFor query record).map fun score => (record.id, score)
    else none

/-- All matching records, the best first. -/
def ranked (self : SovereignMemory) (query : MemoryQuery) : List (UInt64 × UInt64) :=
  (matching self query).insertionSort ranksBefore

theorem rank_eq : self.rank query = (ranked self query).take query.limit := rfl

theorem mem_ranked {id score : UInt64} : (id, score) ∈ ranked self query ↔
    ∃ record, self.records[id]? = some record ∧ Matches query record ∧
      scoreFor query record = some score := by
  rw [ranked, List.mem_insertionSort, matching, List.mem_filterMap]
  constructor
  · rintro ⟨⟨key, record⟩, hmem, hscore⟩
    have hrecord := Std.ExtTreeMap.mem_toList_iff_getElem?_eq_some.1 hmem
    dsimp only at hscore hrecord
    split at hscore
    · next hkind =>
      obtain ⟨score', hscore', heq⟩ := Option.map_eq_some_iff.1 hscore
      obtain ⟨rfl, rfl⟩ := Prod.mk.inj heq
      obtain rfl := (self.sound.entry key record hrecord).keyed
      refine ⟨record, hrecord, ⟨?_, scoreFor_isSome.1 ?_⟩, hscore'⟩
      · rwa [List.isEmpty_iff] at hkind
      · rw [hscore']
        rfl
    · exact nomatch hscore
  · rintro ⟨record, hrecord, ⟨hkind, -⟩, hscore⟩
    refine ⟨(id, record), Std.ExtTreeMap.mem_toList_iff_getElem?_eq_some.2 hrecord, ?_⟩
    have hkeyed := (self.sound.entry id record hrecord).keyed
    dsimp only
    rw [if_pos (by rwa [List.isEmpty_iff]), hscore, ← hkeyed]
    rfl

/-- Each record is ranked once. -/
theorem nodup_ids : ((ranked self query).map Prod.fst).Nodup := by
  have hperm : ((ranked self query).map Prod.fst).Perm ((matching self query).map Prod.fst) :=
    (List.perm_insertionSort _ _).map _
  refine hperm.nodup_iff.2 ?_
  have hsub : ∀ l : List (UInt64 × MemoryRecord), (∀ e ∈ l, e.1 = e.2.id) →
      ((l.filterMap fun e => if query.kinds.isEmpty ∨ e.2.kind ∈ query.kinds then
        (scoreFor query e.2).map fun score => (e.2.id, score) else none).map Prod.fst).Sublist
          (l.map Prod.fst) := by
    intro l hl
    induction l with
    | nil => exact List.Sublist.refl _
    | cons e l ih =>
      obtain ⟨he, hl⟩ := List.forall_mem_cons.1 hl
      rw [List.filterMap_cons, List.map_cons]
      split
      · exact (ih hl).cons _
      · next b hb =>
        have hid : b.1 = e.1 := by
          split at hb
          · obtain ⟨score, -, rfl⟩ := Option.map_eq_some_iff.1 hb
            exact he.symm
          · exact nomatch hb
        rw [List.map_cons, hid]
        exact (ih hl).cons_cons _
  refine (hsub self.records.toList ?_).nodup ?_
  · rintro ⟨key, record⟩ hmem
    exact (self.sound.entry key record (Std.ExtTreeMap.mem_toList_iff_getElem?_eq_some.1 hmem)).keyed
  · exact List.pairwise_map.2 (Std.ExtTreeMap.distinct_keys_toList.imp
      Std.ReflCmp.ne_of_cmp_ne_eq)

instance : Std.Total (α := UInt64 × UInt64) ranksBefore where
  total left right := by
    simp only [ranksBefore, UInt64.lt_iff_toNat_lt, UInt64.le_iff_toNat_le, ← UInt64.toNat_inj]
    omega

instance : IsTrans (UInt64 × UInt64) ranksBefore where
  trans a b c := by
    simp only [ranksBefore, UInt64.lt_iff_toNat_lt, UInt64.le_iff_toNat_le, ← UInt64.toNat_inj]
    omega

/-- **The ranking is strict**: higher scores first, then lower ids. -/
theorem pairwise_ranked : (ranked self query).Pairwise fun left right =>
    right.2 < left.2 ∨ (left.2 = right.2 ∧ left.1 < right.1) := by
  have hsorted : (ranked self query).Pairwise ranksBefore := List.pairwise_insertionSort _ _
  refine (hsorted.and (List.pairwise_map.1 nodup_ids)).imp ?_
  rintro left right ⟨hlt | ⟨hscore, hle⟩, hne⟩
  · exact .inl hlt
  · exact .inr ⟨hscore, UInt64.lt_of_le_of_ne hle hne⟩

/-! ## The whole call -/

/-- **A retrieval returns the first matching records** by score and age, with the scores of the
state before it, and recalls these and no others. -/
theorem retrieve_spec (self : SovereignMemory) (query : MemoryQuery) (tick : UInt64)
    (hlimit : 0 < query.limit) :
    ∃ (ranked : List (UInt64 × UInt64)) (hits : List MemoryHit) (m : SovereignMemory),
      self.retrieve query tick = (.ok hits, m) ∧
      (∀ id score, (id, score) ∈ ranked ↔ ∃ record, self.records[id]? = some record ∧
        Matches query record ∧ scoreFor query record = some score) ∧
      (ranked.Pairwise fun left right =>
        right.2 < left.2 ∨ (left.2 = right.2 ∧ left.1 < right.1)) ∧
      hits.map (fun hit => (hit.id, hit.score)) = ranked.take query.limit ∧
      (∀ hit ∈ hits, ∃ record, self.records[hit.id]? = some record ∧
        hit.record = record.recalled tick) ∧
      m.nextId = self.nextId ∧
      (∀ id, m.records[id]? = if id ∈ hits.map (·.id) then
        (self.records[id]?).map (MemoryRecord.recalled tick) else self.records[id]?) ∧
      fromParts m.nextId m.records = .ok m := by
  have hnodup : ((self.rank query).map Prod.fst).Nodup :=
    nodup_ids.sublist ((List.take_sublist _ _).map _)
  have hmem : ∀ hit ∈ self.rank query, hit.1 ∈ self.records := by
    rintro ⟨id, score⟩ hhit
    obtain ⟨record, hrecord, -⟩ := mem_ranked.1 (List.mem_of_mem_take hhit)
    exact Std.ExtTreeMap.mem_iff_isSome_getElem?.2 (by rw [hrecord]; rfl)
  obtain ⟨hits, m, hexec, hids, hshown, hnext, hrecords⟩ :=
    exec_recallHits tick hnodup hmem
  refine ⟨ranked self query, hits, m, ?_, fun id score => mem_ranked, pairwise_ranked,
    hids.trans rank_eq, hshown, hnext, fun id => ?_, fromParts_eq_ok.2 ⟨rfl, rfl⟩⟩
  · rw [retrieve, if_neg (Nat.pos_iff_ne_zero.1 hlimit)]
    exact hexec
  · have hmap : hits.map (·.id) = (self.rank query).map Prod.fst := by
      rw [← hids, List.map_map]
      rfl
    rw [hmap]
    exact hrecords id

end Ranked

namespace RetrievalSample

scoped instance : CharTables := ⟨Char.isAlphanum⟩

/-- A memory after one more thing was stored in it. -/
def remembering (self : SovereignMemory) (content : String) : SovereignMemory :=
  ((self.store .semantic content ["geography"] 600 1).toOption.map Prod.snd).getD self

/-- A memory of four records: the two in the middle match the question equally well. -/
def memory : SovereignMemory :=
  ["Lyon lies on the Rhone", "the capital of Italy is Rome", "the capital of Japan is Tokyo",
    "Paris is the capital of France"].foldl remembering new

def question : MemoryQuery where
  text := "capital France"
  limit := 2

end RetrievalSample

open RetrievalSample in
/-- The best record comes first; of the two in the middle, the older one. -/
theorem retrieve_spec_capital : 0 < question.limit ∧
    (memory.retrieve question 3).1.toOption.map (·.map fun hit => (hit.id, hit.score)) =
      some [(4, 2600), (2, 1600)] ∧
    ∃ (ranked : List (UInt64 × UInt64)) (hits : List MemoryHit) (m : SovereignMemory),
      memory.retrieve question 3 = (.ok hits, m) ∧
      (∀ id score, (id, score) ∈ ranked ↔ ∃ record, memory.records[id]? = some record ∧
        Matches question record ∧ scoreFor question record = some score) ∧
      (ranked.Pairwise fun left right =>
        right.2 < left.2 ∨ (left.2 = right.2 ∧ left.1 < right.1)) ∧
      hits.map (fun hit => (hit.id, hit.score)) = ranked.take question.limit ∧
      (∀ hit ∈ hits, ∃ record, memory.records[hit.id]? = some record ∧
        hit.record = record.recalled 3) ∧
      m.nextId = memory.nextId ∧
      (∀ id, m.records[id]? = if id ∈ hits.map (·.id) then
        (memory.records[id]?).map (MemoryRecord.recalled 3) else memory.records[id]?) ∧
      fromParts m.nextId m.records = .ok m :=
  ⟨by decide, by decide +kernel, retrieve_spec memory question 3 (by decide)⟩

end SovereignMemory

end NTD97
