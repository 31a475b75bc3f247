import Mathlib
import NTD97.Core
import NTD97.Lib.Effect
import NTD97.Lib.SortedMap
import NTD97.Lib.Text

/-!
# Memory — what the assistant remembers

    store ▸ records ◂ forget          retrieve = rank ▸ recall each hit

A memory is a map of records under ascending ids, and the next id to give out.  Its fields are
private in the source, so the type carries what every way in establishes: each record stands under
its own id, says something, and has its tags in strict order.
-/

namespace NTD97

open Guard Effect Text SortedMap

inductive MemoryKind where
  | episodic
  | semantic
  | procedural
  deriving DecidableEq

structure MemoryRecord where
  id : UInt64
  kind : MemoryKind
  content : String
  tags : List String
  importance : UInt16
  createdTick : UInt64
  lastRecalledTick : UInt64
  recallCount : UInt32
  deriving DecidableEq

structure MemoryQuery where
  text : String
  kinds : List MemoryKind := []
  tags : List String := []
  limit : ℕ := 8
  deriving DecidableEq

structure MemoryHit where
  id : UInt64
  score : UInt64
  record : MemoryRecord
  deriving DecidableEq

inductive MemoryError where
  | emptyContent
  | invalidImportance (importance : UInt16)
  | invalidKind (raw : UInt8)
  | overflow
  deriving DecidableEq

/-! ## The records of a memory -/

/-- A record under an id is well formed. -/
structure MemoryRecord.Sound (id : UInt64) (record : MemoryRecord) : Prop where
  id_ne : id ≠ 0
  keyed : id = record.id
  content : isBlank record.content = false
  importance : record.importance ≤ 1000
  tags : record.tags.IsChain (· < ·)

/-- A record that was recalled once more. -/
def MemoryRecord.recalled (tick : UInt64) (record : MemoryRecord) : MemoryRecord :=
  { record with lastRecalledTick := tick, recallCount := saturatingSucc32 record.recallCount }

/-- The parts of a memory fit together. -/
abbrev MemorySound : UInt64 → BTreeMap UInt64 MemoryRecord → Prop :=
  Numbered fun id record => record.Sound id

/-- The checks on the parts of a memory. -/
def validateParts (nextId : UInt64) (records : BTreeMap UInt64 MemoryRecord) :
    Except MemoryError Unit := do
  refuse (nextId = 0) .overflow
  records.toList.forM fun (id, record) =>
    refuse (id = 0 ∨ id ≠ record.id ∨ isBlank record.content ∨ 1000 < record.importance ∨
      ¬ record.tags.IsChain (· < ·)) .overflow
  refuse (records.keys.getLast?.any (nextId ≤ ·)) .overflow

theorem validateParts_eq_ok {nextId : UInt64} {records : BTreeMap UInt64 MemoryRecord} :
    validateParts nextId records = .ok () ↔ MemorySound nextId records := by
  have hrecord : ∀ e : UInt64 × MemoryRecord, (¬ (e.1 = 0 ∨ e.1 ≠ e.2.id ∨
      isBlank e.2.content = true ∨ 1000 < e.2.importance ∨ ¬ e.2.tags.IsChain (· < ·))) ↔
      e.2.Sound e.1 := fun e => by
    simp only [not_or, ne_eq, not_not, Bool.not_eq_true, UInt16.not_lt]
    constructor
    · rintro ⟨h₁, h₂, h₃, h₄, h₅⟩
      exact ⟨h₁, h₂, h₃, h₄, h₅⟩
    · rintro ⟨h₁, h₂, h₃, h₄, h₅⟩
      exact ⟨h₁, h₂, h₃, h₄, h₅⟩
  simp only [validateParts, bind_eq_ok, exists_unit, refuse_eq_ok, forM_eq_ok, hrecord,
    any_getLast?_keys_iff, forall_mem_toList (Q := fun e : UInt64 × MemoryRecord => e.2.Sound e.1)]
  constructor
  · rintro ⟨h₁, h₂, h₃⟩
    exact ⟨h₁, h₃, h₂⟩
  · rintro ⟨h₁, h₂, h₃⟩
    exact ⟨h₁, h₃, h₂⟩

/-- **A memory whose parts fit together** — there is no other way to build one. -/
structure SovereignMemory where
  nextId : UInt64
  records : BTreeMap UInt64 MemoryRecord
  sound : MemorySound nextId records
  deriving DecidableEq

namespace SovereignMemory

def new : SovereignMemory where
  nextId := 1
  records := ∅
  sound := .empty

def fromParts (nextId : UInt64) (records : BTreeMap UInt64 MemoryRecord) :
    Except MemoryError SovereignMemory :=
  match h : validateParts nextId records with
  | .error e => .error e
  | .ok () => .ok { nextId, records, sound := validateParts_eq_ok.1 h }

theorem fromParts_eq_ok {nextId : UInt64} {records : BTreeMap UInt64 MemoryRecord}
    {m : SovereignMemory} :
    fromParts nextId records = .ok m ↔ m.nextId = nextId ∧ m.records = records := by
  unfold fromParts
  split
  · next e h =>
    refine ⟨fun h => (nomatch h), ?_⟩
    rintro ⟨rfl, rfl⟩
    rw [validateParts_eq_ok.2 m.sound] at h
    exact nomatch h
  · next h =>
    constructor
    · intro hm
      cases hm
      exact ⟨rfl, rfl⟩
    · rintro ⟨rfl, rfl⟩
      rfl

/-! ## Storing and forgetting -/

/-- The new record gets the next id; its tags are sorted and repetitions dropped. -/
def store (self : SovereignMemory) (kind : MemoryKind) (content : String) (tags : List String)
    (importance : UInt16) (tick : UInt64) : Except MemoryError (UInt64 × SovereignMemory) :=
  if hc : isBlank content then .error .emptyContent
  else if hi : 1000 < importance then .error (.invalidImportance importance)
  else match hn : checkedAdd64 self.nextId 1 with
    | none => .error .overflow
    | some next =>
      let record : MemoryRecord := {
        id := self.nextId, kind, content, tags := sortDedup tags, importance
        createdTick := tick, lastRecalledTick := tick, recallCount := 0 }
      .ok (self.nextId, {
        nextId := next
        records := self.records.insert self.nextId record
        sound := self.sound.insert (checkedAdd64_eq_some.1 hn)
          ⟨self.sound.next_ne, rfl, Bool.not_eq_true _ ▸ hc, UInt16.not_lt.1 hi,
            (sortedLT_sortDedup tags).isChain⟩ })

/-- What is stored takes the next id. -/
theorem nextId_of_store {self m : SovereignMemory} {kind : MemoryKind} {content : String}
    {tags : List String} {importance : UInt16} {tick id : UInt64}
    (h : self.store kind content tags importance tick = .ok (id, m)) :
    m.nextId.toNat = self.nextId.toNat + 1 := by
  unfold store at h
  split at h
  · exact nomatch h
  · split at h
    · exact nomatch h
    · split at h
      · exact nomatch h
      · next next hn =>
        cases h
        exact checkedAdd64_eq_some.1 hn

/-- **A memory stores what says something and is of admissible importance, while ids last.** -/
theorem exists_store_iff {self : SovereignMemory} {kind : MemoryKind} {content : String}
    {tags : List String} {importance : UInt16} {tick : UInt64} :
    (∃ r, self.store kind content tags importance tick = .ok r) ↔
      isBlank content = false ∧ importance ≤ 1000 ∧ self.nextId.toNat + 1 < 2 ^ 64 := by
  unfold store
  split
  · next hc => simp [hc]
  · next hc =>
    split
    · next hi => simp [UInt16.not_le.2 hi]
    · next hi =>
      split
      · next hn =>
        have hfull : ¬ self.nextId.toNat + 1 < 2 ^ 64 := Nat.not_lt.2 (checkedAdd64_eq_none.1 hn)
        exact ⟨fun ⟨_, h⟩ => (nomatch h), fun h => absurd h.2.2 hfull⟩
      · next next hn =>
        have hlt : self.nextId.toNat + 1 < 2 ^ 64 := by
          have heq : next.toNat = self.nextId.toNat + 1 := checkedAdd64_eq_some.1 hn
          exact heq ▸ next.toNat_lt
        exact ⟨fun _ => ⟨Bool.not_eq_true _ ▸ hc, UInt16.not_lt.1 hi, hlt⟩, fun _ => ⟨_, rfl⟩⟩

def forget (self : SovereignMemory) (id : UInt64) : Bool × SovereignMemory :=
  (self.records.contains id, {
    nextId := self.nextId
    records := self.records.erase id
    sound := self.sound.erase })

/-! ## Retrieval -/

/-- Which characters are letters or digits, in the Unicode tables of the standard library. -/
class CharTables where
  isAlphanumeric : Char → Bool

/-- A set of texts, in order. -/
abbrev BTreeSet := Std.ExtTreeSet String

section Rank

variable [CharTables]

/-- The words of a text without their punctuation, in lower case. -/
def normalizedTerms (text : String) : BTreeSet :=
  .ofList (((splitWhitespace text).map fun term => toAsciiLowercase
    (trimMatches (fun ch => !CharTables.isAlphanumeric ch) term)).filter fun term => !term.isEmpty)

/-- How many texts two sets share; a machine word counts them. -/
def matchCount (a b : BTreeSet) : UInt64 :=
  UInt64.ofNat (min (a.toList.filter b.contains).length (2 ^ 64 - 1))

def scoreRecord (record : MemoryRecord) (queryTerms queryTags : BTreeSet) : Option UInt64 :=
  let termMatches := matchCount queryTerms (normalizedTerms record.content)
  let tagMatches := matchCount queryTags (.ofList (record.tags.map toAsciiLowercase))
  let hasQuery := !queryTerms.isEmpty || !queryTags.isEmpty
  if hasQuery ∧ termMatches = 0 ∧ tagMatches = 0 then none
  else some (saturatingAdd64 (saturatingAdd64 (saturatingAdd64 (saturatingMul64 termMatches 1000)
    (saturatingMul64 tagMatches 500)) record.importance.toUInt64)
    (min record.recallCount 100).toUInt64)

/-- Higher scores first, and older records first among equal scores. -/
def ranksBefore (left right : UInt64 × UInt64) : Prop :=
  right.2 < left.2 ∨ (left.2 = right.2 ∧ left.1 ≤ right.1)

instance : DecidableRel ranksBefore := fun _ _ => inferInstanceAs (Decidable (_ ∨ _))

/-- The ids and scores of the best records for a query. -/
def rank (self : SovereignMemory) (query : MemoryQuery) : List (UInt64 × UInt64) :=
  let queryTerms := normalizedTerms query.text
  let queryTags : BTreeSet := .ofList (query.tags.map toAsciiLowercase)
  let matching := self.records.toList.filterMap fun (_, record) =>
    if query.kinds.isEmpty ∨ record.kind ∈ query.kinds then
      (scoreRecord record queryTerms queryTags).map fun score => (record.id, score)
    else none
  (matching.insertionSort ranksBefore).take query.limit

end Rank

/-- Count one more recall of a record. -/
def touch (self : SovereignMemory) (id tick : UInt64) : SovereignMemory where
  nextId := self.nextId
  records := self.records.modify id (MemoryRecord.recalled tick)
  sound := self.sound.modify fun _ _ h => ⟨h.id_ne, h.keyed, h.content, h.importance, h.tags⟩

/-- Recall one hit, and show its record as it then stands. -/
def recallHit (tick : UInt64) : UInt64 × UInt64 → Eff SovereignMemory MemoryError MemoryHit
  | (id, score) => do
    let self ← get
    let record ← okOr self.records[id]? .overflow
    modify (·.touch id tick)
    return { id, score, record := record.recalled tick }

def retrieve [CharTables] (self : SovereignMemory) (query : MemoryQuery) (tick : UInt64) :
    Except MemoryError (List MemoryHit) × SovereignMemory :=
  if query.limit = 0 then (.ok [], self)
  else exec ((self.rank query).mapM (recallHit tick)) self

/-- Retrieval gives out no id. -/
theorem nextId_retrieve [CharTables] (self : SovereignMemory) (query : MemoryQuery) (tick : UInt64) :
    (self.retrieve query tick).2.nextId = self.nextId := by
  unfold retrieve
  split
  · rfl
  · have hloop := Triple.mapM (I := fun m : SovereignMemory => m.nextId = self.nextId)
      (f := recallHit tick) fun hit => .read_bind fun m hm => .okOr_bind
        (fun record _ => .write_bind (.ret fun _ h => h) fun _ h => h ▸ hm) fun _ _ h => h ▸ hm
    exact (hloop _).final rfl

end SovereignMemory

end NTD97
