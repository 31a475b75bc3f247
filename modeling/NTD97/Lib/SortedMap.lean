import Mathlib
import NTD97.Lib.Guard
import NTD97.Lib.Wire

/-!
# Lib/SortedMap — a map on the wire is its entries in key order

A map is written as its entries, keys ascending; the decoder demands that order and inserts as it
reads.  `inverse_entries` is the resulting law: the decoder accepts exactly the strictly ascending
entry lists, and each of them is the entry list of one map.
-/

namespace SortedMap

open Std Wire Guard

variable {κ β π ε : Type} [Ord κ]

/-! ## Sorting a list and dropping what repeats -/

section SortDedup

variable {α : Type} [LinearOrder α]

/-- Sort, then drop every element equal to the one before it. -/
def sortDedup (l : List α) : List α := (l.insertionSort (· ≤ ·)).destutter (· ≠ ·)

/-- **A sorted list without repetitions is strictly ascending.** -/
theorem sortedLT_sortDedup (l : List α) : (sortDedup l).Pairwise (· < ·) := by
  have hle : (sortDedup l).Pairwise (· ≤ ·) :=
    (List.pairwise_insertionSort (· ≤ ·) l).sublist (List.destutter_sublist _ _)
  have hne : (sortDedup l).IsChain (· ≠ ·) := List.isChain_destutter _ _
  rw [← List.isChain_iff_pairwise, List.isChain_iff_getElem] at hle ⊢
  rw [List.isChain_iff_getElem] at hne
  exact fun i hi => (hle i hi).lt_of_ne (hne i hi)

/-- There is nothing to do for a strictly ascending list. -/
theorem sortDedup_of_sortedLT {l : List α} (h : l.Pairwise (· < ·)) : sortDedup l = l := by
  have hsort : l.insertionSort (· ≤ ·) = l :=
    List.Pairwise.insertionSort_eq (h.imp fun hlt => LT.lt.le hlt)
  have hne : l.IsChain (· ≠ ·) := (h.imp fun hlt => LT.lt.ne hlt).isChain
  rw [sortDedup, hsort, List.destutter_of_isChain _ _ hne]

theorem mem_sortDedup {a : α} {l : List α} : a ∈ sortDedup l ↔ a ∈ l := by
  rw [sortDedup, (List.pairwise_insertionSort (· ≤ ·) l).destutter_eq_dedup, List.mem_dedup,
    List.mem_insertionSort]

end SortDedup

/-! ## A map and its entry list -/

section Lawful

variable [TransOrd κ] [LawfulEqOrd κ]

theorem forall_mem_toList {m : ExtTreeMap κ β} {Q : κ × β → Prop} :
    (∀ e ∈ m.toList, Q e) ↔ ∀ k v, m[k]? = some v → Q (k, v) :=
  ⟨fun h k v hkv => h (k, v) (ExtTreeMap.mem_toList_iff_getElem?_eq_some.2 hkv),
    fun h e he => h e.1 e.2 (ExtTreeMap.mem_toList_iff_getElem?_eq_some.1 he)⟩

/-- A lookup after an insertion: the new value, or what another key held. -/
theorem getElem?_insert_eq_some {m : ExtTreeMap κ β} {k k' : κ} {v x : β} :
    (m.insert k v)[k']? = some x ↔ (k' = k ∧ x = v) ∨ (k' ≠ k ∧ m[k']? = some x) := by
  rw [ExtTreeMap.getElem?_insert]
  split
  · next heq =>
    rw [Std.compare_eq_iff_eq] at heq
    simp [heq, eq_comm]
  · next hne =>
    rw [Std.compare_eq_iff_eq, eq_comm] at hne
    simp [hne]

/-- A lookup after an update in place. -/
theorem getElem?_modify_eq_some {m : ExtTreeMap κ β} {k k' : κ} {f : β → β} {x : β} :
    (m.modify k f)[k']? = some x ↔
      (k' = k ∧ ∃ v, m[k]? = some v ∧ f v = x) ∨ (k' ≠ k ∧ m[k']? = some x) := by
  rw [ExtTreeMap.getElem?_modify]
  split
  · next heq =>
    rw [Std.compare_eq_iff_eq] at heq
    simp [heq]
  · next hne =>
    rw [Std.compare_eq_iff_eq, eq_comm] at hne
    simp [hne]

theorem getElem?_erase_eq_some {m : ExtTreeMap κ β} {k k' : κ} {x : β} :
    (m.erase k)[k']? = some x ↔ k' ≠ k ∧ m[k']? = some x := by
  rw [ExtTreeMap.getElem?_erase]
  split
  · next heq =>
    rw [Std.compare_eq_iff_eq] at heq
    simp [heq]
  · next hne =>
    rw [Std.compare_eq_iff_eq, eq_comm] at hne
    simp [hne]

/-- The map of an entry list. -/
def ofEntries (l : List (κ × β)) : ExtTreeMap κ β := l.foldl (fun m e => m.insert e.1 e.2) ∅

theorem getElem?_ofEntries {l : List (κ × β)} (hl : l.Pairwise fun a b => compare a.1 b.1 = .lt)
    {k : κ} {v : β} : (ofEntries l)[k]? = some v ↔ (k, v) ∈ l := by
  have hdist : l.Pairwise fun a b => ¬ compare a.1 b.1 = .eq :=
    hl.imp fun h => by rw [h]; exact fun h => nomatch h
  rw [ofEntries, ← ExtTreeMap.ofList_eq_foldl]
  refine ⟨fun h => ?_, fun h => ExtTreeMap.getElem?_ofList_of_mem ReflCmp.compare_self hdist h⟩
  -- a key the list does not hold is absent; a key it holds carries the value it holds there
  have hk : k ∈ l.map Prod.fst := by
    classical
    by_contra hk
    have hmem : k ∉ ExtTreeMap.ofList l := by
      rw [ExtTreeMap.mem_ofList, List.contains_iff_mem]
      exact hk
    rw [ExtTreeMap.getElem?_eq_none hmem] at h
    exact nomatch h
  obtain ⟨⟨k', v'⟩, he, rfl⟩ := List.mem_map.1 hk
  rw [ExtTreeMap.getElem?_ofList_of_mem ReflCmp.compare_self hdist he] at h
  exact Option.some.inj h ▸ he

/-- **A strictly ascending entry list is the entry list of its map.** -/
theorem toList_ofEntries {l : List (κ × β)} (hl : l.Pairwise fun a b => compare a.1 b.1 = .lt) :
    (ofEntries l).toList = l := by
  have hirr : ∀ a b : κ × β, compare a.1 b.1 = .lt → compare b.1 a.1 = .lt → False :=
    fun a b h h' => OrientedCmp.not_lt_of_lt h h'
  have hnd : ∀ {l : List (κ × β)}, (l.Pairwise fun a b => compare a.1 b.1 = .lt) → l.Nodup :=
    fun h => h.imp fun {a b} hab hne => by
      subst hne
      exact hirr a a hab hab
  refine List.Perm.eq_of_pairwise (fun a b _ _ h h' => (hirr a b h h').elim)
    ExtTreeMap.ordered_keys_toList hl ?_
  refine (List.perm_ext_iff_of_nodup (hnd ExtTreeMap.ordered_keys_toList) (hnd hl)).2 fun e => ?_
  rw [← getElem?_ofEntries hl]
  exact ExtTreeMap.mem_toList_iff_getElem?_eq_some

/-- A map is the map of its entry list. -/
theorem ofEntries_toList (m : ExtTreeMap κ β) : ofEntries m.toList = m :=
  ExtTreeMap.ext_toList (by rw [toList_ofEntries ExtTreeMap.ordered_keys_toList])

/-- The last key bounds them all. -/
theorem any_getLast?_keys_iff {m : ExtTreeMap UInt64 β} {n : UInt64} :
    ¬ m.keys.getLast?.any (n ≤ ·) = true ↔
      ∀ (k : UInt64) (v : β), m[k]? = some v → k < n := by
  have hmem : ∀ k, k ∈ m.keys ↔ ∃ v, m[k]? = some v := fun k => by
    rw [ExtTreeMap.mem_keys, ExtTreeMap.mem_iff_isSome_getElem?, Option.isSome_iff_exists]
  have hkeys : ¬ m.keys.getLast?.any (n ≤ ·) = true ↔ ∀ k ∈ m.keys, k < n := by
    rcases List.eq_nil_or_concat m.keys with hnil | ⟨front, top, hcat⟩
    · simp [hnil]
    · have hsorted := ExtTreeMap.ordered_keys (t := m)
      rw [hcat, List.concat_eq_append] at hsorted ⊢
      rw [List.getLast?_append_cons, List.getLast?_singleton, Option.any_some, decide_eq_true_eq,
        UInt64.not_le, List.forall_mem_append, List.forall_mem_singleton]
      refine ⟨fun h => ⟨fun k hk => ?_, h⟩, fun h => h.2⟩
      have hlt := (List.pairwise_append.1 hsorted).2.2 k hk top (by simp)
      exact UInt64.lt_trans (Std.compare_eq_lt.1 hlt) h
  rw [hkeys]
  exact ⟨fun h k v hk => h k ((hmem k).2 ⟨v, hk⟩),
    fun h k hk => ((hmem k).1 hk).elim fun v hv => h k v hv⟩

/-! ## Numbered collections

Entries stand under the numbers a counter has given out. -/

/-- **Every entry stands under a number given out so far, and has the property.** -/
structure Numbered (P : UInt64 → β → Prop) (next : UInt64) (m : ExtTreeMap UInt64 β) : Prop where
  next_ne : next ≠ 0
  id_lt : ∀ (k : UInt64) (v : β), m[k]? = some v → k < next
  entry : ∀ (k : UInt64) (v : β), m[k]? = some v → P k v

namespace Numbered

variable {P Q : UInt64 → β → Prop} {next next' k : UInt64} {m : ExtTreeMap UInt64 β} {v : β}
  {f : β → β}

theorem empty : Numbered P 1 ∅ where
  next_ne := by decide
  id_lt _ _ h := by simp at h
  entry _ _ h := by simp at h

/-- A new entry takes the next number. -/
theorem insert (h : Numbered P next m) (hnext : next'.toNat = next.toNat + 1) (hv : P next v) :
    Numbered P next' (m.insert next v) := by
  have hlt : next < next' := UInt64.lt_iff_toNat_lt.2 (by omega)
  refine ⟨fun h0 => ?_, fun k x hx => ?_, fun k x hx => ?_⟩
  · rw [h0, UInt64.toNat_zero] at hnext
    exact Nat.succ_ne_zero _ hnext.symm
  · rcases getElem?_insert_eq_some.1 hx with ⟨rfl, rfl⟩ | ⟨-, hx⟩
    · exact hlt
    · exact UInt64.lt_trans (h.id_lt k x hx) hlt
  · rcases getElem?_insert_eq_some.1 hx with ⟨rfl, rfl⟩ | ⟨-, hx⟩
    · exact hv
    · exact h.entry k x hx

theorem modify (h : Numbered P next m) (hf : ∀ v, m[k]? = some v → P k v → P k (f v)) :
    Numbered P next (m.modify k f) := by
  refine ⟨h.next_ne, fun k' x hx => ?_, fun k' x hx => ?_⟩
  · rcases getElem?_modify_eq_some.1 hx with ⟨rfl, v, hv, rfl⟩ | ⟨-, hx⟩
    · exact h.id_lt k' v hv
    · exact h.id_lt k' x hx
  · rcases getElem?_modify_eq_some.1 hx with ⟨rfl, v, hv, rfl⟩ | ⟨-, hx⟩
    · exact hf v hv (h.entry k' v hv)
    · exact h.entry k' x hx

theorem erase (h : Numbered P next m) : Numbered P next (m.erase k) where
  next_ne := h.next_ne
  id_lt k' x hx := h.id_lt k' x (getElem?_erase_eq_some.1 hx).2
  entry k' x hx := h.entry k' x (getElem?_erase_eq_some.1 hx).2

theorem mono (h : Numbered P next m) (hPQ : ∀ k v, P k v → Q k v) : Numbered Q next m where
  next_ne := h.next_ne
  id_lt := h.id_lt
  entry k v hv := hPQ k v (h.entry k v hv)

/-- The next number is not given out yet. -/
theorem getElem?_next (h : Numbered P next m) : m[next]? = none := by
  cases hx : m[next]? with
  | none => rfl
  | some x => exact absurd (h.id_lt next x hx) (UInt64.lt_irrefl next)

end Numbered

/-! ## Keys met at most once

A loop that collects the keys it meets, and refuses one met before, accepts exactly the lists
without repetitions. -/

/-- The keys collected so far and those of the list. -/
def insertAll (seen : ExtTreeSet κ) (keys : List κ) : ExtTreeSet κ :=
  keys.foldl (fun seen k => seen.insert k) seen

theorem mem_insertAll {k : κ} : ∀ {keys : List κ} {seen : ExtTreeSet κ},
    k ∈ insertAll seen keys ↔ k ∈ seen ∨ k ∈ keys
  | [], _ => by simp [insertAll]
  | k' :: keys, seen => by
      change k ∈ insertAll (seen.insert k') keys ↔ _
      rw [mem_insertAll, ExtTreeSet.mem_insert, Std.compare_eq_iff_eq, List.mem_cons, eq_comm,
        or_assoc, or_left_comm]

/-- No key of the list was met before, in it or among the keys collected. -/
def Fresh (seen : ExtTreeSet κ) (keys : List κ) : Prop := keys.Nodup ∧ ∀ k ∈ keys, k ∉ seen

omit [LawfulEqOrd κ] in
theorem fresh_singleton {seen : ExtTreeSet κ} {k : κ} : Fresh seen [k] ↔ k ∉ seen := by
  simp [Fresh]

omit [LawfulEqOrd κ] in
theorem fresh_empty_iff {keys : List κ} : Fresh ∅ keys ↔ keys.Nodup :=
  ⟨fun h => h.1, fun h => ⟨h, fun _ _ => ExtTreeSet.not_mem_empty⟩⟩

theorem fresh_append {seen : ExtTreeSet κ} {keys keys' : List κ} :
    Fresh seen (keys ++ keys') ↔ Fresh seen keys ∧ Fresh (insertAll seen keys) keys' := by
  simp only [Fresh, List.nodup_append', List.mem_append, mem_insertAll, not_or, List.Disjoint]
  constructor
  · rintro ⟨⟨h, h', hd⟩, hs⟩
    exact ⟨⟨h, fun k hk => hs k (.inl hk)⟩, h',
      fun k hk => ⟨hs k (.inr hk), fun hk' => hd hk' hk⟩⟩
  · rintro ⟨⟨h, hs⟩, h', hs'⟩
    exact ⟨⟨h, h', fun {k} hk hk' => (hs' k hk').2 hk⟩,
      fun k hk => hk.elim (hs k) fun hk => (hs' k hk).1⟩

/-- What a loop carries along: the keys it met, and a summary of them. -/
def collect {μ : Type} (grow : μ → κ → μ) (seen : ExtTreeSet κ × μ) (keys : List κ) :
    ExtTreeSet κ × μ :=
  (insertAll seen.1 keys, keys.foldl grow seen.2)

/-- **A loop whose body checks `P` and collects fresh keys** accepts exactly when `P` holds
throughout and no key repeats. -/
theorem foldlM_collect {α μ : Type} {grow : μ → κ → μ} {keys : α → List κ} {P : α → Prop}
    {body : ExtTreeSet κ × μ → α → Except ε (ExtTreeSet κ × μ)}
    (hbody : ∀ seen a r, body seen a = .ok r ↔
      P a ∧ Fresh seen.1 (keys a) ∧ r = collect grow seen (keys a)) :
    ∀ (l : List α) (seen r : ExtTreeSet κ × μ), l.foldlM body seen = Except.ok r ↔
      (∀ a ∈ l, P a) ∧ Fresh seen.1 (l.flatMap keys) ∧ r = collect grow seen (l.flatMap keys)
  | [], seen, r => by
      rw [List.foldlM_nil, Guard.pure_eq_ok]
      simp [Fresh, collect, insertAll, eq_comm]
  | a :: l, seen, r => by
      rw [List.foldlM_cons, Guard.bind_eq_ok, List.forall_mem_cons, List.flatMap_cons, fresh_append]
      have hcollect : collect grow (collect grow seen (keys a)) (l.flatMap keys)
          = collect grow seen (keys a ++ l.flatMap keys) := by
        simp [collect, insertAll, List.foldl_append]
      constructor
      · rintro ⟨mid, hmid, hr⟩
        obtain ⟨hP, hfresh, rfl⟩ := (hbody ..).1 hmid
        obtain ⟨hPl, hfresh', rfl⟩ := (foldlM_collect hbody l _ r).1 hr
        exact ⟨⟨hP, hPl⟩, ⟨hfresh, hfresh'⟩, hcollect⟩
      · rintro ⟨⟨hP, hPl⟩, ⟨hfresh, hfresh'⟩, rfl⟩
        exact ⟨_, (hbody ..).2 ⟨hP, hfresh, rfl⟩,
          (foldlM_collect hbody l _ _).2 ⟨hPl, hfresh', hcollect.symm⟩⟩

/-! ## Values filed under their keys -/

/-- Each value under its key. -/
def fileAll (key : β → κ) (m : ExtTreeMap κ β) (l : List β) : ExtTreeMap κ β :=
  l.foldl (fun m b => m.insert (key b) b) m

/-- **A loop that files values and refuses a key met before** accepts exactly when no key repeats. -/
theorem foldlM_file {key : β → κ} {body : ExtTreeMap κ β → β → Except ε (ExtTreeMap κ β)}
    (hbody : ∀ m b r, body m b = .ok r ↔ key b ∉ m ∧ r = m.insert (key b) b) :
    ∀ (l : List β) (m r : ExtTreeMap κ β), l.foldlM body m = Except.ok r ↔
      (l.map key).Nodup ∧ (∀ b ∈ l, key b ∉ m) ∧ r = fileAll key m l
  | [], m, r => by
      rw [List.foldlM_nil, Guard.pure_eq_ok]
      simp [fileAll, eq_comm]
  | b :: l, m, r => by
      have hmem : ∀ k, k ∈ m.insert (key b) b ↔ key b = k ∨ k ∈ m := fun k => by
        rw [ExtTreeMap.mem_insert, Std.compare_eq_iff_eq]
      rw [List.foldlM_cons, Guard.bind_eq_ok, List.map_cons, List.nodup_cons, List.forall_mem_cons]
      constructor
      · rintro ⟨m', hm', hr⟩
        obtain ⟨hb, rfl⟩ := (hbody ..).1 hm'
        obtain ⟨hnodup, hfresh, rfl⟩ := (foldlM_file hbody l _ r).1 hr
        refine ⟨⟨fun hk => ?_, hnodup⟩, ⟨hb, fun c hc hcm => ?_⟩, rfl⟩
        · obtain ⟨c, hc, hkey⟩ := List.mem_map.1 hk
          exact hfresh c hc ((hmem _).2 (.inl hkey.symm))
        · exact hfresh c hc ((hmem _).2 (.inr hcm))
      · rintro ⟨⟨hk, hnodup⟩, ⟨hb, hfresh⟩, rfl⟩
        refine ⟨_, (hbody ..).2 ⟨hb, rfl⟩, (foldlM_file hbody l _ _).2 ⟨hnodup, fun c hc hcm => ?_,
          rfl⟩⟩
        rcases (hmem _).1 hcm with hkey | hcm
        · exact hk (List.mem_map.2 ⟨c, hc, hkey.symm⟩)
        · exact hfresh c hc hcm

/-- A lookup among filed values. -/
theorem getElem?_fileAll {key : β → κ} {k : κ} {x : β} : ∀ {l : List β} {m : ExtTreeMap κ β},
    (l.map key).Nodup → ((fileAll key m l)[k]? = some x ↔
      (x ∈ l ∧ key x = k) ∨ (k ∉ l.map key ∧ m[k]? = some x))
  | [], m, _ => by simp [fileAll]
  | b :: l, m, h => by
      obtain ⟨hb, hnodup⟩ := List.nodup_cons.1 h
      change (fileAll key (m.insert (key b) b) l)[k]? = some x ↔ _
      rw [getElem?_fileAll hnodup, getElem?_insert_eq_some, List.mem_cons, List.map_cons,
        List.mem_cons, not_or]
      constructor
      · rintro (⟨hx, rfl⟩ | ⟨hk, ⟨rfl, rfl⟩ | ⟨hne, hm⟩⟩)
        · exact .inl ⟨.inr hx, rfl⟩
        · exact .inl ⟨.inl rfl, rfl⟩
        · exact .inr ⟨⟨hne, hk⟩, hm⟩
      · rintro (⟨rfl | hx, rfl⟩ | ⟨⟨hne, hk⟩, hm⟩)
        · exact .inr ⟨hb, .inl ⟨rfl, rfl⟩⟩
        · exact .inl ⟨hx, rfl⟩
        · exact .inr ⟨hk, .inr ⟨hne, hm⟩⟩

/-! ## Reading entries in ascending order

`entry prev` reads one entry whose key must come after `prev`, and answers the `prev` of the next
one; `above` and `next` say which keys that admits. -/

/-- Read `n` ascending entries into a map; a key met twice is refused with `dup`. -/
def getEntries (entry : π → Get ε ((κ × β) × π)) (dup : ε) :
    ℕ → π → ExtTreeMap κ β → Get ε (ExtTreeMap κ β)
  | 0, _, m => pure m
  | n + 1, prev, m => do
    let ((k, v), prev) ← entry prev
    if m.contains k then throw dup
    else getEntries entry dup n prev (m.insert k v)

end Lawful

/-- The keys of the list come after `prev`, and each after the one before it. -/
def Ascending (above : π → κ → Prop) (next : κ → π) : π → List (κ × β) → Prop
  | _, [] => True
  | prev, e :: l => above prev e.1 ∧ Ascending above next (next e.1) l

section Entries

variable {above : π → κ → Prop} {next : κ → π} {P : κ × β → Prop} {put : κ × β → Put ε Unit}
  {entry : π → Get ε ((κ × β) × π)}

theorem ascending_iff (hnext : ∀ k k', above (next k) k' ↔ compare k k' = .lt)
    (hup : ∀ prev k k', above prev k → compare k k' = .lt → above prev k') :
    ∀ {l : List (κ × β)} {prev : π}, Ascending above next prev l ↔
      (∀ e ∈ l, above prev e.1) ∧ l.Pairwise fun a b => compare a.1 b.1 = .lt
  | [], _ => by simp [Ascending]
  | e :: l, prev => by
      rw [Ascending, ascending_iff hnext hup, List.forall_mem_cons, List.pairwise_cons]
      constructor
      · rintro ⟨he, hl, hp⟩
        have hlt : ∀ e' ∈ l, compare e.1 e'.1 = .lt := fun e' he' => (hnext _ _).1 (hl e' he')
        exact ⟨⟨he, fun e' he' => hup prev e.1 e'.1 he (hlt e' he')⟩, hlt, hp⟩
      · rintro ⟨⟨he, -⟩, hlt, hp⟩
        exact ⟨he, fun e' he' => (hnext _ _).2 (hlt e' he'), hp⟩

variable [TransOrd κ] [LawfulEqOrd κ] (dup : ε)

/-- The law of one entry, given the previous key. -/
abbrev EntryLaw (above : π → κ → Prop) (next : κ → π) (P : κ × β → Prop)
    (put : κ × β → Put ε Unit) (entry : π → Get ε ((κ × β) × π)) : Prop :=
  ∀ prev, Inverse (fun e : (κ × β) × π => (P e.1 ∧ above prev e.1.1) ∧ e.2 = next e.1.1)
    (fun e => put e.1) (entry prev)

/-- Entries written in ascending order are read back one insertion at a time. -/
theorem reads_getEntries_of_emits (h : EntryLaw above next P put entry)
    (hnext : ∀ k k', above (next k) k' ↔ compare k k' = .lt)
    (hup : ∀ prev k k', above prev k → compare k k' = .lt → above prev k') :
    ∀ (l : List (κ × β)) (prev : π) (m : ExtTreeMap κ β) (b rest : Bytes),
      (∀ e ∈ l, P e) → Ascending above next prev l →
      (∀ k ∈ m, ∀ k', above prev k' → compare k k' = .lt) → Emits (l.forM put) b →
      Reads (getEntries entry dup l.length prev m) (b ++ rest)
        (l.foldl (fun m e => m.insert e.1 e.2) m) rest
  | [], _, _, b, rest, _, _, _, hb => reads_pure.2 ⟨rfl, by rw [emits_pure.1 hb]; rfl⟩
  | e :: l, prev, m, b, rest, hP, ⟨he, hl⟩, hm, hb => by
      obtain ⟨b₁, h₁, b₂, h₂, rfl⟩ := emits_bind.1 hb
      have hhead := (h prev).get_put (a := (e, next e.1)) ⟨⟨hP e (by simp), he⟩, rfl⟩ h₁ (b₂ ++ rest)
      have hfresh : m.contains e.1 = false := by
        rw [← Bool.not_eq_true, ExtTreeMap.contains_iff_mem]
        exact fun hk => nomatch (hm e.1 hk e.1 he).symm.trans ReflCmp.compare_self
      have hm' : ∀ k ∈ m.insert e.1 e.2, ∀ k', above (next e.1) k' → compare k k' = .lt := by
        intro k hk k' hk'
        have hlt := (hnext _ _).1 hk'
        rcases ExtTreeMap.mem_insert.1 hk with heq | hk
        · exact LawfulEqCmp.eq_of_compare heq ▸ hlt
        · exact hm k hk k' (hup prev e.1 k' he hlt)
      refine reads_bind.2 ⟨(e, next e.1), b₂ ++ rest, by rw [List.append_assoc]; exact hhead, ?_⟩
      simp only [hfresh, Bool.false_eq_true, if_false]
      exact reads_getEntries_of_emits h hnext hup l _ _ b₂ rest
        (fun e' he' => hP e' (by simp [he'])) hl hm' h₂

omit [LawfulEqOrd κ] in
/-- What the ascending reader accepts is an ascending entry list. -/
theorem exists_of_reads_getEntries (h : EntryLaw above next P put entry) :
    ∀ (n : ℕ) (prev : π) (m r : ExtTreeMap κ β) (bs rest : Bytes),
      Reads (getEntries entry dup n prev m) bs r rest →
      ∃ l : List (κ × β), l.length = n ∧ (∀ e ∈ l, P e) ∧ Ascending above next prev l ∧
        r = l.foldl (fun m e => m.insert e.1 e.2) m ∧
        ∃ b, Emits (l.forM put) b ∧ bs = b ++ rest
  | 0, _, m, r, bs, rest, hr => by
      obtain ⟨rfl, rfl⟩ := reads_pure.1 hr
      exact ⟨[], rfl, by simp, trivial, rfl, [], emits_pure.2 rfl, rfl⟩
  | n + 1, prev, m, r, bs, rest, hr => by
      obtain ⟨⟨⟨k, v⟩, prev'⟩, mid, he, hrest⟩ := reads_bind.1 hr
      obtain ⟨⟨⟨hP, habove⟩, hprev⟩, b₁, h₁, rfl⟩ := (h prev).put_get he
      obtain rfl : prev' = next k := hprev
      dsimp only at hrest
      split at hrest
      · exact absurd hrest not_reads_throw
      · obtain ⟨l, rfl, hPl, hl, rfl, b₂, h₂, rfl⟩ := exists_of_reads_getEntries h n _ _ _ _ _ hrest
        exact ⟨(k, v) :: l, rfl, List.forall_mem_cons.2 ⟨hP, hPl⟩, ⟨habove, hl⟩, rfl, b₁ ++ b₂,
          emits_bind.2 ⟨b₁, h₁, b₂, h₂, rfl⟩, (List.append_assoc ..).symm⟩

/-- **A map is written as its entries in key order, and read back from them.** -/
theorem inverse_entries (h : EntryLaw above next P put entry)
    (hnext : ∀ k k', above (next k) k' ↔ compare k k' = .lt)
    (hup : ∀ prev k k', above prev k → compare k k' = .lt → above prev k') (prev : π) (n : ℕ) :
    Inverse (fun m : ExtTreeMap κ β => (∀ e ∈ m.toList, P e ∧ above prev e.1) ∧ m.size = n)
      (fun m => m.toList.forM put) (getEntries entry dup n prev ∅) where
  get_put {m b} hm hb rest := by
    obtain ⟨hP, rfl⟩ := hm
    have hasc : Ascending above next prev m.toList := (ascending_iff hnext hup).2
      ⟨fun e he => (hP e he).2, ExtTreeMap.ordered_keys_toList⟩
    have hread := reads_getEntries_of_emits dup h hnext hup m.toList prev ∅ b rest
      (fun e he => (hP e he).1) hasc (fun k hk => absurd hk ExtTreeMap.not_mem_empty) hb
    rw [ExtTreeMap.length_toList] at hread
    change Reads _ _ (ofEntries m.toList) rest at hread
    rwa [ofEntries_toList] at hread
  put_get {bs m rest} hr := by
    obtain ⟨l, hlen, hP, hasc, rfl, b, hb, rfl⟩ := exists_of_reads_getEntries dup h n prev ∅ _ _ _ hr
    obtain ⟨habove, hsorted⟩ := (ascending_iff hnext hup).1 hasc
    have hlist : (ofEntries l).toList = l := toList_ofEntries hsorted
    refine ⟨⟨fun e he => ?_, ?_⟩, b, ?_, rfl⟩
    · change e ∈ (ofEntries l).toList at he
      rw [hlist] at he
      exact ⟨hP e he, habove e he⟩
    · change (ofEntries l).size = n
      rw [← ExtTreeMap.length_toList, hlist, hlen]
    · change Emits ((ofEntries l).toList.forM put) b
      rw [hlist]
      exact hb

end Entries

/-! ## Values that carry their own key

Only the values are written; the decoder takes each key from the value it reads.  Numeric keys are
positive, so that `0` stands before all of them. -/

section ById

variable {P : β → Prop} {put : β → Put ε Unit} {get : Get ε β}

/-- The values of a map in key order. -/
def pushValues [TransOrd κ] (put : β → Put ε Unit) (m : ExtTreeMap κ β) : Put ε Unit :=
  m.toList.forM fun e => put e.2

/-- Read one value, whose id must be positive and come after `prev`. -/
def idEntry (get : Get ε β) (id : β → UInt64) (e : ε) (prev : UInt64) :
    Get ε ((UInt64 × β) × UInt64) := do
  let v ← get
  refuse (id v = 0 ∨ id v ≤ prev) e
  return ((id v, v), id v)

/-- Read `n` values with ascending positive ids. -/
def getById (get : Get ε β) (id : β → UInt64) (e : ε) (n : ℕ) : Get ε (ExtTreeMap UInt64 β) :=
  getEntries (idEntry get id e) e n 0 ∅

/-- Every value stands under its own positive id. -/
def KeyedById (id : β → UInt64) (P : β → Prop) (m : ExtTreeMap UInt64 β) : Prop :=
  ∀ (k : UInt64) (v : β), m[k]? = some v → P v ∧ k = id v ∧ k ≠ 0

theorem entryLaw_idEntry (h : Inverse P put get) (id : β → UInt64) (e : ε) :
    EntryLaw (fun prev k => k ≠ 0 ∧ prev < k) (fun k => k)
      (fun v : UInt64 × β => P v.2 ∧ v.1 = id v.2) (fun v => put v.2) (idEntry get id e) := by
  intro prev
  refine h.lastChecked (fun v : (UInt64 × β) × UInt64 => v.1.2) ?_ ?_
  · rintro ⟨⟨k, v⟩, k'⟩ ⟨⟨⟨hv, hk⟩, hne, hlt⟩, hk'⟩
    obtain rfl : k = id v := hk
    obtain rfl : k' = id v := hk'
    exact ⟨⟨hv, not_or.2 ⟨hne, UInt64.not_le.2 hlt⟩⟩, rfl⟩
  · intro v hv hc
    obtain ⟨hne, hlt⟩ := not_or.1 hc
    exact ⟨⟨⟨⟨hv, rfl⟩, hne, UInt64.not_le.1 hlt⟩, rfl⟩, rfl⟩

theorem pos_of_lt {a b : UInt64} (h : a < b) : b ≠ 0 :=
  UInt64.pos_iff_ne_zero.1 (UInt64.lt_of_le_of_lt UInt64.zero_le h)

/-- **A map whose values carry their ids**, written as its values in key order. -/
theorem inverse_byId (h : Inverse P put get) (id : β → UInt64) (e : ε) (n : ℕ) :
    Inverse (fun m : ExtTreeMap UInt64 β => KeyedById id P m ∧ m.size = n) (pushValues put)
      (getById get id e n) := by
  refine (inverse_entries e (entryLaw_idEntry h id e) (fun k k' => ?_) (fun prev k k' hk hlt => ?_)
    0 n).domain fun m => and_congr_left fun _ => ?_
  · rw [Std.compare_eq_lt]
    exact ⟨fun h => h.2, fun h => ⟨pos_of_lt h, h⟩⟩
  · have hlt := UInt64.lt_trans hk.2 (Std.compare_eq_lt.1 hlt)
    exact ⟨pos_of_lt hlt, hlt⟩
  · rw [forall_mem_toList]
    exact forall₃_congr fun k v _ => ⟨fun ⟨hv, hk, hne⟩ => ⟨⟨hv, hk⟩, hne,
      UInt64.pos_iff_ne_zero.2 hne⟩, fun ⟨⟨hv, hk⟩, hne, _⟩ => ⟨hv, hk, hne⟩⟩

end ById

/-! ## Keys that are texts -/

section ByName

/-- A key comes after the previous one, if there is one. -/
def AfterText (prev : Option String) (k : String) : Prop := ∀ p ∈ prev, p < k

theorem not_any_le_iff {prev : Option String} {k : String} :
    ¬ prev.any (k ≤ ·) = true ↔ AfterText prev k := by
  cases prev with
  | none => simp [AfterText]
  | some p => simp [AfterText]

variable {P : String × β → Prop} {put : String × β → Put ε Unit}
  {entry : Option String → Get ε ((String × β) × Option String)}

/-- **A map keyed by texts**, entries in key order. -/
theorem inverse_byText (h : EntryLaw AfterText some P put entry) (e : ε) (n : ℕ) :
    Inverse (fun m : ExtTreeMap String β => (∀ v ∈ m.toList, P v) ∧ m.size = n)
      (fun m => m.toList.forM put) (getEntries entry e n none ∅) := by
  refine (inverse_entries e h (fun k k' => ?_) (fun prev k k' hk hlt p hp => ?_) none n).domain
    fun m => and_congr_left fun _ => ?_
  · rw [compare_lt_iff_lt]
    exact ⟨fun h => h k rfl, fun h p hp => Option.some.inj hp ▸ h⟩
  · exact (hk p hp).trans (compare_lt_iff_lt.1 hlt)
  · exact ⟨fun h v hv => ⟨h v hv, fun _ hp => (nomatch hp)⟩, fun h v hv => (h v hv).1⟩

variable {Q : β → Prop} {putv : β → Put ε Unit} {get : Get ε β}

/-- Read one value, whose text must come after `prev`. -/
def textEntry (get : Get ε β) (key : β → String) (e : ε) (prev : Option String) :
    Get ε ((String × β) × Option String) := do
  let v ← get
  refuse (prev.any (key v ≤ ·)) e
  return ((key v, v), some (key v))

/-- Read `n` values with ascending texts. -/
def getByText (get : Get ε β) (key : β → String) (e : ε) (n : ℕ) : Get ε (ExtTreeMap String β) :=
  getEntries (textEntry get key e) e n none ∅

/-- Every value stands under its own text. -/
def KeyedByText (key : β → String) (Q : β → Prop) (m : ExtTreeMap String β) : Prop :=
  ∀ (k : String) (v : β), m[k]? = some v → Q v ∧ k = key v

theorem entryLaw_textEntry (h : Inverse Q putv get) (key : β → String) (e : ε) :
    EntryLaw AfterText some (fun v : String × β => Q v.2 ∧ v.1 = key v.2) (fun v => putv v.2)
      (textEntry get key e) := by
  intro prev
  refine h.lastChecked (fun v : (String × β) × Option String => v.1.2) ?_ ?_
  · rintro ⟨⟨k, v⟩, k'⟩ ⟨⟨⟨hv, hk⟩, hafter⟩, hk'⟩
    obtain rfl : k = key v := hk
    obtain rfl : k' = some (key v) := hk'
    exact ⟨⟨hv, not_any_le_iff.2 hafter⟩, rfl⟩
  · intro v hv hc
    exact ⟨⟨⟨⟨hv, rfl⟩, not_any_le_iff.1 hc⟩, rfl⟩, rfl⟩

/-- **A map whose values carry their texts**, written as its values in key order. -/
theorem inverse_byOwnText (h : Inverse Q putv get) (key : β → String) (e : ε) (n : ℕ) :
    Inverse (fun m : ExtTreeMap String β => KeyedByText key Q m ∧ m.size = n) (pushValues putv)
      (getByText get key e n) :=
  (inverse_byText (entryLaw_textEntry h key e) e n).domain fun m => and_congr_left fun _ => by
    rw [forall_mem_toList]
    exact Iff.rfl

/-- Read a text, which must come after `prev`, and the value behind it. -/
def pairEntry (getk : Get ε String) (getv : Get ε β) (e : ε) (prev : Option String) :
    Get ε ((String × β) × Option String) := do
  let key ← getk
  refuse (prev.any (key ≤ ·)) e
  let value ← getv
  return ((key, value), some key)

theorem entryLaw_pairEntry {putk : String → Put ε Unit} {getk : Get ε String} (hk : Codec putk getk)
    (hv : Codec putv get) (e : ε) :
    EntryLaw AfterText some (fun _ => True) (fun v : String × β => do putk v.1; putv v.2)
      (pairEntry getk get e) := by
  intro previous
  refine hk.checked (fun v : (String × β) × Option String => v.1.1) ?_ ?_
  · exact fun _ h => ⟨trivial, not_any_le_iff.2 h.1.2⟩
  · intro key _ hkey
    refine hv.last (fun v : (String × β) × Option String => v.1.2) ?_ ?_
    · rintro ⟨⟨k, v⟩, k'⟩ ⟨⟨-, hk'⟩, hk⟩
      obtain rfl : k = key := hk
      obtain rfl : k' = some k := hk'
      exact ⟨trivial, rfl⟩
    · exact fun value _ => ⟨⟨⟨⟨trivial, not_any_le_iff.1 hkey⟩, rfl⟩, rfl⟩, rfl⟩

end ByName

end SortedMap
