import Mathlib
import NTD97.Gpt2.Built

/-!
# Gpt2/Schedule — one merge at a time, and all occurrences in a round

    a b a b ──▸ ab a b ──▸ ab ab          a b a b ──round──▸ ab ab

The loop merges a single pair at a time.  The canonical procedure merges in each round all
occurrences of the lowest-ranked pair present, left to right.  With a merge list in which every
merge comes after those that make its parts, the two end with the same symbols.
-/

namespace NTD97

open Guard Wire

namespace Gpt2BpeTokenizer

/-- **The loop is the library's**, with the ranks of the tokenizer. -/
theorem mergeLoop_eq (mergeRanks : PairMap) (symbols : List Bytes) :
    mergeLoop mergeRanks symbols = Merging.mergeAll (rankOf mergeRanks) (· ++ ·) symbols := by
  rw [mergeLoop]
  split
  · next h =>
    rw [bestMerge_eq] at h
    rw [Merging.mergeAll_of_none h]
  · next rank index h =>
    have hbest := (bestMerge_eq mergeRanks symbols).symm.trans h
    have hlen : (mergeAt index symbols).length + 1 = symbols.length :=
      Merging.length_mergeAt (Merging.lt_length_of_bestPair hbest)
    have hlt : (mergeAt index symbols).length < symbols.length := by omega
    rw [mergeLoop_eq mergeRanks (mergeAt index symbols), Merging.mergeAll_of_some hbest, mergeAt]
termination_by symbols.length

/-- The canonical procedure: in each round, all occurrences of the lowest-ranked pair. -/
def canonicalMerges (mergeRanks : PairMap) (symbols : List Bytes) : List Bytes :=
  Merging.mergeRounds (rankOf mergeRanks) (· ++ ·) symbols

/-- **Every merge comes after those that make its parts.** -/
def MergesOrdered (mergeRanks : PairMap) : Prop :=
  ∀ (left right left' right' : Bytes) (j k : ℕ), rankOf mergeRanks left right = some j →
    rankOf mergeRanks left' right' = some k → left ++ right = left' ∨ left ++ right = right' → j < k

/-- **Merging one pair at a time is canonical** where the merges are ordered. -/
theorem mergeLoop_eq_canonicalMerges {tokens : List Bytes} {merges : List String}
    {config : Gpt2BpeConfig} {t : Gpt2BpeTokenizer} (hnew : new tokens merges config = .ok t)
    (hordered : MergesOrdered t.mergeRanks) (symbols : List Bytes) :
    mergeLoop t.mergeRanks symbols = canonicalMerges t.mergeRanks symbols := by
  have hrank : Merging.Ordered (rankOf t.mergeRanks) (· ++ ·) :=
    ⟨(built_of_new hnew).injective, fun hab hcd hpart => hordered _ _ _ _ _ _ hab hcd hpart⟩
  rw [mergeLoop_eq, Merging.mergeAll_eq_mergeRounds hrank, canonicalMerges]

/-! ## A sample tokenizer -/

namespace Sample

/-- The characters of all bytes, and two products. -/
def tokens : List Bytes :=
  gpt2ByteEncoder.map (fun character => utf8 character.toString) ++ [utf8 "ab", utf8 "abab"]

/-- A vocabulary without special tokens. -/
def config : Gpt2BpeConfig where
  bosToken := none
  eosToken := none
  unknownToken := none
  addBosToken := false
  addEosToken := false

def merges : List String := ["a b", "ab ab"]

def tokenizer : Gpt2BpeTokenizer :=
  (new tokens merges config).toOption.getD ⟨[], none, none, none, false, false, ∅, ∅, [], ∅⟩

theorem built : (new tokens merges config).toOption.isSome ∧ tokenizer.mergeRanks.toList =
    [((utf8 "a", utf8 "b"), 0), ((utf8 "ab", utf8 "ab"), 1)] := by
  decide +kernel

theorem new_eq : new tokens merges config = .ok tokenizer := eq_ok_getD built.1 _

/-- What has a rank is listed with it. -/
theorem mem_of_rankOf {left right : Bytes} {k : ℕ} {m : PairMap}
    (h : rankOf m left right = some k) : ((left, right), k) ∈ m.toList :=
  Std.ExtTreeMap.mem_toList_iff_getElem?_eq_some.2 h

theorem mergesOrdered : MergesOrdered tokenizer.mergeRanks := by
  have hparts : ∀ e ∈ [((utf8 "a", utf8 "b"), 0), ((utf8 "ab", utf8 "ab"), 1)],
      ∀ e' ∈ [((utf8 "a", utf8 "b"), 0), ((utf8 "ab", utf8 "ab"), 1)],
        e.1.1 ++ e.1.2 = e'.1.1 ∨ e.1.1 ++ e.1.2 = e'.1.2 → e.2 < e'.2 := by decide +kernel
  intro left right left' right' j k hj hk
  have hj := mem_of_rankOf hj
  have hk := mem_of_rankOf hk
  rw [built.2] at hj hk
  exact hparts _ hj _ hk

/-- The symbols `a b a b`. -/
def word : List Bytes := [utf8 "a", utf8 "b", utf8 "a", utf8 "b"]

end Sample

/-- Two rounds merge the word into one symbol, and so does the loop. -/
theorem mergeLoop_eq_canonicalMerges_word :
    mergeLoop Sample.tokenizer.mergeRanks Sample.word =
      canonicalMerges Sample.tokenizer.mergeRanks Sample.word :=
  mergeLoop_eq_canonicalMerges Sample.new_eq Sample.mergesOrdered Sample.word

end Gpt2BpeTokenizer

end NTD97
