import Mathlib
import NTD97.Gpt2
import NTD97.Lib.SortedMap

/-!
# Gpt2/Built — what `new` establishes

    id ──tokens──▸ symbol ──tokenToId──▸ id          byte ──byteEncoder──▸ character ──▸ byte

`Built` is all that encoding and decoding rest on: ids lead back to their symbols, every character
of the alphabet and the product of every merge is a token, ranks name one merge each, and the
alphabet names one byte by each of its characters.
-/

namespace NTD97

open Guard Wire SortedMap

namespace Gpt2BpeTokenizer

/-! ## The alphabet -/

theorem length_gpt2ByteEncoder : gpt2ByteEncoder.length = 256 := by
  rw [gpt2ByteEncoder, List.length_map, List.length_range]

theorem toNat_charOfNat {n : ℕ} (h : n < 0xD800) : (Char.ofNat n).toNat = n := by
  rw [Char.ofNat, dif_pos (Or.inl h)]
  rfl

/-- **No two bytes have one character**: some stand for themselves, and the others count up. -/
theorem nodup_gpt2ByteEncoder : gpt2ByteEncoder.Nodup := by
  refine List.Nodup.map_on (fun x hx y hy h => ?_) List.nodup_range
  rw [List.mem_range] at hx hy
  have hcount (n : ℕ) : ((List.range n).filter (¬ Printable ·)).length =
      Nat.count (¬ Printable ·) n := by
    rw [Nat.count, List.countP_eq_length_filter]
  have hle (n : ℕ) : Nat.count (¬ Printable ·) n ≤ n := Nat.count_le _
  have hx' := hle x
  have hy' := hle y
  have heq := congrArg Char.toNat h
  rw [hcount, hcount] at heq
  by_cases hpx : Printable x
  · by_cases hpy : Printable y
    · rw [if_pos hpx, if_pos hpy, toNat_charOfNat (by omega), toNat_charOfNat (by omega)] at heq
      exact heq
    · rw [if_pos hpx, if_neg hpy, toNat_charOfNat (by omega), toNat_charOfNat (by omega)] at heq
      omega
  · by_cases hpy : Printable y
    · rw [if_neg hpx, if_pos hpy, toNat_charOfNat (by omega), toNat_charOfNat (by omega)] at heq
      omega
    · rw [if_neg hpx, if_neg hpy, toNat_charOfNat (by omega), toNat_charOfNat (by omega)] at heq
      exact Nat.count_injective (p := (¬ Printable ·)) hpx hpy (Nat.add_left_cancel heq)

/-- A value inserted under a key that does not come again stays. -/
theorem getElem?_foldl_insert {α κ β : Type} [Ord κ] [Std.TransOrd κ] [Std.LawfulEqOrd κ]
    {key : α → κ} {value : α → β} {a : α} : ∀ {l : List α} {m : BTreeMap κ β},
      (l.map key).Nodup → a ∈ l ∨ (key a ∉ l.map key ∧ m[key a]? = some (value a)) →
        (l.foldl (fun m a => m.insert (key a) (value a)) m)[key a]? = some (value a)
  | [], m, _, h => by
      rcases h with h | h
      · exact nomatch h
      · exact h.2
  | b :: l, m, hnodup, h => by
      obtain ⟨hb, hnodup⟩ := List.nodup_cons.1 hnodup
      change (l.foldl _ (m.insert (key b) (value b)))[key a]? = _
      refine getElem?_foldl_insert hnodup ?_
      rw [List.mem_cons, List.map_cons, List.mem_cons, not_or] at h
      rcases h with (rfl | ha) | ⟨⟨hne, hl⟩, hm⟩
      · exact .inr ⟨hb, getElem?_insert_eq_some.2 (.inl ⟨rfl, rfl⟩)⟩
      · exact .inl ha
      · exact .inr ⟨hl, getElem?_insert_eq_some.2 (.inr ⟨hne, hm⟩)⟩

/-- **An alphabet without repetitions names its bytes.** -/
theorem getElem?_byteDecoder {encoder : List Char} (hlen : encoder.length = 256)
    (hencoder : encoder.Nodup) (byte : UInt8) :
    (encoder.zipIdx.foldl (fun (bytes : BTreeMap Char UInt8) entry =>
      bytes.insert entry.1 (UInt8.ofNat entry.2)) ∅)[encoder.getD byte.toNat '\x00']? =
      some byte := by
  have hlt : byte.toNat < encoder.length := hlen ▸ byte.toNat_lt
  have hmem : (encoder[byte.toNat], byte.toNat) ∈ encoder.zipIdx :=
    List.mem_zipIdx_iff_getElem?.2 (List.getElem?_eq_getElem hlt)
  have hnodup : (encoder.zipIdx.map Prod.fst).Nodup := by
    rw [List.zipIdx_map_fst]
    exact hencoder
  have hlookup : (encoder.zipIdx.foldl (fun (bytes : BTreeMap Char UInt8) entry =>
      bytes.insert entry.1 (UInt8.ofNat entry.2)) ∅)[encoder[byte.toNat]]? =
      some (UInt8.ofNat byte.toNat) := getElem?_foldl_insert hnodup (.inl hmem)
  rw [List.getD_eq_getElem _ _ hlt, hlookup, UInt8.ofNat_toNat]

/-! ## A tokenizer that was built -/

/-- **What `new` establishes.** -/
structure Built (t : Gpt2BpeTokenizer) : Prop where
  token : ∀ (symbol : Bytes) (id : UInt32), t.tokenToId[symbol]? = some id →
    t.tokens[id.toNat]? = some symbol
  product : ∀ (left right : Bytes) (k : ℕ), rankOf t.mergeRanks left right = some k →
    left ++ right ∈ t.tokenToId
  injective : ∀ {a b c d : Bytes} {k : ℕ}, rankOf t.mergeRanks a b = some k →
    rankOf t.mergeRanks c d = some k → a = c ∧ b = d
  encoder : t.byteEncoder = gpt2ByteEncoder
  decoder : ∀ byte : UInt8, t.byteDecoder[gpt2ByteEncoder.getD byte.toNat '\x00']? = some byte
  letter : ∀ character ∈ gpt2ByteEncoder, utf8 character.toString ∈ t.tokenToId

/-- What a merge list finds after one more merge. -/
theorem getElem?_insert_pair {m : PairMap} {key key' : Bytes × Bytes} {rank k : ℕ} :
    (m.insert key rank)[key']? = some k ↔
      (key = key' ∧ rank = k) ∨ (key ≠ key' ∧ m[key']? = some k) := by
  rw [Std.ExtTreeMap.getElem?_insert]
  by_cases h : key = key'
  · subst h
    simp
  · simp [h]

/-- The merges read so far, `n` of them. -/
structure MergesRead (tokenToId : BTreeMap Bytes UInt32) (n : ℕ) (m : PairMap) : Prop where
  rank_lt : ∀ (key : Bytes × Bytes) (k : ℕ), m[key]? = some k → k < n
  product : ∀ (key : Bytes × Bytes) (k : ℕ), m[key]? = some k → key.1 ++ key.2 ∈ tokenToId
  injective : ∀ (key key' : Bytes × Bytes) (k : ℕ), m[key]? = some k → m[key']? = some k →
    key = key'

/-- One more line of the merge list. -/
theorem MergesRead.insert {tokenToId : BTreeMap Bytes UInt32} {n : ℕ} {m m' : PairMap}
    {merge : String} (h : MergesRead tokenToId n m)
    (hinsert : insertMerge tokenToId m (merge, n) = .ok m') : MergesRead tokenToId (n + 1) m' := by
  simp only [insertMerge, bind_eq_ok, exists_unit, refuse_eq_ok, okOr_eq_ok, pure_eq_ok,
    not_not] at hinsert
  obtain ⟨⟨left, right⟩, -, hfresh, hproduct, rfl⟩ := hinsert
  have hold : ∀ (key : Bytes × Bytes), m[key]? ≠ some n := fun key hkey =>
    lt_irrefl n (h.rank_lt key n hkey)
  refine ⟨fun key k hk => ?_, fun key k hk => ?_, fun key key' k hk hk' => ?_⟩
  · rcases getElem?_insert_pair.1 hk with ⟨-, rfl⟩ | ⟨-, hk⟩
    · exact Nat.lt_succ_self n
    · exact Nat.lt_succ_of_lt (h.rank_lt key k hk)
  · rcases getElem?_insert_pair.1 hk with ⟨rfl, -⟩ | ⟨-, hk⟩
    · exact hproduct
    · exact h.product key k hk
  · rcases getElem?_insert_pair.1 hk with ⟨rfl, rfl⟩ | ⟨-, hk⟩ <;>
      rcases getElem?_insert_pair.1 hk' with ⟨rfl, hrank⟩ | ⟨-, hk'⟩
    · rfl
    · exact absurd hk' (hold key')
    · exact absurd (hrank ▸ hk) (hold key)
    · exact h.injective key key' k hk hk'

/-- Every id leads back to its symbol. -/
def LeadsBack (tokens : List Bytes) (tokenToId : BTreeMap Bytes UInt32) : Prop :=
  ∀ (symbol : Bytes) (id : UInt32), tokenToId[symbol]? = some id → tokens[id.toNat]? = some symbol

/-- One more token. -/
theorem LeadsBack.insert {tokens : List Bytes} {n : ℕ} {m m' : BTreeMap Bytes UInt32}
    {token : Bytes} (h : LeadsBack tokens m) (htoken : tokens[n]? = some token)
    (hinsert : insertToken m (token, n) = .ok m') : LeadsBack tokens m' := by
  simp only [insertToken, bind_eq_ok, pure_eq_ok] at hinsert
  obtain ⟨id, hid, rfl⟩ := hinsert
  intro symbol id' hlookup
  rcases getElem?_insert_eq_some.1 hlookup with ⟨rfl, rfl⟩ | ⟨-, hlookup⟩
  · rw [lenU32_eq_ok.1 hid, htoken]
  · exact h symbol id' hlookup

/-- **A tokenizer that `new` accepts** has all that encoding and decoding rest on. -/
theorem built_of_new {tokens : List Bytes} {merges : List String} {config : Gpt2BpeConfig}
    {t : Gpt2BpeTokenizer} (h : new tokens merges config = .ok t) : Built t := by
  simp only [new, bind_eq_ok, exists_unit, pure_eq_ok, forM_eq_ok, refuse_eq_ok, not_not] at h
  obtain ⟨-, -, tokenToId, htokens, mergeRanks, hmerges, hletters, rfl⟩ := h
  have htoken : LeadsBack tokens tokenToId := by
    refine foldlM_zipIdx (I := fun _ m => LeadsBack tokens m) (fun i token m m' hi hm hf => ?_)
      (fun symbol id h => ?_) htokens
    · exact hm.insert (by rw [Nat.zero_add, hi]) hf
    · rw [Std.ExtTreeMap.getElem?_empty] at h
      cases h
  have hread : MergesRead tokenToId (0 + merges.length) mergeRanks := by
    refine foldlM_zipIdx (fun i merge m m' _ hm hf => hm.insert hf) ⟨?_, ?_, ?_⟩ hmerges
    all_goals simp
  have hdecoder := getElem?_byteDecoder length_gpt2ByteEncoder nodup_gpt2ByteEncoder
  exact {
    token := htoken
    product := fun left right k hk => hread.product (left, right) k hk
    injective := fun hab hcd => Prod.mk.inj (hread.injective _ _ _ hab hcd)
    encoder := rfl
    decoder := by
      intro byte
      dsimp only
      exact hdecoder byte
    letter := hletters }

end Gpt2BpeTokenizer

end NTD97
