import Mathlib
import NTD97.KvCache

/-!
# KvCache/Refinement — the cache is a list of rows for each layer

    cache ──call──▸ cache'
      │               │        Refines
    rows ──call──▸ rows'

`HasRows` ties a tensor to its rows.  Joining and cutting tensors are joining and cutting rows, and
whether they succeed is read off the shapes (`concatSequence_of_shapes`, `HasRows.retain`); with the
shapes of keys and values equal, a call that fails stops before it writes.
-/

namespace NTD97

open Effect Guard Machine

/-! ## Rows of one tensor -/

theorem drop_flatten {α : Type} {width : ℕ} : ∀ {rows : List (List α)} {k : ℕ},
    (∀ row ∈ rows, row.length = width) → rows.flatten.drop (k * width) = (rows.drop k).flatten
  | rows, 0, _ => by rw [Nat.zero_mul, List.drop_zero, List.drop_zero]
  | [], k + 1, _ => by rw [List.flatten_nil, List.drop_nil, List.drop_nil, List.flatten_nil]
  | row :: rows, k + 1, h => by
      obtain ⟨hrow, hrows⟩ := List.forall_mem_cons.1 h
      have hcount : (k + 1) * width = row.length + k * width := by rw [hrow]; ring
      rw [List.flatten_cons, hcount, List.drop_length_add_append, List.drop_succ_cons,
        drop_flatten hrows]

theorem length_flatten_of_width {α : Type} {width : ℕ} {rows : List (List α)}
    (h : ∀ row ∈ rows, row.length = width) : rows.flatten.length = rows.length * width := by
  rw [List.length_flatten, List.map_congr_left h, List.map_const', List.sum_replicate,
    smul_eq_mul]

/-- Cutting a list in rows and joining them again. -/
theorem flatten_cut {α : Type} {width : ℕ} : ∀ {n : ℕ} {l : List α}, l.length = n * width →
    ((List.range n).map fun row => (l.drop (row * width)).take width).flatten = l
  | 0, l, h => by
      rw [Nat.zero_mul] at h
      rw [List.length_eq_zero_iff.1 h]
      rfl
  | n + 1, l, h => by
      have hlength : (l.drop width).length = n * width := by
        rw [List.length_drop, h, Nat.succ_mul, Nat.add_sub_cancel]
      have htail : ∀ row ∈ List.range n, ((l.drop ((row + 1) * width)).take width) =
          ((l.drop width).drop (row * width)).take width := by
        intro row _
        rw [List.drop_drop, Nat.succ_mul, Nat.add_comm]
      rw [List.range_succ_eq_map, List.map_cons, List.map_map, List.flatten_cons, Nat.zero_mul,
        List.drop_zero]
      refine Eq.trans ?_ (List.take_append_drop width l)
      congr 1
      refine Eq.trans ?_ (flatten_cut hlength)
      exact congrArg List.flatten (List.map_congr_left htail)

/-- **A tensor holds these rows**, of this shape. -/
structure HasRows (t : Tensor) (rowShape : List ℕ) (rows : List (List F32)) : Prop where
  shape : t.shape = rows.length :: rowShape
  data : t.data = rows.flatten
  width : ∀ row ∈ rows, row.length = rowShape.prod

theorem hasRows_rows {t : Tensor} {n : ℕ} {shape : List ℕ} (h : t.shape = n :: shape) :
    HasRows t shape t.rows := by
  have hlength : t.data.length = n * shape.prod := by rw [t.length_data, h, List.prod_cons]
  have hrows : t.rows = (List.range n).map fun row =>
      (t.data.drop (row * shape.prod)).take shape.prod := by
    simp only [Tensor.rows, h]
  refine ⟨?_, ?_, ?_⟩
  · rw [h, hrows, List.length_map, List.length_range]
  · rw [hrows, flatten_cut hlength]
  · rw [hrows, List.forall_mem_map]
    intro row hrow
    have hle : (row + 1) * shape.prod ≤ n * shape.prod :=
      Nat.mul_le_mul_right _ (List.mem_range.1 hrow)
    rw [Nat.succ_mul] at hle
    rw [List.length_take, List.length_drop, hlength]
    omega

/-! ## Joining -/

theorem concatSequence_eq_ok {left right u : Tensor} : concatSequence left right = .ok u ↔
    ∃ n m shape, left.shape = n :: shape ∧ right.shape = m :: shape ∧ n + m < 2 ^ 64 ∧
      left.data.length + right.data.length < 2 ^ 64 ∧ u.shape = (n + m) :: shape ∧
        u.data = left.data ++ right.data := by
  constructor
  · intro h
    rw [concatSequence] at h
    split at h
    · next n shape m shape' hleft hright =>
      simp only [bind_eq_ok, exists_unit, refuse_eq_ok, not_not, okOr_eq_ok, mapError_eq_ok,
        checkedAddUsize_eq_some, Tensor.new_eq_ok] at h
      obtain ⟨rfl, _, ⟨hrows, rfl⟩, _, ⟨helements, rfl⟩, hshape, hdata⟩ := h
      exact ⟨n, m, shape, hleft, hright, hrows, helements, hshape, hdata⟩
    · exact (throw_ne_ok.1 h).elim
  · rintro ⟨n, m, shape, hleft, hright, hrows, helements, hshape, hdata⟩
    simp only [concatSequence, hleft, hright, bind_eq_ok, exists_unit, refuse_eq_ok, not_not,
      okOr_eq_ok, mapError_eq_ok, checkedAddUsize_eq_some, Tensor.new_eq_ok]
    exact ⟨trivial, _, ⟨hrows, rfl⟩, _, ⟨helements, rfl⟩, hshape, hdata⟩

theorem length_data_of_shape {t u : Tensor} (h : t.shape = u.shape) :
    t.data.length = u.data.length := by
  rw [t.length_data, u.length_data, h]

/-- **Whether tensors can be joined is read off their shapes.** -/
theorem concatSequence_of_shapes {left right left' right' u : Tensor}
    (h : concatSequence left right = .ok u) (hleft : left'.shape = left.shape)
    (hright : right'.shape = right.shape) : ∃ u', concatSequence left' right' = .ok u' := by
  obtain ⟨n, m, shape, hn, hm, hrows, helements, hshape, hdata⟩ := concatSequence_eq_ok.1 h
  have hlength : u.data.length = (left'.data ++ right'.data).length := by
    rw [hdata, List.length_append, List.length_append, length_data_of_shape hleft,
      length_data_of_shape hright]
  have hsized : elementCountUsize u.shape = .ok (left'.data ++ right'.data).length := by
    rw [u.sized, hlength]
  refine ⟨⟨u.shape, left'.data ++ right'.data, hsized⟩, concatSequence_eq_ok.2 ?_⟩
  refine ⟨n, m, shape, hleft.trans hn, hright.trans hm, hrows, ?_, hshape, rfl⟩
  rw [length_data_of_shape hleft, length_data_of_shape hright]
  exact helements

namespace HasRows

variable {t t' u : Tensor} {shape shape' : List ℕ} {rows rows' : List (List F32)}

theorem concat (h : HasRows t shape rows) (h' : HasRows t' shape' rows')
    (hu : concatSequence t t' = .ok u) : HasRows u shape (rows ++ rows') := by
  obtain ⟨n, m, s, hn, hm, -, -, hshape, hdata⟩ := concatSequence_eq_ok.1 hu
  obtain ⟨rfl, rfl⟩ := List.cons.inj (hn.symm.trans h.shape)
  obtain ⟨rfl, rfl⟩ := List.cons.inj (hm.symm.trans h'.shape)
  refine ⟨by rw [hshape, List.length_append], by rw [hdata, h.data, h'.data, List.flatten_append],
    fun row hrow => ?_⟩
  rcases List.mem_append.1 hrow with hrow | hrow
  · exact h.width row hrow
  · exact h'.width row hrow

theorem length_lastRows {n : ℕ} (h : n ≤ rows.length) : (lastRows n rows).length = n := by
  rw [lastRows, List.length_drop]
  omega

/-- **Cutting always succeeds**, and keeps the last rows. -/
theorem retain (h : HasRows t shape rows) (n : ℕ) :
    ∃ u, retainLastSequence t n = .ok u ∧ HasRows u shape (lastRows n rows) := by
  rcases Nat.lt_or_ge n rows.length with hlt | hge
  · have hcount : t.data.length = rows.length * shape.prod := by
      rw [h.data, length_flatten_of_width h.width]
    have hwidth : t.data.length / rows.length = shape.prod := by
      rw [hcount, Nat.mul_div_cancel_left _ (Nat.zero_lt_of_lt hlt)]
    have hdata : t.data.drop ((rows.length - n) * shape.prod) = (lastRows n rows).flatten := by
      rw [h.data, drop_flatten h.width, lastRows]
    have hlast : ∀ row ∈ lastRows n rows, row.length = shape.prod :=
      fun row hrow => h.width row (List.mem_of_mem_drop hrow)
    have hsized : elementCountUsize (n :: shape) = .ok (lastRows n rows).flatten.length := by
      rw [length_flatten_of_width hlast, length_lastRows hlt.le]
      exact elementCountUsize_of_le hlt.le (h.shape ▸ t.sized)
    have hstart : (rows.length - n) * shape.prod < 2 ^ 64 := by
      have hle : (rows.length - n) * shape.prod ≤ rows.length * shape.prod :=
        Nat.mul_le_mul_right _ (Nat.sub_le _ _)
      exact (hle.trans_eq hcount.symm).trans_lt t.length_data_lt
    refine ⟨⟨n :: shape, (lastRows n rows).flatten, hsized⟩, ?_, ?_, rfl, hlast⟩
    · simp only [retainLastSequence, h.shape, if_neg (Nat.not_le.2 hlt), hwidth]
      refine bind_eq_ok.2 ⟨_, okOr_eq_ok.2 (if_pos hlt.le), bind_eq_ok.2 ⟨_, okOr_eq_ok.2
        (checkedMulUsize_eq_some.2 ⟨hstart, rfl⟩), mapError_eq_ok.2 ?_⟩⟩
      exact Tensor.new_eq_ok.2 ⟨rfl, hdata.symm⟩
    · rw [length_lastRows hlt.le]
  · have hall : lastRows n rows = rows := by
      rw [lastRows, Nat.sub_eq_zero_of_le hge, List.drop_zero]
    refine ⟨t, ?_, hall.symm ▸ h⟩
    simp only [retainLastSequence, h.shape, if_pos hge]
    rfl

end HasRows

/-! ## One layer -/

/-- **A layer holds these rows**, as many keys as values. -/
structure LayerHolds (c : KvLayerCache) (r : LayerRows) : Prop where
  key : HasRows c.key r.shape r.keys
  value : HasRows c.value r.shape r.values
  paired : r.keys.length = r.values.length

namespace LayerHolds

variable {c : KvLayerCache} {r : LayerRows} {key value newKey newValue : Tensor}

theorem shapes_eq (h : LayerHolds c r) : c.key.shape = c.value.shape := by
  rw [h.key.shape, h.value.shape, h.paired]

end LayerHolds

/-- What is appended has rows, as many keys as values and of one shape. -/
theorem validateKvPair_eq_ok {key value : Tensor} : validateKvPair key value = .ok () ↔
    ∃ n shape, key.shape = n :: shape ∧ value.shape = n :: shape := by
  simp only [validateKvPair, bind_eq_ok, exists_unit, refuse_eq_ok, not_or, ne_eq, not_not]
  constructor
  · rintro ⟨⟨hkey, hvalue⟩, hhead, htail⟩
    obtain ⟨n, shape, hn⟩ := List.exists_cons_of_ne_nil hkey
    obtain ⟨m, shape', hm⟩ := List.exists_cons_of_ne_nil hvalue
    rw [hn, hm] at hhead htail
    obtain rfl := Option.some.inj hhead
    obtain rfl : shape = shape' := htail
    exact ⟨n, shape, hn, hm⟩
  · rintro ⟨n, shape, hn, hm⟩
    rw [hn, hm]
    exact ⟨⟨List.cons_ne_nil _ _, List.cons_ne_nil _ _⟩, rfl, rfl⟩

namespace LayerHolds

variable {c : KvLayerCache} {r : LayerRows} {key value newKey newValue : Tensor}

theorem ofPair (h : validateKvPair key value = .ok ()) :
    LayerHolds ⟨key, value⟩ (.ofPair key value) := by
  obtain ⟨n, shape, hn, hm⟩ := validateKvPair_eq_ok.1 h
  have hshape : key.shape.tail = shape := by rw [hn, List.tail_cons]
  have hkey : HasRows key key.shape.tail key.rows := hshape.symm ▸ hasRows_rows hn
  have hvalue : HasRows value key.shape.tail value.rows := hshape.symm ▸ hasRows_rows hm
  refine ⟨hkey, hvalue, ?_⟩
  have hcount := hkey.shape.symm.trans (hn.trans (hm.symm.trans hvalue.shape))
  exact (List.cons.inj hcount).1

theorem append (h : LayerHolds c r) (hpair : validateKvPair key value = .ok ())
    (hkey : concatSequence c.key key = .ok newKey)
    (hvalue : concatSequence c.value value = .ok newValue) :
    LayerHolds ⟨newKey, newValue⟩ (r.append key value) := by
  have hnew := ofPair hpair
  refine ⟨h.key.concat hnew.key hkey, h.value.concat hnew.value hvalue, ?_⟩
  change (r.keys ++ key.rows).length = (r.values ++ value.rows).length
  have hpaired : key.rows.length = value.rows.length := hnew.paired
  rw [List.length_append, List.length_append, h.paired, hpaired]

theorem truncateLeft (h : LayerHolds c r) (n : ℕ) : ∃ newKey newValue,
    retainLastSequence c.key n = .ok newKey ∧ retainLastSequence c.value n = .ok newValue ∧
      LayerHolds ⟨newKey, newValue⟩ (r.truncateLeft n) := by
  obtain ⟨newKey, hkey, hkeys⟩ := h.key.retain n
  obtain ⟨newValue, hvalue, hvalues⟩ := h.value.retain n
  refine ⟨newKey, newValue, hkey, hvalue, hkeys, hvalues, ?_⟩
  change (lastRows n r.keys).length = (lastRows n r.values).length
  rw [lastRows, lastRows, List.length_drop, List.length_drop, h.paired]

end LayerHolds

/-! ## The whole cache -/

namespace KvCache

/-- **The cache holds these rows**, layer by layer. -/
def Refines (cache : KvCache) (rows : Rows) : Prop :=
  ∀ layer, Option.Rel LayerHolds (cache.layer layer) (rows layer)

variable {cache : KvCache} {rows : Rows} {layer : UInt32} {existing : KvLayerCache}
  {f g : Tensor → Except KvCacheError Tensor} {newKey newValue : Tensor}

theorem refines_empty : Refines empty fun _ => none := by
  intro layer
  have hnone : empty.layer layer = none := Std.ExtTreeMap.getElem?_empty
  rw [hnone]
  exact .none

/-- Key first, then value: what `append` and `truncate_left` do to a layer. -/
def rewrite (layer : UInt32) (existing : KvLayerCache)
    (f g : Tensor → Except KvCacheError Tensor) : Eff KvCache KvCacheError Unit := do
  let newKey ← check id (f existing.key)
  modify (setKey layer newKey)
  let newValue ← check id (g existing.value)
  modify (setValue layer newValue)

theorem exec_rewrite_error {e : KvCacheError} (h : f existing.key = .error e) :
    exec (rewrite layer existing f g) cache = (.error e, cache) := by
  rw [rewrite, h]
  rfl

theorem exec_rewrite_ok (hlayer : cache.layer layer = some existing)
    (hkey : f existing.key = .ok newKey) (hvalue : g existing.value = .ok newValue) :
    ∃ cache', exec (rewrite layer existing f g) cache = (.ok (), cache') ∧
      cache'.layer = Function.update cache.layer layer (some ⟨newKey, newValue⟩) := by
  refine ⟨setValue layer newValue (setKey layer newKey cache), ?_, ?_⟩
  · rw [rewrite, hkey, hvalue]
    rfl
  · have hlook : cache.layers[layer]? = some existing := hlayer
    funext other
    change ((cache.layers.modify layer _).modify layer _)[other]? = _
    rcases eq_or_ne other layer with rfl | hne
    · rw [Function.update_self, Std.ExtTreeMap.getElem?_modify_self,
        Std.ExtTreeMap.getElem?_modify_self, hlook]
      rfl
    · have hcmp : ¬ compare layer other = .eq := fun h => hne (Std.compare_eq_iff_eq.1 h).symm
      rw [Function.update_of_ne hne, Std.ExtTreeMap.getElem?_modify, if_neg hcmp,
        Std.ExtTreeMap.getElem?_modify, if_neg hcmp]
      rfl

/-- A layer that is rewritten with its rows. -/
theorem Refines.update {cache' : KvCache} {c : KvLayerCache} {r : LayerRows}
    (h : Refines cache rows) (hcache' : cache'.layer = Function.update cache.layer layer (some c))
    (hc : LayerHolds c r) : Refines cache' (Function.update rows layer (some r)) := by
  intro other
  rw [hcache']
  rcases eq_or_ne other layer with rfl | hne
  · rw [Function.update_self, Function.update_self]
    exact .some hc
  · rw [Function.update_of_ne hne, Function.update_of_ne hne]
    exact h other

/-- **`append`** fails before it writes, or appends the rows. -/
theorem exec_append (h : Refines cache rows) (layer : UInt32) (key value : Tensor) :
    (∃ e, exec (append layer key value) cache = (.error e, cache)) ∨
    ∃ cache', exec (append layer key value) cache = (.ok (), cache') ∧
      Refines cache' (rows.call (.append layer key value)) := by
  rcases hpair : validateKvPair key value with e | u
  · refine .inl ⟨e, ?_⟩
    rw [append, hpair]
    rfl
  have hlayer := h layer
  rcases hold : cache.layer layer with _ | existing
  · -- the first rows of a layer
    refine .inr ⟨⟨cache.layers.insert layer ⟨key, value⟩⟩, ?_, ?_⟩
    · rw [append, hpair, exec_check_ok_bind, exec_get_bind, hold]
      rfl
    · rw [hold] at hlayer
      have hrows : rows layer = none := by
        cases hr : rows layer with
        | none => rfl
        | some r =>
          rw [hr] at hlayer
          cases hlayer
      rw [Rows.call, hrows]
      refine h.update ?_ (LayerHolds.ofPair hpair)
      funext other
      change (cache.layers.insert layer _)[other]? = _
      rcases eq_or_ne other layer with rfl | hne
      · rw [Function.update_self, Std.ExtTreeMap.getElem?_insert_self]
      · have hcmp : ¬ compare layer other = .eq := fun h => hne (Std.compare_eq_iff_eq.1 h).symm
        rw [Function.update_of_ne hne, Std.ExtTreeMap.getElem?_insert, if_neg hcmp]
        rfl
  · have hrun : exec (append layer key value) cache = exec (rewrite layer existing
        (concatSequence · key) (concatSequence · value)) cache := by
      rw [append, hpair, exec_check_ok_bind, exec_get_bind, hold]
      rfl
    rw [hold] at hlayer
    rw [hrun]
    rcases hr : rows layer with _ | r
    · rw [hr] at hlayer
      cases hlayer
    rw [hr] at hlayer
    cases hlayer with
    | some hholds =>
      rcases hkey : concatSequence existing.key key with e | newKey
      · exact .inl ⟨e, exec_rewrite_error hkey⟩
      · -- the shapes are the same, so the value can be joined as well
        obtain ⟨n, shape, hn, hm⟩ := validateKvPair_eq_ok.1 hpair
        obtain ⟨newValue, hvalue⟩ := concatSequence_of_shapes hkey hholds.shapes_eq.symm
          (hm.trans hn.symm)
        obtain ⟨cache', hexec, hcache'⟩ :=
          exec_rewrite_ok (f := (concatSequence · key)) (g := (concatSequence · value)) hold hkey
            hvalue
        refine .inr ⟨cache', hexec, ?_⟩
        rw [Rows.call, hr]
        exact h.update hcache' (hholds.append hpair hkey hvalue)

/-- One layer of **`truncate_left`**. -/
theorem exec_truncateLayer (h : Refines cache rows) (n : ℕ) (layer : UInt32) :
    ∃ cache', exec (truncateLayer n layer) cache = (.ok (), cache') ∧
      Refines cache' (Function.update rows layer ((rows layer).map (LayerRows.truncateLeft n))) := by
  have hlayer := h layer
  rcases hold : cache.layer layer with _ | existing <;> rcases hr : rows layer with _ | r <;>
    rw [hold, hr] at hlayer
  · refine ⟨cache, ?_, ?_⟩
    · rw [truncateLayer, exec_get_bind, hold]
      rfl
    · rw [Option.map_none, ← hr, Function.update_eq_self]
      exact h
  · cases hlayer
  · cases hlayer
  · cases hlayer with
    | some hholds =>
      obtain ⟨newKey, newValue, hkey, hvalue, hnew⟩ := hholds.truncateLeft n
      obtain ⟨cache', hexec, hcache'⟩ := exec_rewrite_ok (f := (retainLastSequence · n))
        (g := (retainLastSequence · n)) hold hkey hvalue
      refine ⟨cache', ?_, h.update hcache' hnew⟩
      rw [truncateLayer, exec_get_bind, hold]
      exact hexec

/-- The loop over the layers. -/
theorem exec_truncateLayers (n : ℕ) : ∀ {layers : List UInt32} {cache : KvCache} {rows : Rows},
    layers.Nodup → Refines cache rows →
      ∃ cache', exec (layers.forM (truncateLayer n)) cache = (.ok (), cache') ∧
        Refines cache' fun layer => if layer ∈ layers then
          (rows layer).map (LayerRows.truncateLeft n) else rows layer
  | [], cache, rows, _, h => ⟨cache, rfl, by simpa using h⟩
  | layer :: layers, cache, rows, hnodup, h => by
      obtain ⟨hnew, hnodup⟩ := List.nodup_cons.1 hnodup
      obtain ⟨mid, hmid, hmidRows⟩ := exec_truncateLayer h n layer
      obtain ⟨cache', hexec, hrows⟩ := exec_truncateLayers n hnodup hmidRows
      refine ⟨cache', ?_, ?_⟩
      · rw [List.forM, exec_bind_ok hmid]
        exact hexec
      · intro other
        have hother := hrows other
        beta_reduce at hother ⊢
        rcases eq_or_ne other layer with rfl | hne
        · rw [if_neg hnew, Function.update_self] at hother
          rw [if_pos List.mem_cons_self]
          exact hother
        · rw [Function.update_of_ne hne] at hother
          simpa only [List.mem_cons, hne, false_or] using hother

/-- **`truncate_left`** always answers, and keeps the last rows of every layer. -/
theorem exec_truncateLeft (h : Refines cache rows) (n : ℕ) :
    ∃ cache', exec (truncateLeft n) cache = (.ok (), cache') ∧
      Refines cache' (rows.call (.truncateLeft n)) := by
  obtain ⟨cache', hexec, hrows⟩ :=
    exec_truncateLayers n (Std.ExtTreeMap.nodup_keys (t := cache.layers)) h
  refine ⟨cache', by rw [truncateLeft, exec_get_bind, hexec], fun layer => ?_⟩
  have hlayer := hrows layer
  beta_reduce at hlayer
  by_cases hmem : layer ∈ cache.layers.keys
  · rw [if_pos hmem] at hlayer
    exact hlayer
  · -- a layer without a key has no rows to cut
    have hnone : cache.layer layer = none :=
      Std.ExtTreeMap.getElem?_eq_none fun h => hmem (Std.ExtTreeMap.mem_keys.2 h)
    have hrel := h layer
    rw [hnone] at hrel
    rcases hr : rows layer with _ | r
    · rw [if_neg hmem, hr] at hlayer
      change Option.Rel LayerHolds _ ((rows layer).map _)
      rw [hr]
      exact hlayer
    · rw [hr] at hrel
      cases hrel

/-- **Step lemma**: a call fails without a trace, or does to the rows what it should. -/
theorem exec_call (h : Refines cache rows) (call : Call) :
    (∃ e, exec call.run cache = (.error e, cache)) ∨
    ∃ cache', exec call.run cache = (.ok (), cache') ∧ Refines cache' (rows.call call) := by
  cases call with
  | append layer key value => exact exec_append h layer key value
  | truncateLeft n => exact .inr (exec_truncateLeft h n)
  | clear => exact .inr ⟨empty, rfl, refines_empty⟩

theorem refines_step {s : Traced} (h : Refines s.cache s.rows) (call : Call) :
    Refines (s.step call).cache (s.step call).rows := by
  rcases exec_call h call with ⟨e, hexec⟩ | ⟨cache', hexec, hrows⟩
  · rw [Traced.step, hexec]
    exact h
  · rw [Traced.step, hexec]
    exact hrows

/-- **The cache is a list of rows for each layer**, after every run of calls: keys and values have
one shape and are the rows kept, in order, and a call that fails leaves the cache as it was. -/
theorem kvCache_refines (calls : List Call) :
    let s := run Traced.step ⟨empty, fun _ => none⟩ calls
    (∀ layer c, s.cache.layer layer = some c → ∃ r, s.rows layer = some r ∧
      c.key.shape = c.value.shape ∧ c.key.shape = r.keys.length :: r.shape ∧
        c.key.data = r.keys.flatten ∧ c.value.data = r.values.flatten) ∧
    (∀ layer, s.cache.layer layer = none → s.rows layer = none) ∧
    ∀ (call : Call) e cache', exec call.run s.cache = (.error e, cache') → cache' = s.cache := by
  have h : Refines (run Traced.step ⟨empty, fun _ => none⟩ calls).cache
      (run Traced.step ⟨empty, fun _ => none⟩ calls).rows :=
    invariant_run (I := fun s : Traced => Refines s.cache s.rows)
      (fun _ call h => refines_step h call) calls refines_empty
  refine ⟨fun layer c hc => ?_, fun layer hnone => ?_, fun call e cache' hexec => ?_⟩
  · have hlayer := h layer
    rw [hc] at hlayer
    rcases hr : (run Traced.step ⟨empty, fun _ => none⟩ calls).rows layer with _ | r <;>
      rw [hr] at hlayer <;> cases hlayer
    next hholds =>
      exact ⟨r, rfl, hholds.shapes_eq, hholds.key.shape, hholds.key.data, hholds.value.data⟩
  · have hlayer := h layer
    rw [hnone] at hlayer
    rcases hr : (run Traced.step ⟨empty, fun _ => none⟩ calls).rows layer with _ | r
    · rfl
    · rw [hr] at hlayer
      cases hlayer
  · rcases exec_call h call with ⟨e', herr⟩ | ⟨cache'', hok, -⟩
    · rw [herr] at hexec
      exact (Prod.mk.inj hexec).2.symm
    · rw [hok] at hexec
      exact nomatch (Prod.mk.inj hexec).1

end KvCache

end NTD97
