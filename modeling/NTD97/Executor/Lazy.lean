import Mathlib
import NTD97.Executor.Equations

/-!
# Executor/Lazy — graph inputs on demand

    lazy  : inputs given             values grow with each read
      │ trails
    eager : inputs and supplied      all values from the start

A run that resolves its inputs on demand trails the run that has them all: it lacks the inputs that
no node has read yet.  Nothing resolves an input for the sake of an output.
-/

namespace NTD97

open Guard Lockstep SortedMap

namespace GraphExecutor

/-- What a resolver supplies. -/
def supplied (resolver : TensorResolver) (value : ValueId) : Option Tensor :=
  match resolver value with
  | .ok found => found
  | .error _ => none

def extendInput (resolver : TensorResolver) (values : Values) (decl : ValueDecl) : Values :=
  if decl.id.val ∈ values then values
  else match supplied resolver decl.id with
    | none => values
    | some tensor => values.insert decl.id.val tensor

/-- The inputs given, and what the resolver supplies for the graph inputs that are missing. -/
def extendInputs (graph : Graph) (inputs : Values) (resolver : TensorResolver) : Values :=
  graph.inputs.foldl (extendInput resolver) inputs

/-- **The resolver answers** each graph input that is missing with a tensor that fits. -/
def Answers (graph : Graph) (inputs : Values) (resolver : TensorResolver) : Prop :=
  ∀ decl ∈ graph.inputs, decl.id.val ∉ inputs →
    ∃ tensor, resolver decl.id = .ok (some tensor) ∧ Fits decl tensor

variable {provider : ExecutionProvider} {graph : Graph} {inputs lazy eager : Values}
  {resolver : TensorResolver} {node : Node} {ids : IdSet} {read : List UInt32} {id : UInt32}

theorem valueId_ext {a b : ValueId} (h : a.val = b.val) : a = b := by
  cases a
  cases b
  exact congrArg _ h

theorem supplied_eq_some {value : ValueId} {t : Tensor} (h : resolver value = .ok (some t)) :
    supplied resolver value = some t := by
  rw [supplied, h]

/-! ## The extended inputs -/

/-- **A lookup in the extended inputs**: what was given, or else what the resolver answers. -/
theorem getElem?_foldl_extendInput {t : Tensor} : ∀ {l : List ValueDecl} {values : Values},
    (∀ decl ∈ l, decl.id.val ∉ values → ∃ t, resolver decl.id = .ok (some t)) →
      ((l.foldl (extendInput resolver) values)[id]? = some t ↔ values[id]? = some t ∨
        id ∉ values ∧ ∃ decl ∈ l, decl.id.val = id ∧ resolver decl.id = .ok (some t))
  | [], values, _ => by simp
  | decl :: l, values, h => by
      obtain ⟨hdecl, hrest⟩ := List.forall_mem_cons.1 h
      rw [List.foldl_cons, extendInput]
      by_cases hmem : decl.id.val ∈ values
      · rw [if_pos hmem, getElem?_foldl_extendInput hrest, List.exists_mem_cons_iff]
        refine or_congr_right (and_congr_right fun hid => (or_iff_right ?_).symm)
        rintro ⟨rfl, -⟩
        exact hid hmem
      · obtain ⟨t₀, ht₀⟩ := hdecl hmem
        have hgrow : ∀ decl' ∈ l, decl'.id.val ∉ values.insert decl.id.val t₀ →
            ∃ t, resolver decl'.id = .ok (some t) := fun decl' hdecl' hnot =>
          hrest decl' hdecl' fun hin => hnot (Std.ExtTreeMap.mem_insert.2 (.inr hin))
        rw [if_neg hmem, supplied_eq_some ht₀]
        refine (getElem?_foldl_extendInput hgrow).trans ?_
        simp only [Std.ExtTreeMap.getElem?_insert, Std.ExtTreeMap.mem_insert, Std.compare_eq_iff_eq]
        by_cases hid : decl.id.val = id
        · subst hid
          have hnone : values[decl.id.val]? = none := Std.ExtTreeMap.getElem?_eq_none hmem
          rw [if_pos rfl, hnone]
          constructor
          · rintro (hsome | ⟨hnot, -⟩)
            · obtain rfl := Option.some.inj hsome
              exact .inr ⟨hmem, decl, List.mem_cons_self, rfl, ht₀⟩
            · exact absurd (.inl rfl) hnot
          · rintro (hsome | ⟨-, decl', -, hsame, ht⟩)
            · exact nomatch hsome
            · rw [valueId_ext hsame, ht₀] at ht
              exact .inl (Except.ok.inj ht)
        · rw [if_neg hid, List.exists_mem_cons_iff, or_iff_right hid]
          refine or_congr_right (and_congr_right fun _ => (or_iff_right fun h => hid h.1).symm)

theorem getElem?_extendInputs (h : Answers graph inputs resolver) {t : Tensor} :
    (extendInputs graph inputs resolver)[id]? = some t ↔ inputs[id]? = some t ∨
      id ∉ inputs ∧ ∃ decl ∈ graph.inputs, decl.id.val = id ∧ resolver decl.id = .ok (some t) :=
  getElem?_foldl_extendInput fun decl hdecl hmem => (h decl hdecl hmem).imp fun _ ht => ht.1

/-- Every graph input is among the extended inputs. -/
theorem mem_extendInputs (h : Answers graph inputs resolver) {decl : ValueDecl}
    (hdecl : decl ∈ graph.inputs) : decl.id.val ∈ extendInputs graph inputs resolver := by
  rw [Std.ExtTreeMap.mem_iff_isSome_getElem?, Option.isSome_iff_exists]
  by_cases hmem : decl.id.val ∈ inputs
  · obtain ⟨t, ht⟩ := Option.isSome_iff_exists.1 (Std.ExtTreeMap.mem_iff_isSome_getElem?.1 hmem)
    exact ⟨t, (getElem?_extendInputs h).2 (.inl ht)⟩
  · obtain ⟨t, ht, -⟩ := h decl hdecl hmem
    exact ⟨t, (getElem?_extendInputs h).2 (.inr ⟨hmem, decl, hdecl, rfl, ht⟩)⟩

/-! ## One run trails the other -/

/-- A graph input that is neither given nor among the ids read so far. -/
def Late (graph : Graph) (inputs : Values) (read : List UInt32) (id : UInt32) : Prop :=
  id ∈ declared graph.inputs ∧ id ∉ inputs ∧ id ∉ read

/-- **The lazy values trail the eager ones**: they agree, but for the graph inputs that are late. -/
structure Trails (graph : Graph) (inputs : Values) (resolver : TensorResolver) (ids : IdSet)
    (read : List UInt32) (lazy eager : Values) : Prop where
  inScope : ∀ id ∈ declared graph.inputs, id ∈ ids
  has : ∀ id ∈ ids, id ∈ eager
  same : ∀ id ∈ ids, ¬ Late graph inputs read id → lazy[id]? = eager[id]?
  late : ∀ id, Late graph inputs read id → lazy[id]? = none ∧
    ∃ decl ∈ graph.inputs, decl.id.val = id ∧
      ∃ t, resolver decl.id = .ok (some t) ∧ Fits decl t ∧ eager[id]? = some t

namespace Trails

theorem read_cons_iff {k : UInt32} : Late graph inputs (read ++ [k]) id ↔
    Late graph inputs read id ∧ id ≠ k := by
  simp only [Late, List.mem_append, List.mem_singleton, not_or, and_assoc]

/-- **Step lemma**, for one read: what is late is resolved. -/
theorem resolveInput {n : NodeId} {value : ValueId} (hnodup : (declared graph.inputs).Nodup)
    (h : Trails graph inputs resolver ids read lazy eager) (hvalue : value.val ∈ ids) :
    Match (Trails graph inputs resolver ids (read ++ [value.val]))
      (resolveInput (inputDecls graph) resolver n lazy value)
      (resolveInput (inputDecls graph) emptyTensorResolver n eager value) := by
  rw [GraphExecutor.resolveInput, GraphExecutor.resolveInput, if_pos (h.has _ hvalue)]
  by_cases hlate : Late graph inputs read value.val
  · obtain ⟨hnone, decl, hdecl, hid, t, ht, hfits, hsome⟩ := h.late _ hlate
    obtain rfl : decl.id = value := valueId_ext hid
    rw [if_neg (not_mem_of_getElem? hnone), (getElem?_inputDecls hnodup).2 ⟨hdecl, rfl⟩, ht]
    change Match _ (validateDecl noNode decl t >>= fun _ =>
      (pure (lazy.insert decl.id.val t) : Except ExecutionError Values)) _
    rw [validateDecl_eq_ok.2 hfits]
    refine .ok ⟨h.inScope, h.has, fun id hid hnot => ?_, fun id hid => ?_⟩
    · rw [Std.ExtTreeMap.getElem?_insert]
      split
      · next heq => rw [← Std.compare_eq_iff_eq.1 heq, hsome]
      · next hne =>
        refine h.same id hid fun hlate => hnot (read_cons_iff.2 ⟨hlate, ?_⟩)
        exact fun heq => hne (Std.compare_eq_iff_eq.2 heq.symm)
    · obtain ⟨hlate, hne⟩ := read_cons_iff.1 hid
      rw [Std.ExtTreeMap.getElem?_insert, if_neg (mt Std.compare_eq_iff_eq.1 hne.symm)]
      exact h.late id hlate
  · have hmem : value.val ∈ lazy := by
      rw [Std.ExtTreeMap.mem_iff_isSome_getElem?, h.same _ hvalue hlate,
        ← Std.ExtTreeMap.mem_iff_isSome_getElem?]
      exact h.has _ hvalue
    rw [if_pos hmem]
    refine .ok ⟨h.inScope, h.has, fun id hid hnot => ?_, fun id hid => h.late id (read_cons_iff.1 hid).1⟩
    refine h.same id hid fun hlate' => hnot (read_cons_iff.2 ⟨hlate', ?_⟩)
    rintro rfl
    exact hlate hlate'

/-- A node's output is stored in both. -/
theorem insert (h : Trails graph inputs resolver ids read lazy eager)
    (hid : id ∉ declared graph.inputs) (t : Tensor) :
    Trails graph inputs resolver (ids.insert id) read (lazy.insert id t) (eager.insert id t) := by
  refine ⟨fun k hk => Std.ExtTreeSet.mem_insert.2 (.inr (h.inScope k hk)), fun k hk => ?_,
    fun k hk hnot => ?_, fun k hk => ?_⟩
  · rw [Std.ExtTreeMap.mem_insert]
    exact (Std.ExtTreeSet.mem_insert.1 hk).imp_right (h.has k)
  · rw [Std.ExtTreeMap.getElem?_insert, Std.ExtTreeMap.getElem?_insert]
    split
    · rfl
    · next hne => exact h.same k ((Std.ExtTreeSet.mem_insert.1 hk).resolve_left hne) hnot
  · have hne : ¬ compare id k = .eq := fun heq => hid (Std.compare_eq_iff_eq.1 heq ▸ hk.1)
    rw [Std.ExtTreeMap.getElem?_insert, Std.ExtTreeMap.getElem?_insert, if_neg hne, if_neg hne]
    exact h.late k hk

theorem storeOutputs {n : NodeId} : ∀ {l : List (ValueDecl × Tensor)} {ids : IdSet}
    {lazy eager : Values}, Trails graph inputs resolver ids read lazy eager →
      (∀ id ∈ declared (l.map Prod.fst), id ∉ declared graph.inputs) →
      Match (Trails graph inputs resolver (insertAll ids (declared (l.map Prod.fst))) read)
        (l.foldlM (storeOutput n) lazy) (l.foldlM (storeOutput n) eager)
  | [], _, _, _, h, _ => .ok h
  | output :: l, ids, lazy, eager, h, hfresh => by
      obtain ⟨hid, hrest⟩ := List.forall_mem_cons.1 hfresh
      rw [List.foldlM_cons, List.foldlM_cons, storeOutput, storeOutput, bind_assoc, bind_assoc]
      exact .check fun _ => storeOutputs (h.insert hid output.2) hrest

theorem resolveInputs {n : NodeId} (hnodup : (declared graph.inputs).Nodup) :
    ∀ {l : List ValueId} {read : List UInt32} {lazy eager : Values},
      Trails graph inputs resolver ids read lazy eager → (∀ value ∈ l, value.val ∈ ids) →
      Match (Trails graph inputs resolver ids (read ++ l.map ValueId.val))
        (l.foldlM (GraphExecutor.resolveInput (inputDecls graph) resolver n) lazy)
        (l.foldlM (GraphExecutor.resolveInput (inputDecls graph) emptyTensorResolver n) eager)
  | [], read, _, _, h, _ => .ok (by rwa [List.map_nil, List.append_nil])
  | value :: l, read, lazy, eager, h, hids => by
      obtain ⟨hvalue, hrest⟩ := List.forall_mem_cons.1 hids
      rw [List.foldlM_cons, List.foldlM_cons, List.map_cons, List.append_cons]
      exact (h.resolveInput hnodup hvalue).bind fun _ _ h => resolveInputs hnodup h hrest

theorem compute (hnodup : (declared graph.inputs).Nodup)
    (h : Trails graph inputs resolver ids read lazy eager)
    (hreads : ∀ value ∈ node.inputs, value.val ∈ ids) :
    Match (fun a b => a.2 = b.2 ∧ a.2.length = node.outputs.length ∧
        Trails graph inputs resolver ids (read ++ node.inputs.map ValueId.val) a.1 b.1)
      (compute provider (inputDecls graph) resolver lazy node)
      (compute provider (inputDecls graph) emptyTensorResolver eager node) := by
  refine .check fun op => (h.resolveInputs hnodup hreads).bind fun lazy eager h => ?_
  have hinputs : node.inputs.mapM (readInput node.id lazy) =
      node.inputs.mapM (readInput node.id eager) := mapM_congr fun value hvalue => by
    rw [readInput, readInput, h.same _ (hreads value hvalue)]
    exact fun hlate => hlate.2.2 (List.mem_append_right _ (List.mem_map_of_mem hvalue))
  rw [hinputs]
  refine .check fun _ => .check fun outputs => ?_
  by_cases hlength : outputs.length = node.outputs.length
  · rw [refuse, if_neg (not_not.2 hlength)]
    exact .ok ⟨rfl, hlength, h⟩
  · rw [refuse, if_pos hlength]
    exact .error _

/-- **Step lemma**, for a node. -/
theorem stepNode (hnodup : (declared graph.inputs).Nodup)
    (h : Trails graph inputs resolver ids read lazy eager)
    (hreads : ∀ value ∈ node.inputs, value.val ∈ ids) (hfresh : Fresh ids (declared node.outputs)) :
    Match (Trails graph inputs resolver (insertAll ids (declared node.outputs))
        (read ++ node.inputs.map ValueId.val))
      (referenceNode provider (inputDecls graph) resolver lazy node)
      (referenceNode provider (inputDecls graph) emptyTensorResolver eager node) := by
  refine (h.compute hnodup hreads).bind fun a b hab => ?_
  obtain ⟨lazy, outputs⟩ := a
  obtain ⟨eager, outputs'⟩ := b
  obtain ⟨rfl, hlength, htrails⟩ := hab
  have hfst : (node.outputs.zip outputs).map Prod.fst = node.outputs := List.map_fst_zip hlength.ge
  have hstore := htrails.storeOutputs (n := node.id) (l := node.outputs.zip outputs) fun id hid => by
    rw [hfst] at hid
    exact fun hinput => hfresh.2 id hid (h.inScope id hinput)
  rwa [hfst] at hstore

/-- **Run lemma.** -/
theorem runNodes (hnodup : (declared graph.inputs).Nodup) {nodes : List Node}
    (hscope : InScope ids nodes) (h : Trails graph inputs resolver ids read lazy eager) :
    Match (Trails graph inputs resolver (scopeOf ids nodes) (read ++ uses nodes))
      (nodes.foldlM (referenceNode provider (inputDecls graph) resolver) lazy)
      (nodes.foldlM (referenceNode provider (inputDecls graph) emptyTensorResolver) eager) := by
  induction hscope generalizing read lazy eager with
  | nil ids =>
    have huses : read ++ uses [] = read := List.append_nil read
    rw [huses]
    exact .ok h
  | cons hreads hfresh _ ih =>
    rw [List.foldlM_cons, List.foldlM_cons, scopeOf_cons, uses_cons, ← List.append_assoc]
    exact (h.stepNode hnodup hreads hfresh).bind fun _ _ h => ih h

end Trails

/-! ## The two seeds -/

/-- The inputs given are among the extended ones, in their order. -/
theorem toList_sublist_extendInputs (h : Answers graph inputs resolver) :
    inputs.toList.Sublist (extendInputs graph inputs resolver).toList := by
  have hanti : Std.Antisymm fun a b : UInt32 × Tensor => compare a.1 b.1 = .lt :=
    ⟨fun a b hab hba => (Std.OrientedCmp.not_lt_of_lt hab hba).elim⟩
  have hnodup : inputs.toList.Nodup := Std.ExtTreeMap.ordered_keys_toList.imp fun {a b} hab heq => by
    subst heq
    exact Std.OrientedCmp.not_lt_of_lt hab hab
  refine List.sublist_of_subperm_of_pairwise (List.subperm_of_subset hnodup fun e he => ?_)
    Std.ExtTreeMap.ordered_keys_toList Std.ExtTreeMap.ordered_keys_toList
  rw [Std.ExtTreeMap.mem_toList_iff_getElem?_eq_some] at he ⊢
  exact (getElem?_extendInputs h).2 (.inl he)

/-- The seeds stop with one error, or neither stops. -/
theorem match_seed (hnodup : (declared graph.inputs).Nodup) (h : Answers graph inputs resolver) :
    Match (fun _ _ => True) (seed graph inputs)
      (seed graph (extendInputs graph inputs resolver)) := by
  let P (e : UInt32 × Tensor) : Prop := ∃ decl, (inputDecls graph)[e.1]? = some decl ∧ Fits decl e.2
  have hboth : ∀ (e : UInt32 × Tensor) (s t : Values), True → Match (fun _ _ => True)
      (seedInput (inputDecls graph) s e) (seedInput (inputDecls graph) t e) := by
    intro e s t _
    rw [seedInput, seedInput]
    cases (inputDecls graph)[e.1]? with
    | none => exact .ok trivial
    | some decl => exact .check fun _ => .ok trivial
  have hown : ∀ (e : UInt32 × Tensor) (_ t : Values), P e → True →
      ∃ t', seedInput (inputDecls graph) t e = .ok t' ∧ True := by
    rintro e _ t ⟨decl, hdecl, hfits⟩ -
    refine ⟨t.insert e.1 e.2, ?_, trivial⟩
    rw [seedInput, hdecl]
    exact bind_eq_ok.2 ⟨(), validateDecl_eq_ok.2 hfits, rfl⟩
  refine Match.foldlM_sublist hboth hown (toList_sublist_extendInputs h) ?_ ?_ trivial
  · refine Std.ExtTreeMap.distinct_keys_toList.imp fun {a b} hne heq => hne ?_
    rw [heq]
    exact Std.ReflCmp.compare_self
  · rintro ⟨k, t⟩ hmem hnot
    rw [Std.ExtTreeMap.mem_toList_iff_getElem?_eq_some] at hmem hnot
    obtain ⟨hk, decl, hdecl, rfl, ht⟩ := ((getElem?_extendInputs h).1 hmem).resolve_left hnot
    obtain ⟨t', ht', hfits⟩ := h decl hdecl hk
    obtain rfl := Option.some.inj (Except.ok.inj (ht.symm.trans ht'))
    exact ⟨decl, (getElem?_inputDecls hnodup).2 ⟨hdecl, rfl⟩, hfits⟩

/-- Behind the seeds, everything that was not given is late. -/
theorem trails_seed (hnodup : (declared graph.inputs).Nodup) (h : Answers graph inputs resolver) :
    Match (Trails graph inputs resolver (insertAll ∅ (declared graph.inputs)) [])
      (seed graph inputs) (seed graph (extendInputs graph inputs resolver)) := by
  refine ((match_seed hnodup h).outcomes (seed_spec graph inputs) (seed_spec graph _)).mono
    fun lazy eager hboth => ?_
  obtain ⟨-, ⟨-, hlazy⟩, -, heager⟩ := hboth
  have hin : ∀ id ∈ insertAll ∅ (declared graph.inputs), id ∈ inputDecls graph := fun id hid =>
    (mem_inputDecls hnodup).2 ((mem_insertAll.1 hid).resolve_left Std.ExtTreeSet.not_mem_empty)
  refine ⟨fun id hid => mem_insertAll.2 (.inr hid), fun id hid => ?_, fun id hid hnot => ?_,
    fun id hid => ?_⟩
  · obtain ⟨decl, hdecl, rfl⟩ := List.mem_map.1 ((mem_inputDecls hnodup).1 (hin id hid))
    rw [Std.ExtTreeMap.mem_iff_isSome_getElem?, heager, if_pos (hin _ hid),
      ← Std.ExtTreeMap.mem_iff_isSome_getElem?]
    exact mem_extendInputs h hdecl
  · have hgiven : id ∈ inputs := by
      by_contra hmem
      exact hnot ⟨(mem_inputDecls hnodup).1 (hin id hid), hmem, List.not_mem_nil⟩
    obtain ⟨t, ht⟩ := Option.isSome_iff_exists.1 (Std.ExtTreeMap.mem_iff_isSome_getElem?.1 hgiven)
    rw [hlazy, heager, if_pos (hin id hid), if_pos (hin id hid), ht,
      (getElem?_extendInputs h).2 (.inl ht)]
  · obtain ⟨hdeclared, hmem, -⟩ := hid
    obtain ⟨decl, hdecl, rfl⟩ := List.mem_map.1 hdeclared
    obtain ⟨t, ht, hfits⟩ := h decl hdecl hmem
    refine ⟨?_, decl, hdecl, rfl, t, ht, hfits, ?_⟩
    · rw [hlazy, Std.ExtTreeMap.getElem?_eq_none hmem, ite_self]
    · rw [heager, if_pos ((mem_inputDecls hnodup).2 hdeclared)]
      exact (getElem?_extendInputs h).2 (.inr ⟨hmem, decl, hdecl, rfl, ht⟩)

/-! ## The two runs -/

/-- **Both runs stop with one error, or the lazy values trail the eager ones** behind all nodes. -/
theorem match_lazy (hvalid : graph.validate = .ok ()) (h : Answers graph inputs resolver) :
    Match (Trails graph inputs resolver
        (scopeOf (insertAll ∅ (declared graph.inputs)) graph.nodes) (uses graph.nodes))
      (referenceNodes provider graph inputs resolver)
      (referenceNodes provider graph (extendInputs graph inputs resolver) emptyTensorResolver) := by
  obtain ⟨hnodup, hscope, -⟩ := inScope_of_validate hvalid
  rw [referenceNodes, referenceNodes, hvalid]
  exact (trails_seed hnodup h).bind fun _ _ h => h.runNodes hnodup hscope

/-- **A graph that hands no input through** runs on demand as it runs with all its inputs given. -/
theorem executeWithResolver_eq_extended (hvalid : graph.validate = .ok ())
    (hanswers : Answers graph inputs resolver)
    (hcomputed : ∀ value ∈ graph.outputs, value.val ∉ declared graph.inputs) :
    executeWithResolver provider graph inputs resolver =
      executeWithResolver provider graph (extendInputs graph inputs resolver)
        emptyTensorResolver := by
  obtain ⟨-, -, houtputs⟩ := inScope_of_validate hvalid
  rw [executeWithResolver_eq_reference, executeWithResolver_eq_reference, referenceExecute,
    referenceExecute]
  have hmatch : Match (Trails graph inputs resolver
        (scopeOf (insertAll ∅ (declared graph.inputs)) graph.nodes) (uses graph.nodes))
      (referenceNodes provider graph inputs resolver)
      (referenceNodes provider graph (extendInputs graph inputs resolver) emptyTensorResolver) :=
    match_lazy hvalid hanswers
  rcases hmatch.dest with ⟨e, hlazy, heager⟩ | ⟨lazy, eager, hlazy, heager, htrails⟩
  · rw [hlazy, heager]
  · rw [hlazy, heager]
    refine mapM_congr fun value hvalue => ?_
    rw [readInput, readInput, htrails.same _ (houtputs value hvalue)]
    exact fun hlate => hcomputed value hvalue hlate.1

/-- **Lazy resolution agrees with eager inputs** exactly when every output that is a graph input is
given or read by a node, or the equations of the graph have no solution, so that both stop. -/
theorem lazy_eq_eager_iff (provider : ExecutionProvider) {graph : Graph} {inputs : Values}
    {resolver : TensorResolver} (hvalid : graph.validate = .ok ())
    (hanswers : Answers graph inputs resolver) :
    executeWithResolver provider graph inputs resolver =
        execute provider graph (extendInputs graph inputs resolver) ↔
      (∀ value ∈ graph.outputs, value.val ∈ declared graph.inputs →
        value.val ∈ inputs ∨ value.val ∈ uses graph.nodes) ∨
      ¬ ∃ assignment, Solution provider graph (extendInputs graph inputs resolver) assignment := by
  obtain ⟨-, -, houtputs⟩ := inScope_of_validate hvalid
  have hsolve {outputs : List Tensor} :
      executeWithResolver provider graph (extendInputs graph inputs resolver) emptyTensorResolver =
          .ok outputs ↔
        ∃ assignment, Solution provider graph (extendInputs graph inputs resolver) assignment ∧
          outputs = graph.outputs.map fun value => assignment value.val :=
    executeWithResolver_eq_ok hvalid fun decl hdecl => mem_extendInputs hanswers hdecl
  rw [execute, executeWithResolver_eq_reference]
  rw [executeWithResolver_eq_reference] at hsolve ⊢
  rw [referenceExecute] at hsolve
  rw [referenceExecute, referenceExecute]
  have hmatch : Match (Trails graph inputs resolver
        (scopeOf (insertAll ∅ (declared graph.inputs)) graph.nodes) (uses graph.nodes))
      (referenceNodes provider graph inputs resolver)
      (referenceNodes provider graph (extendInputs graph inputs resolver) emptyTensorResolver) :=
    match_lazy hvalid hanswers
  rcases hmatch.dest with ⟨e, hlazy, heager⟩ | ⟨lazy, eager, hlazy, heager, htrails⟩
  · -- both stop with one error: there is no solution
    rw [heager] at hsolve
    rw [hlazy, heager]
    refine iff_of_true rfl (.inr ?_)
    rintro ⟨assignment, hsolution⟩
    cases hsolve.2 ⟨assignment, hsolution, rfl⟩
  · -- the eager run answers, so only the outputs that are late matter
    have hcollect : collectOutputs graph eager =
        .ok (graph.outputs.map fun value => assigned eager value.val) :=
      readOutputs fun value hvalue => getElem?_eq_assigned (htrails.has _ (houtputs value hvalue))
    rw [heager] at hsolve
    obtain ⟨assignment, hsolution, -⟩ := hsolve.1 hcollect
    rw [hlazy, heager, or_iff_left (not_not.2 ⟨assignment, hsolution⟩)]
    constructor
    · intro heq value hvalue hdeclared
      by_contra hmissing
      obtain ⟨hgiven, hread⟩ := not_or.1 hmissing
      obtain ⟨tensor, ht⟩ := exists_of_mapM (heq.trans hcollect) value hvalue
      rw [readInput, okOr_eq_ok, (htrails.late _ ⟨hdeclared, hgiven, hread⟩).1] at ht
      cases ht
    · intro hsupplied
      refine mapM_congr fun value hvalue => ?_
      rw [readInput, readInput, htrails.same _ (houtputs value hvalue)]
      exact fun hlate => (hsupplied value hvalue hlate.1).elim hlate.2.1 hlate.2.2

/-! ## An output that no node reads -/

namespace LazySample

/-- A graph that hands its input through. -/
def passThrough : Graph where
  version := .current
  inputs := [⟨⟨0⟩, .scalar .f32⟩]
  outputs := [⟨0⟩]
  nodes := []

def zeroResolver : TensorResolver := fun _ => return some (.scalar F32.zero)

def idleProvider : ExecutionProvider := fun _ _ => throw .shapeMismatch

theorem passThrough_answers : Answers passThrough ∅ zeroResolver := fun _ hdecl _ =>
  ⟨.scalar F32.zero, rfl, by
    rw [List.mem_singleton.1 hdecl]
    rfl⟩

/-- **The resolver is not asked for an output**: the lazy run misses what the eager run hands
through. -/
theorem lazy_misses_output : passThrough.validate = .ok () ∧ Answers passThrough ∅ zeroResolver ∧
    executeWithResolver idleProvider passThrough ∅ zeroResolver =
      .error (.missingValue noNode ⟨0⟩) ∧
    execute idleProvider passThrough (extendInputs passThrough ∅ zeroResolver) =
      .ok [.scalar F32.zero] :=
  ⟨by decide +kernel, passThrough_answers, by decide +kernel, by decide +kernel⟩

/-- A graph that doubles its input, and hands it through as well. -/
def doubling : Graph where
  version := .current
  inputs := [⟨⟨0⟩, .scalar .f32⟩]
  outputs := [⟨1⟩, ⟨0⟩]
  nodes := [⟨⟨0⟩, .tensor .add, [⟨0⟩, ⟨0⟩], [⟨⟨1⟩, .scalar .f32⟩]⟩]

def twentyOne : TensorResolver := fun _ => return some (.scalar 21)

theorem doubling_answers : Answers doubling ∅ twentyOne := fun _ hdecl _ =>
  ⟨.scalar 21, rfl, by
    rw [List.mem_singleton.1 hdecl]
    rfl⟩

/-- The node asks for the input, which then stands there for the output too. -/
theorem lazy_eq_eager_iff_doubling :
    executeWithResolver (cpuReferenceProvider .words) doubling ∅ twentyOne =
        .ok [.scalar 42, .scalar 21] ∧
      executeWithResolver (cpuReferenceProvider .words) doubling ∅ twentyOne =
        execute (cpuReferenceProvider .words) doubling (extendInputs doubling ∅ twentyOne) := by
  have hread : ∀ value ∈ doubling.outputs, value.val ∈ declared doubling.inputs →
      value.val ∈ (∅ : Values) ∨ value.val ∈ uses doubling.nodes := by decide +kernel
  exact ⟨by decide +kernel, (lazy_eq_eager_iff (cpuReferenceProvider .words) (by decide +kernel)
    doubling_answers).2 (.inl hread)⟩

end LazySample

end GraphExecutor

end NTD97
