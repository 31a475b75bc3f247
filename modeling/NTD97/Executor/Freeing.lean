import Mathlib
import NTD97.Executor
import NTD97.Graph.Scope
import NTD97.Lib.Lockstep

/-!
# Executor/Freeing — forgetting values changes nothing

    pool ──executeNode──▸ pool'
     │backs                │backs
    values ─referenceNode─▸ values'

The executor and the reference evaluator run in lockstep: the pool of the one backs the values of
the other while the remaining nodes are still to run.
-/

namespace NTD97

open Guard Liveness Lockstep SortedMap

namespace GraphExecutor

variable {provider : ExecutionProvider} {decls : Decls} {resolver : TensorResolver} {node : Node}
  {nodes : List Node} {keep : UInt32 → Prop} {pool : Pool UInt32 Tensor} {values full : Values}
  {rest : List UInt32}

theorem uses_cons (node : Node) (nodes : List Node) :
    uses (node :: nodes) = node.inputs.map ValueId.val ++ uses nodes := rfl

/-- Values that agree on what a node reads resolve its inputs alike. -/
theorem match_resolveInputs {inputs : List ValueId} (hinputs : ∀ value ∈ inputs, value.val ∈ rest)
    (h : Backs keep pool full rest) :
    Match (fun values full => Backs keep { pool with values } full rest)
      (inputs.foldlM (resolveInput decls resolver node.id) pool.values)
      (inputs.foldlM (resolveInput decls resolver node.id) full) := by
  let R (inputs : List ValueId) (values full : Values) : Prop :=
    (∀ value ∈ inputs, value.val ∈ rest) ∧ Backs keep { pool with values } full rest
  refine (Match.foldlM (R := R) (fun value inputs values full h => ?_) ⟨hinputs, h⟩).mono
    fun _ _ h => h.2
  obtain ⟨hmem, hrest⟩ := List.forall_mem_cons.1 h.1
  have hsame : value.val ∈ values ↔ value.val ∈ full := by
    rw [Std.ExtTreeMap.mem_iff_isSome_getElem?, Std.ExtTreeMap.mem_iff_isSome_getElem?,
      h.2.values _ (.inl hmem)]
  by_cases hvalue : value.val ∈ full
  · rw [resolveInput, resolveInput, if_pos (hsame.2 hvalue), if_pos hvalue]
    exact .ok ⟨hrest, h.2⟩
  · rw [resolveInput, resolveInput, if_neg (mt hsame.1 hvalue), if_neg hvalue]
    exact .check fun decl => .check fun found => .check fun tensor => .check fun _ =>
      .ok ⟨hrest, h.2.insert value.val tensor⟩

/-- A node computes the same from the pool and from the full values. -/
theorem match_compute (h : Backs keep pool full (node.inputs.map ValueId.val ++ rest)) :
    Match (fun a b => a.2 = b.2 ∧
        Backs keep { pool with values := a.1 } b.1 (node.inputs.map ValueId.val ++ rest))
      (compute provider decls resolver pool.values node)
      (compute provider decls resolver full node) := by
  refine .check fun op => ?_
  refine (match_resolveInputs (fun value hvalue => ?_) h).bind fun values full h => ?_
  · exact List.mem_append_left _ (List.mem_map_of_mem hvalue)
  · have hread : ∀ value ∈ node.inputs, values[value.val]? = full[value.val]? := fun value hvalue =>
      h.values _ (.inl (List.mem_append_left _ (List.mem_map_of_mem hvalue)))
    have hinputs : node.inputs.mapM (readInput node.id values) =
        node.inputs.mapM (readInput node.id full) :=
      mapM_congr fun value hvalue => by rw [readInput, readInput, hread value hvalue]
    rw [hinputs]
    exact .check fun _ => .check fun outputs => .check fun _ => .ok ⟨rfl, h⟩

theorem match_storeOutputs {n : NodeId} {l : List (ValueDecl × Tensor)}
    (h : Backs keep pool full rest) :
    Match (fun values full => Backs keep { pool with values } full rest)
      (l.foldlM (storeOutput n) pool.values) (l.foldlM (storeOutput n) full) := by
  let R (_ : List (ValueDecl × Tensor)) (values full : Values) : Prop :=
    Backs keep { pool with values } full rest
  refine Match.foldlM (R := R) (fun output _ _ _ h => ?_) h
  exact .check fun _ => .ok (h.insert output.1.id.val output.2)

/-- **Step lemma.**  What a node leaves in the pool backs what it leaves in the full values. -/
theorem match_node {outputIds : IdSet}
    (h : Backs (· ∈ outputIds) pool full (uses (node :: nodes))) :
    Match (fun pool full => Backs (· ∈ outputIds) pool full (uses nodes))
      (executeNode provider decls resolver outputIds pool node)
      (referenceNode provider decls resolver full node) := by
  refine (match_compute h).bind fun a b hab => ?_
  obtain ⟨values, outputs⟩ := a
  obtain ⟨full, outputs'⟩ := b
  obtain ⟨rfl, hbacks⟩ := hab
  have hstore := match_storeOutputs (l := node.outputs.zip outputs) (n := node.id)
    hbacks.releaseAll
  exact hstore.bind_left fun _ _ h => .ok h

theorem match_nodes (graph : Graph) (inputs : Values) :
    Match (fun pool full => ∀ value ∈ graph.outputs, pool.values[value.val]? = full[value.val]?)
      (executeNodes provider graph inputs resolver)
      (referenceNodes provider graph inputs resolver) := by
  refine .check fun _ => .check fun values => ?_
  let R (nodes : List Node) (pool : Pool UInt32 Tensor) (full : Values) : Prop :=
    Backs (· ∈ outputIds graph) pool full (uses nodes)
  have hstep : ∀ node nodes pool full, R (node :: nodes) pool full → Match (R nodes)
      (executeNode provider (inputDecls graph) resolver (outputIds graph) pool node)
      (referenceNode provider (inputDecls graph) resolver full node) := fun _ _ _ _ h => match_node h
  refine (Match.foldlM hstep (backs_start values)).mono fun pool full h value hvalue => ?_
  exact h.values _ (.inr (mem_insertAll.2 (.inr (List.mem_map_of_mem hvalue))))

theorem executeWithResolver_eq_reference (graph : Graph) (inputs : Values) :
    executeWithResolver provider graph inputs resolver =
      referenceExecute provider graph inputs resolver := by
  refine ((match_nodes graph inputs).bind (S := Eq) fun pool full h => ?_).eq
  have houtputs : collectOutputs graph pool.values = collectOutputs graph full :=
    mapM_congr fun value hvalue => by rw [readInput, readInput, h value hvalue]
  exact houtputs ▸ .refl _

/-! ## Missing values -/

/-- The error is not about a missing value. -/
def NotMissing : ExecutionError → Prop
  | .missingValue .. => False
  | _ => True

/-- What is in scope has a value, or is a graph input. -/
def Holding (decls : Decls) (ids : IdSet) (values : Values) : Prop :=
  ∀ id ∈ ids, id ∈ values ∨ id ∈ decls

/-- Everything that has a value keeps one. -/
def Extends (values values' : Values) : Prop := ∀ id ∈ values, id ∈ values'

theorem Holding.mono {ids : IdSet} {values' : Values} (h : Holding decls ids values)
    (hvalues : Extends values values') : Holding decls ids values' :=
  fun id hid => (h id hid).imp_left (hvalues id)

theorem extends_insert (k : UInt32) (t : Tensor) : Extends values (values.insert k t) :=
  fun _ hid => Std.ExtTreeMap.mem_insert.2 (.inr hid)

theorem not_mem_of_getElem? {V : Type} {m : BTreeMap UInt32 V} {k : UInt32} (h : m[k]? = none) :
    k ∉ m := by
  rw [Std.ExtTreeMap.mem_iff_isSome_getElem?, h]
  exact Bool.false_ne_true

theorem validateDecl_notMissing {id : NodeId} {decl : ValueDecl} {t : Tensor} :
    Outcome (fun _ => True) NotMissing (validateDecl id decl t) := by
  have hrefuse (rank : ℕ) : Outcome (fun _ => True) NotMissing
      (refuse (t.rank ≠ rank) (ExecutionError.outputRank id decl.id rank t.rank)) :=
    Outcome.mono (.refuse trivial) fun _ _ => trivial
  rw [validateDecl]
  cases decl.ty with
  | scalar _ => exact hrefuse 0
  | tensor _ rank => exact hrefuse rank.toNat
  | bytes => exact trivial
  | handle => exact trivial

/-- Supplying an input in scope misses nothing, and gives it a value. -/
theorem resolveInput_notMissing {ids : IdSet} {value : ValueId} (h : Holding decls ids values)
    (hvalue : value.val ∈ ids) :
    Outcome (fun values' => value.val ∈ values' ∧ Extends values values') NotMissing
      (resolveInput decls resolver node.id values value) := by
  by_cases hmem : value.val ∈ values
  · rw [resolveInput, if_pos hmem]
    exact ⟨hmem, fun _ => id⟩
  · rw [resolveInput, if_neg hmem]
    have hdecl : value.val ∈ decls := (h _ hvalue).resolve_left hmem
    refine (Outcome.okOr fun hnone => ?_).bind fun decl _ => ?_
    · exact absurd hdecl (not_mem_of_getElem? hnone)
    · refine (Outcome.mapError fun _ => trivial).bind fun found _ =>
        (Outcome.okOr fun _ => trivial).bind fun tensor _ =>
        validateDecl_notMissing.bind fun _ _ => ?_
      exact ⟨Std.ExtTreeMap.mem_insert_self, extends_insert value.val tensor⟩

theorem resolveInputs_notMissing {ids : IdSet} {inputs : List ValueId}
    (h : Holding decls ids values) (hinputs : ∀ value ∈ inputs, value.val ∈ ids) :
    Outcome (fun values' => (∀ value ∈ inputs, value.val ∈ values') ∧ Extends values values')
      NotMissing (inputs.foldlM (resolveInput decls resolver node.id) values) := by
  induction inputs generalizing values with
  | nil => exact ⟨fun _ hvalue => (nomatch hvalue), fun _ => id⟩
  | cons value inputs ih =>
    obtain ⟨hvalue, hrest⟩ := List.forall_mem_cons.1 hinputs
    rw [List.foldlM_cons]
    refine (resolveInput_notMissing h hvalue).bind fun values₁ ⟨hmem, hext⟩ => ?_
    refine (ih (h.mono hext) hrest).mono fun values₂ ⟨hmem', hext'⟩ => ?_
    exact ⟨List.forall_mem_cons.2 ⟨hext' _ hmem, hmem'⟩, fun id hid => hext' id (hext id hid)⟩

theorem storeOutputs_notMissing {n : NodeId} {l : List (ValueDecl × Tensor)} :
    Outcome (fun values' => (∀ output ∈ l, output.1.id.val ∈ values') ∧ Extends values values')
      NotMissing (l.foldlM (storeOutput n) values) := by
  induction l generalizing values with
  | nil => exact ⟨fun _ houtput => (nomatch houtput), fun _ => id⟩
  | cons output l ih =>
    rw [List.foldlM_cons]
    have hstore : Outcome (fun values' => output.1.id.val ∈ values' ∧ Extends values values')
        NotMissing (storeOutput n values output) :=
      validateDecl_notMissing.bind fun _ _ =>
        ⟨Std.ExtTreeMap.mem_insert_self, extends_insert output.1.id.val output.2⟩
    refine hstore.bind fun values₁ ⟨hmem, hext⟩ => ih.mono fun values₂ ⟨hmem', hext'⟩ => ?_
    exact ⟨List.forall_mem_cons.2 ⟨hext' _ hmem, hmem'⟩, fun id hid => hext' id (hext id hid)⟩

/-- **Step lemma.**  A node in scope misses nothing, and leaves its outputs with values. -/
theorem referenceNode_notMissing {ids : IdSet} (h : Holding decls ids values)
    (hreads : ∀ value ∈ node.inputs, value.val ∈ ids) :
    Outcome (Holding decls (insertAll ids (declared node.outputs))) NotMissing
      (referenceNode provider decls resolver values node) := by
  have hop : Outcome (fun _ => True) NotMissing (tensorOp node) := by
    rw [tensorOp]
    cases node.op <;> exact trivial
  have hcompute : Outcome (fun r => Holding decls ids r.1 ∧ r.2.length = node.outputs.length)
      NotMissing (compute provider decls resolver values node) := by
    refine hop.bind fun op _ => (resolveInputs_notMissing h hreads).bind fun values₁ ⟨hmem, hext⟩ => ?_
    have hread : ∀ value ∈ node.inputs, Outcome (fun _ => True) NotMissing
        (readInput node.id values₁ value) := by
      intro value hvalue
      refine (Outcome.okOr fun hnone => ?_).mono fun _ _ => trivial
      exact absurd (hmem value hvalue) (not_mem_of_getElem? hnone)
    refine (Outcome.mapM (S := fun _ _ => True) hread).bind fun inputs _ =>
      (Outcome.mapError fun _ => trivial).bind fun outputs _ => ?_
    have harity : Outcome (fun _ => ¬ outputs.length ≠ node.outputs.length) NotMissing
        (refuse (outputs.length ≠ node.outputs.length)
          (ExecutionError.outputArity node.id node.outputs.length outputs.length)) :=
      .refuse trivial
    exact harity.bind fun _ hlen => ⟨h.mono hext, not_not.1 hlen⟩
  refine hcompute.bind fun r ⟨hholding, hlen⟩ => storeOutputs_notMissing.mono
    fun values₂ ⟨hmem, hext⟩ id hid => ?_
  rcases mem_insertAll.1 hid with hid | hid
  · exact hholding.mono hext id hid
  · obtain ⟨decl, hdecl, rfl⟩ := List.mem_map.1 hid
    rw [← List.map_fst_zip hlen.ge] at hdecl
    obtain ⟨output, houtput, rfl⟩ := List.mem_map.1 hdecl
    exact .inl (hmem output houtput)

theorem declaredInputs_mem (graph : Graph) {id : UInt32} (h : id ∈ declared graph.inputs) :
    id ∈ inputDecls graph := by
  have hfold : ∀ (l : List ValueDecl) (decls : Decls), id ∈ decls ∨ id ∈ declared l →
      id ∈ l.foldl (fun decls decl => decls.insert decl.id.val decl) decls := by
    intro l
    induction l with
    | nil => exact fun decls h => h.resolve_right fun h => (nomatch h)
    | cons decl l ih =>
      refine fun decls h => ih _ ?_
      rcases h with h | h
      · exact .inl (Std.ExtTreeMap.mem_insert.2 (.inr h))
      · rcases List.mem_cons.1 h with rfl | h
        · exact .inl Std.ExtTreeMap.mem_insert_self
        · exact .inr h
  exact hfold graph.inputs ∅ (.inr h)

theorem seed_notMissing (graph : Graph) (inputs : Values) :
    Outcome (fun _ => True) NotMissing (seed graph inputs) := by
  refine Outcome.foldlM (R := fun _ _ => True) (fun entry l values _ => ?_) trivial
  rw [seedInput]
  cases (inputDecls graph)[entry.1]? with
  | none => exact trivial
  | some decl => exact validateDecl_notMissing.bind fun _ _ => trivial

/-- **Run lemma.**  In a valid graph no node misses a value. -/
theorem referenceNodes_notMissing (graph : Graph) (inputs : Values) :
    Outcome (fun _ => True) NotMissing (referenceNodes provider graph inputs resolver) := by
  cases hvalid : graph.validate with
  | error e =>
    rw [referenceNodes, hvalid]
    exact trivial
  | ok _ =>
    rw [referenceNodes, hvalid]
    obtain ⟨-, hscope, -⟩ := inScope_of_validate hvalid
    refine (seed_notMissing graph inputs).bind fun values _ => ?_
    let R (nodes : List Node) (values : Values) : Prop :=
      ∃ ids, InScope ids nodes ∧ Holding (inputDecls graph) ids values
    have hstep : ∀ node nodes values, R (node :: nodes) values → Outcome (R nodes) NotMissing
        (referenceNode provider (inputDecls graph) resolver values node) := by
      rintro node nodes values ⟨ids, hin, hholding⟩
      cases hin with
      | cons hreads _ hrest =>
        exact (referenceNode_notMissing hholding hreads).mono fun _ h => ⟨_, hrest, h⟩
    have hseed : Holding (inputDecls graph) (insertAll ∅ (declared graph.inputs)) values :=
      fun id hid => .inr <| declaredInputs_mem graph <|
        (mem_insertAll.1 hid).resolve_left Std.ExtTreeSet.not_mem_empty
    exact (Outcome.foldlM hstep ⟨_, hscope, hseed⟩).mono fun _ _ => trivial

/-! ## The two evaluators -/

/-- **Forgetting values early changes nothing**: the executor answers, or stops, as the evaluator
that forgets nothing; in particular no node of a valid graph misses a value. -/
theorem early_freeing_invisible (provider : ExecutionProvider) (graph : Graph) (inputs : Values)
    (resolver : TensorResolver) :
    executeWithResolver provider graph inputs resolver =
        referenceExecute provider graph inputs resolver ∧
      ∀ node value,
        executeNodes provider graph inputs resolver ≠ .error (.missingValue node value) := by
  refine ⟨executeWithResolver_eq_reference graph inputs, fun node value h => ?_⟩
  have hreference : Outcome (fun _ => True) NotMissing
      (referenceNodes provider graph inputs resolver) := referenceNodes_notMissing graph inputs
  rw [(match_nodes graph inputs).error_iff.1 h] at hreference
  exact hreference

end GraphExecutor

end NTD97
