import Mathlib
import NTD97.Executor.Equations

/-!
# Executor/Following — the one candidate for a solution

    graph inputs ──node──▸ value ──node──▸ …        a node without an answer leaves its outputs open

Equations without a solution still have an assignment that goes along with every answer of the
provider.  A solution exists exactly if that assignment is one, so whether a graph executes can be
asked of it, one node at a time.
-/

namespace NTD97

open Guard SortedMap

/-- A node outputs nothing that was there before all nodes. -/
theorem InScope.not_mem {ids : IdSet} {nodes : List Node} (h : InScope ids nodes) {node : Node}
    {id : UInt32} (hnode : node ∈ nodes) (hid : id ∈ declared node.outputs) : id ∉ ids := by
  induction h with
  | nil ids => cases hnode
  | cons hreads hfresh _ ih =>
    rcases List.mem_cons.1 hnode with rfl | hnode
    · exact hfresh.2 id hid
    · exact fun hmem => ih hnode (mem_insertAll.2 (.inl hmem))

namespace GraphExecutor

variable {provider : ExecutionProvider} {assignment : UInt32 → Tensor} {node : Node}
  {nodes : List Node} {ids : IdSet}

/-- **The assignment goes along with a node**: if the provider answers a tensor for each output, the
outputs carry these. -/
def Follows (provider : ExecutionProvider) (assignment : UInt32 → Tensor) (node : Node) : Prop :=
  ∀ op outputs, node.op = .tensor op →
    provider op (node.inputs.map fun value => assignment value.val) = .ok outputs →
      outputs.length = node.outputs.length →
        (node.outputs.map fun decl => assignment decl.id.val) = outputs

/-- A solution goes along. -/
theorem NodeSolved.follows (h : NodeSolved provider assignment node) :
    Follows provider assignment node := by
  intro op outputs hop hanswer _
  obtain ⟨op', hop', hanswer', -⟩ := h
  obtain rfl := OpKind.tensor.inj (hop.symm.trans hop')
  exact Except.ok.inj (hanswer'.symm.trans hanswer)

/-- Only the inputs and outputs of a node matter. -/
theorem Follows.congr {other : UInt32 → Tensor} (h : Follows provider assignment node)
    (hinputs : ∀ value ∈ node.inputs, other value.val = assignment value.val)
    (houtputs : ∀ decl ∈ node.outputs, other decl.id.val = assignment decl.id.val) :
    Follows provider other node := by
  intro op outputs hop hanswer hlength
  rw [List.map_congr_left hinputs] at hanswer
  rw [List.map_congr_left houtputs]
  exact h op outputs hop hanswer hlength

/-- An assignment, but for the ids that carry these tensors. -/
def override (given : UInt32 → Tensor) (l : List (ValueDecl × Tensor)) (id : UInt32) : Tensor :=
  ((storeAll ∅ l)[id]?).getD (given id)

theorem override_other {given : UInt32 → Tensor} {l : List (ValueDecl × Tensor)} {id : UInt32}
    (h : id ∉ declared (l.map Prod.fst)) : override given l id = given id := by
  rw [override, getElem?_storeAll_other h, Std.ExtTreeMap.getElem?_empty, Option.getD_none]

/-- Overriding the outputs by an answer. -/
theorem map_override {given : UInt32 → Tensor} {decls : List ValueDecl} {outputs : List Tensor}
    (hnodup : (declared decls).Nodup) (hlength : outputs.length = decls.length) :
    (decls.map fun decl => override given (decls.zip outputs) decl.id.val) = outputs := by
  have hfst : (decls.zip outputs).map Prod.fst = decls := List.map_fst_zip hlength.ge
  have hread : ∀ e ∈ decls.zip outputs, override given (decls.zip outputs) e.1.id.val = e.2 := by
    intro e he
    rw [override, getElem?_storeAll (by rwa [hfst]) e he, Option.getD_some]
  calc (decls.map fun decl => override given (decls.zip outputs) decl.id.val)
      = ((decls.zip outputs).map Prod.fst).map fun decl =>
          override given (decls.zip outputs) decl.id.val := by rw [hfst]
    _ = (decls.zip outputs).map Prod.snd := by
          rw [List.map_map]
          exact List.map_congr_left hread
    _ = outputs := List.map_snd_zip hlength.le

/-- One node: an assignment that follows it, and is the given one on the ids in scope. -/
theorem exists_follows_node (provider : ExecutionProvider) (given : UInt32 → Tensor)
    (hreads : ∀ value ∈ node.inputs, value.val ∈ ids)
    (hfresh : Fresh ids (declared node.outputs)) :
    ∃ assignment, (∀ id ∈ ids, assignment id = given id) ∧ Follows provider assignment node := by
  by_cases h : ∃ op outputs, node.op = .tensor op ∧
      provider op (node.inputs.map fun value => given value.val) = .ok outputs ∧
        outputs.length = node.outputs.length
  · obtain ⟨op, outputs, hop, hanswer, hlength⟩ := h
    have hfst : (node.outputs.zip outputs).map Prod.fst = node.outputs :=
      List.map_fst_zip hlength.ge
    have hkeep : ∀ id ∈ ids, override given (node.outputs.zip outputs) id = given id :=
      fun id hid => override_other (by rw [hfst]; exact fun hmem => hfresh.2 id hmem hid)
    refine ⟨override given (node.outputs.zip outputs), hkeep, ?_⟩
    intro op' outputs' hop' hanswer' _
    obtain rfl := OpKind.tensor.inj (hop.symm.trans hop')
    rw [List.map_congr_left fun value hvalue => hkeep _ (hreads value hvalue)] at hanswer'
    obtain rfl := Except.ok.inj (hanswer.symm.trans hanswer')
    exact map_override hfresh.1 hlength
  · exact ⟨given, fun _ _ => rfl, fun op outputs hop hanswer hlength =>
      absurd ⟨op, outputs, hop, hanswer, hlength⟩ h⟩

/-- **There is always an assignment that follows** a graph in scope, from any given one. -/
theorem exists_follows (provider : ExecutionProvider) (hscope : InScope ids nodes)
    (given : UInt32 → Tensor) :
    ∃ assignment, (∀ id ∈ ids, assignment id = given id) ∧
      ∀ node ∈ nodes, Follows provider assignment node := by
  induction hscope generalizing given with
  | nil ids => exact ⟨given, fun _ _ => rfl, fun _ h => (nomatch h)⟩
  | @cons ids node nodes hreads hfresh hrest ih =>
    obtain ⟨first, hfirst, hnode⟩ := exists_follows_node provider given hreads hfresh
    obtain ⟨assignment, hsame, hnodes⟩ := ih first
    have hids : ∀ id ∈ ids, assignment id = first id :=
      fun id hid => hsame id (mem_insertAll.2 (.inl hid))
    refine ⟨assignment, fun id hid => (hids id hid).trans (hfirst id hid), ?_⟩
    refine List.forall_mem_cons.2 ⟨hnode.congr (fun value hvalue => ?_) fun decl hdecl => ?_, hnodes⟩
    · exact hids _ (hreads value hvalue)
    · exact hsame _ (mem_insertAll.2 (.inr (List.mem_map_of_mem hdecl)))

/-- **Whether a graph executes can be asked of the assignments that follow it**: if the outputs are
`answers` wherever a following assignment solves the nodes, that is what the executor answers. -/
theorem executeWithResolver_eq_ok_iff {graph : Graph} {inputs : Values} {resolver : TensorResolver}
    {outputs : List Tensor} (answer : List Tensor → Prop) (hvalid : graph.validate = .ok ())
    (hgiven : ∀ decl ∈ graph.inputs, decl.id.val ∈ inputs)
    (hfollow : ∀ assignment,
      (∀ decl ∈ graph.inputs, assignment decl.id.val = assigned inputs decl.id.val) →
      (∀ node ∈ graph.nodes, Follows provider assignment node) →
        (((∀ node ∈ graph.nodes, NodeSolved provider assignment node) ∧
            outputs = graph.outputs.map fun value => assignment value.val) ↔ answer outputs)) :
    executeWithResolver provider graph inputs resolver = .ok outputs ↔
      (∀ decl ∈ graph.inputs, Fits decl (assigned inputs decl.id.val)) ∧ answer outputs := by
  obtain ⟨-, hscope, -⟩ := inScope_of_validate hvalid
  have hread : ∀ decl ∈ graph.inputs,
      inputs[decl.id.val]? = some (assigned inputs decl.id.val) :=
    fun decl hdecl => getElem?_eq_assigned (hgiven decl hdecl)
  rw [executeWithResolver_eq_ok hvalid hgiven]
  constructor
  · rintro ⟨assignment, hsolution, houtputs⟩
    have hsame : ∀ decl ∈ graph.inputs, assignment decl.id.val = assigned inputs decl.id.val :=
      fun decl hdecl => Option.some.inj ((hsolution.given decl hdecl).symm.trans (hread decl hdecl))
    refine ⟨fun decl hdecl => hsame decl hdecl ▸ hsolution.fits decl hdecl, ?_⟩
    exact (hfollow assignment hsame fun node hnode => (hsolution.nodes node hnode).follows).1
      ⟨hsolution.nodes, houtputs⟩
  · rintro ⟨hfits, hanswer⟩
    obtain ⟨assignment, hids, hnodes⟩ := exists_follows provider hscope (assigned inputs)
    have hsame : ∀ decl ∈ graph.inputs, assignment decl.id.val = assigned inputs decl.id.val :=
      fun decl hdecl => hids _ (mem_insertAll.2 (.inr (List.mem_map_of_mem hdecl)))
    obtain ⟨hsolved, houtputs⟩ := (hfollow assignment hsame hnodes).2 hanswer
    refine ⟨assignment, ⟨fun decl hdecl => ?_, fun decl hdecl => ?_, hsolved⟩, houtputs⟩
    · rw [hsame decl hdecl]
      exact hread decl hdecl
    · rw [hsame decl hdecl]
      exact hfits decl hdecl

end GraphExecutor

end NTD97
