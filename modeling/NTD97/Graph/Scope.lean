import Mathlib
import NTD97.Graph
import NTD97.Lib.SortedMap

/-!
# Graph/Scope — what validation promises

    inputs ▪ node₁ ▪ node₂ ▪ …        each id declared once, and before it is read

`inScope_of_validate` reads the declarations of a valid graph off its validation, node by node.
-/

namespace NTD97

open Guard SortedMap

/-- The ids a list of declarations declares. -/
def declared (decls : List ValueDecl) : List UInt32 := decls.map fun decl => decl.id.val

/-- **Nodes in scope**: each reads what is declared before it, and declares only new ids. -/
inductive InScope : IdSet → List Node → Prop
  | nil (ids : IdSet) : InScope ids []
  | cons {ids : IdSet} {node : Node} {nodes : List Node}
      (reads : ∀ value ∈ node.inputs, value.val ∈ ids)
      (fresh : Fresh ids (declared node.outputs))
      (rest : InScope (insertAll ids (declared node.outputs)) nodes) :
      InScope ids (node :: nodes)

/-- The ids in scope behind a list of nodes. -/
def scopeOf (ids : IdSet) (nodes : List Node) : IdSet :=
  nodes.foldl (fun ids node => insertAll ids (declared node.outputs)) ids

@[simp] theorem scopeOf_nil (ids : IdSet) : scopeOf ids [] = ids := rfl

@[simp] theorem scopeOf_cons (ids : IdSet) (node : Node) (nodes : List Node) :
    scopeOf ids (node :: nodes) = scopeOf (insertAll ids (declared node.outputs)) nodes := rfl

section Validate

variable {ids ids' : IdSet}

theorem foldlM_declare_eq_ok : ∀ {decls : List ValueDecl} {ids ids' : IdSet},
    decls.foldlM declare ids = .ok ids' ↔
      Fresh ids (declared decls) ∧ ids' = insertAll ids (declared decls)
  | [], ids, ids' => by
      rw [List.foldlM_nil, pure_eq_ok]
      exact ⟨fun h => ⟨⟨List.nodup_nil, fun k hk => (nomatch hk)⟩, h.symm⟩, fun h => h.2.symm⟩
  | decl :: decls, ids, ids' => by
      simp only [List.foldlM_cons, declare, bind_eq_ok, exists_unit, refuse_eq_ok, pure_eq_ok,
        foldlM_declare_eq_ok]
      have happend : declared (decl :: decls) = [decl.id.val] ++ declared decls := rfl
      rw [happend, fresh_append, fresh_singleton]
      constructor
      · rintro ⟨_, ⟨hnew, rfl⟩, hfresh, rfl⟩
        exact ⟨⟨hnew, hfresh⟩, rfl⟩
      · rintro ⟨⟨hnew, hfresh⟩, rfl⟩
        exact ⟨_, ⟨hnew, rfl⟩, hfresh, rfl⟩

theorem nodes_of_validate : ∀ {nodes : List Node} {nodeIds ids : IdSet} {seen : IdSet × IdSet},
    nodes.foldlM Node.validate (nodeIds, ids) = .ok seen →
      InScope ids nodes ∧ seen.2 = scopeOf ids nodes
  | [], nodeIds, ids, seen, h => by
      obtain rfl := pure_eq_ok.1 h
      exact ⟨.nil ids, rfl⟩
  | node :: nodes, nodeIds, ids, seen, h => by
      simp only [List.foldlM_cons, Node.validate, bind_eq_ok, exists_unit, refuse_eq_ok, forM_eq_ok,
        pure_eq_ok, not_not, foldlM_declare_eq_ok] at h
      obtain ⟨_, ⟨-, hreads, _, ⟨hfresh, rfl⟩, rfl⟩, hrest⟩ := h
      obtain ⟨hscope, hseen⟩ := nodes_of_validate hrest
      exact ⟨.cons hreads hfresh hscope, hseen⟩

/-- **A valid graph is in scope**, and its outputs are declared. -/
theorem inScope_of_validate {graph : Graph} (h : graph.validate = .ok ()) :
    (declared graph.inputs).Nodup ∧ InScope (insertAll ∅ (declared graph.inputs)) graph.nodes ∧
      ∀ value ∈ graph.outputs,
        value.val ∈ scopeOf (insertAll ∅ (declared graph.inputs)) graph.nodes := by
  simp only [Graph.validate, bind_eq_ok, exists_unit, refuse_eq_ok, not_not, foldlM_declare_eq_ok,
    forM_eq_ok] at h
  obtain ⟨-, _, ⟨hfresh, rfl⟩, seen, hnodes, houtputs⟩ := h
  obtain ⟨hscope, hseen⟩ := nodes_of_validate hnodes
  refine ⟨hfresh.1, hscope, ?_⟩
  rw [← hseen]
  exact houtputs

end Validate

/-- A declared id stays in scope. -/
theorem mem_scopeOf {id : UInt32} : ∀ {nodes : List Node} {ids : IdSet}, id ∈ scopeOf ids nodes ↔
    id ∈ ids ∨ ∃ node ∈ nodes, id ∈ declared node.outputs
  | [], ids => by simp
  | node :: nodes, ids => by
      rw [scopeOf_cons, mem_scopeOf, mem_insertAll, List.exists_mem_cons_iff, or_assoc]

end NTD97
