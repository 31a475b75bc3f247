import Mathlib
import NTD97.Graph.Scope

/-!
# Graph/Ssa — validation decides static single assignment

    validate graph = ok ()  ↔  Ssa graph

The validator threads one set of ids through the inputs, the nodes and the outputs.  `Ssa` states the
same by position: no id is declared twice, and what a node reads was declared before the node.
-/

namespace NTD97

open Guard SortedMap

/-- The ids a graph declares, in the order of their declarations. -/
def Graph.values (graph : Graph) : List UInt32 :=
  declared (graph.inputs ++ graph.nodes.flatMap (·.outputs))

/-- The id is an output of a node before the i-th. -/
def Earlier (nodes : List Node) (i : ℕ) (id : UInt32) : Prop :=
  ∃ j < i, ∃ node, nodes[j]? = some node ∧ id ∈ declared node.outputs

/-- **A well-formed graph**, in static single assignment form. -/
structure Ssa (graph : Graph) : Prop where
  version : IrVersion.current.canRead graph.version
  nodeIds : (graph.nodes.map fun node => node.id.val).Nodup
  values : graph.values.Nodup
  inputs : ∀ i node, graph.nodes[i]? = some node → ∀ value ∈ node.inputs,
    value.val ∈ declared graph.inputs ∨ Earlier graph.nodes i value.val
  outputs : ∀ value ∈ graph.outputs, value.val ∈ graph.values

/-- Declarations one after the other declare one after the other. -/
theorem declared_append (l l' : List ValueDecl) : declared (l ++ l') = declared l ++ declared l' :=
  List.map_append

theorem earlier_zero {nodes : List Node} {id : UInt32} : ¬ Earlier nodes 0 id := by
  rintro ⟨j, hj, -⟩
  exact absurd hj (Nat.not_lt_zero j)

/-- What was declared before a node: what the first node declares, or a later one. -/
theorem earlier_succ {node : Node} {nodes : List Node} {i : ℕ} {id : UInt32} :
    Earlier (node :: nodes) (i + 1) id ↔ id ∈ declared node.outputs ∨ Earlier nodes i id := by
  constructor
  · rintro ⟨j, hj, x, hx, hid⟩
    cases j with
    | zero =>
      cases hx
      exact .inl hid
    | succ j => exact .inr ⟨j, Nat.lt_of_succ_lt_succ hj, x, hx, hid⟩
  · rintro (hid | ⟨j, hj, x, hx, hid⟩)
    · exact ⟨0, Nat.succ_pos i, node, rfl, hid⟩
    · exact ⟨j + 1, Nat.succ_lt_succ hj, x, hx, hid⟩

/-- **Nodes in scope, by position**: the ids they declare are new and distinct, and each node reads
what was in scope or declared before it. -/
theorem inScope_iff : ∀ {nodes : List Node} {ids : IdSet}, InScope ids nodes ↔
    Fresh ids (declared (nodes.flatMap (·.outputs))) ∧ ∀ i node, nodes[i]? = some node →
      ∀ value ∈ node.inputs, value.val ∈ ids ∨ Earlier nodes i value.val
  | [], ids => ⟨fun _ => ⟨⟨List.nodup_nil, by simp [declared]⟩, by simp⟩, fun _ => .nil ids⟩
  | node :: nodes, ids => by
      rw [List.flatMap_cons, declared_append, fresh_append]
      constructor
      · rintro (_ | ⟨hreads, hfresh, hrest⟩)
        obtain ⟨hrestfresh, hrestreads⟩ := inScope_iff.1 hrest
        refine ⟨⟨hfresh, hrestfresh⟩, fun i x hx value hvalue => ?_⟩
        cases i with
        | zero =>
          cases hx
          exact .inl (hreads value hvalue)
        | succ i =>
          rw [earlier_succ, ← or_assoc, ← mem_insertAll]
          exact hrestreads i x hx value hvalue
      · rintro ⟨⟨hfresh, hrestfresh⟩, hreads⟩
        refine .cons (fun value hvalue => ?_) hfresh
          (inScope_iff.2 ⟨hrestfresh, fun i x hx value hvalue => ?_⟩)
        · exact (hreads 0 node rfl value hvalue).resolve_right earlier_zero
        · rw [mem_insertAll, or_assoc, ← earlier_succ]
          exact hreads (i + 1) x hx value hvalue

/-- The loop over the nodes: their ids are new and distinct, and the nodes are in scope. -/
theorem foldlM_validate_eq_ok : ∀ {nodes : List Node} {nodeIds ids : IdSet} {seen : IdSet × IdSet},
    nodes.foldlM Node.validate (nodeIds, ids) = .ok seen ↔
      Fresh nodeIds (nodes.map fun node => node.id.val) ∧ InScope ids nodes ∧
        seen = (insertAll nodeIds (nodes.map fun node => node.id.val), scopeOf ids nodes)
  | [], nodeIds, ids, seen => by
      rw [List.foldlM_nil, pure_eq_ok]
      exact ⟨fun h => ⟨⟨List.nodup_nil, by simp⟩, .nil ids, h.symm⟩, fun h => h.2.2.symm⟩
  | node :: nodes, nodeIds, ids, seen => by
      have hids : (node :: nodes).map (fun node => node.id.val)
          = [node.id.val] ++ nodes.map fun node => node.id.val := rfl
      simp only [List.foldlM_cons, Node.validate, bind_eq_ok, exists_unit, refuse_eq_ok, forM_eq_ok,
        pure_eq_ok, not_not, foldlM_declare_eq_ok]
      rw [hids, fresh_append, fresh_singleton]
      constructor
      · rintro ⟨_, ⟨hnew, hreads, _, ⟨hfresh, rfl⟩, rfl⟩, hrest⟩
        obtain ⟨hnodes, hscope, rfl⟩ := foldlM_validate_eq_ok.1 hrest
        exact ⟨⟨hnew, hnodes⟩, .cons hreads hfresh hscope, rfl⟩
      · rintro ⟨⟨hnew, hnodes⟩, _ | ⟨hreads, hfresh, hscope⟩, rfl⟩
        exact ⟨_, ⟨hnew, hreads, _, ⟨hfresh, rfl⟩, rfl⟩,
          foldlM_validate_eq_ok.2 ⟨hnodes, hscope, rfl⟩⟩

/-- What is in scope behind all nodes is what the graph declares. -/
theorem mem_values {graph : Graph} {id : UInt32} :
    id ∈ scopeOf (insertAll ∅ (declared graph.inputs)) graph.nodes ↔ id ∈ graph.values := by
  have hids : ∀ nodes : List Node, id ∈ declared (nodes.flatMap (·.outputs)) ↔
      ∃ node ∈ nodes, id ∈ declared node.outputs := by
    intro nodes
    simp only [declared, List.mem_map, List.mem_flatMap]
    tauto
  rw [mem_scopeOf, mem_insertAll, Graph.values, declared_append, List.mem_append, hids]
  simp

/-- **`validate` accepts exactly the well-formed graphs.** -/
theorem validate_eq_ok_iff (graph : Graph) : graph.validate = .ok () ↔ Ssa graph := by
  have hnodup : graph.values.Nodup ↔ (declared graph.inputs).Nodup ∧
      Fresh (insertAll ∅ (declared graph.inputs)) (declared (graph.nodes.flatMap (·.outputs))) := by
    rw [Graph.values, declared_append, ← fresh_empty_iff, fresh_append, fresh_empty_iff]
  have hinputs : ∀ id, id ∈ insertAll (∅ : IdSet) (declared graph.inputs) ↔
      id ∈ declared graph.inputs := by simp [mem_insertAll]
  simp only [Graph.validate, bind_eq_ok, exists_unit, refuse_eq_ok, not_not, foldlM_declare_eq_ok,
    forM_eq_ok, fresh_empty_iff]
  constructor
  · rintro ⟨hversion, _, ⟨hfresh, rfl⟩, _, hnodes, houtputs⟩
    obtain ⟨hids, hscope, rfl⟩ := foldlM_validate_eq_ok.1 hnodes
    obtain ⟨hdeclared, hreads⟩ := inScope_iff.1 hscope
    exact {
      version := hversion
      nodeIds := fresh_empty_iff.1 hids
      values := hnodup.2 ⟨hfresh, hdeclared⟩
      inputs := fun i node hnode value hvalue =>
        (hreads i node hnode value hvalue).imp_left (hinputs _).1
      outputs := fun value hvalue => mem_values.1 (houtputs value hvalue) }
  · intro h
    obtain ⟨hfresh, hdeclared⟩ := hnodup.1 h.values
    have hscope : InScope (insertAll ∅ (declared graph.inputs)) graph.nodes :=
      inScope_iff.2 ⟨hdeclared, fun i node hnode value hvalue =>
        (h.inputs i node hnode value hvalue).imp_left (hinputs _).2⟩
    exact ⟨h.version, _, ⟨hfresh, rfl⟩, _,
      foldlM_validate_eq_ok.2 ⟨fresh_empty_iff.2 h.nodeIds, hscope, rfl⟩,
      fun value hvalue => mem_values.2 (h.outputs value hvalue)⟩

end NTD97
