import Mathlib
import NTD97.Executor.Freeing

/-!
# Executor/Equations — a graph as a system of equations

A solution gives each declared id a tensor, so that the graph inputs carry what was given and each
node's outputs are the provider's answer on its inputs.  Where every graph input is given, the
executor answers exactly when the equations have a solution, and answers the outputs of it.
-/

namespace NTD97

open Guard Lockstep SortedMap

namespace GraphExecutor

/-- The tensor has the rank that the declaration asks for. -/
def Fits (decl : ValueDecl) (tensor : Tensor) : Prop :=
  match decl.ty with
  | .scalar _ => tensor.rank = 0
  | .tensor _ rank => tensor.rank = rank.toNat
  | .bytes => False
  | .handle => False

/-- **A node's equation** under an assignment. -/
def NodeSolved (provider : ExecutionProvider) (assignment : UInt32 → Tensor) (node : Node) : Prop :=
  ∃ op, node.op = .tensor op ∧
    provider op (node.inputs.map fun value => assignment value.val) =
      .ok (node.outputs.map fun decl => assignment decl.id.val) ∧
    ∀ decl ∈ node.outputs, Fits decl (assignment decl.id.val)

/-- **A solution**: the graph inputs carry what was given, and every node's equation holds. -/
structure Solution (provider : ExecutionProvider) (graph : Graph) (inputs : Values)
    (assignment : UInt32 → Tensor) : Prop where
  given : ∀ decl ∈ graph.inputs, inputs[decl.id.val]? = some (assignment decl.id.val)
  fits : ∀ decl ∈ graph.inputs, Fits decl (assignment decl.id.val)
  nodes : ∀ node ∈ graph.nodes, NodeSolved provider assignment node

variable {provider : ExecutionProvider} {decls : Decls} {resolver : TensorResolver} {node : Node}
  {nodes : List Node} {values final : Values} {ids : IdSet} {assignment : UInt32 → Tensor}

theorem validateDecl_eq_ok {n : NodeId} {decl : ValueDecl} {t : Tensor} :
    validateDecl n decl t = .ok () ↔ Fits decl t := by
  rw [validateDecl, Fits]
  cases decl.ty with
  | scalar _ => exact refuse_eq_ok.trans not_not
  | tensor _ rank => exact refuse_eq_ok.trans not_not
  | bytes => exact ⟨fun h => (by cases h), False.elim⟩
  | handle => exact ⟨fun h => (by cases h), False.elim⟩

/-! ## The graph inputs -/

/-- A lookup among the declarations of the graph inputs. -/
theorem getElem?_inputDecls {graph : Graph} (h : (declared graph.inputs).Nodup) {id : UInt32}
    {decl : ValueDecl} :
    (inputDecls graph)[id]? = some decl ↔ decl ∈ graph.inputs ∧ decl.id.val = id := by
  have hfile : inputDecls graph = fileAll (fun decl => decl.id.val) ∅ graph.inputs := rfl
  rw [hfile, getElem?_fileAll h]
  simp

theorem mem_inputDecls {graph : Graph} (h : (declared graph.inputs).Nodup) {id : UInt32} :
    id ∈ inputDecls graph ↔ id ∈ declared graph.inputs := by
  rw [Std.ExtTreeMap.mem_iff_isSome_getElem?, Option.isSome_iff_exists, declared, List.mem_map]
  simp only [getElem?_inputDecls h]

/-- **The seed, with the entries `l` still to come**: it holds the entries of graph inputs that went
by, all of which fit. -/
structure Seeding (graph : Graph) (inputs : Values) (l : List (UInt32 × Tensor)) (values : Values) :
    Prop where
  distinct : l.Pairwise fun a b => ¬ compare a.1 b.1 = .eq
  given : ∀ e ∈ l, inputs[e.1]? = some e.2
  fits : ∀ (id : UInt32) (decl : ValueDecl) (t : Tensor), (inputDecls graph)[id]? = some decl →
    inputs[id]? = some t → Fits decl t ∨ (id, t) ∈ l
  lookup : ∀ id, values[id]? =
    if id ∈ inputDecls graph ∧ id ∉ l.map Prod.fst then inputs[id]? else none

/-- Some given tensor does not fit. -/
def Misfit (graph : Graph) (inputs : Values) : Prop :=
  ∃ (id : UInt32) (decl : ValueDecl) (t : Tensor),
    (inputDecls graph)[id]? = some decl ∧ inputs[id]? = some t ∧ ¬ Fits decl t

theorem Seeding.start (graph : Graph) (inputs : Values) : Seeding graph inputs inputs.toList ∅ where
  distinct := Std.ExtTreeMap.distinct_keys_toList
  given _ he := Std.ExtTreeMap.mem_toList_iff_getElem?_eq_some.1 he
  fits _ _ _ _ ht := .inr (Std.ExtTreeMap.mem_toList_iff_getElem?_eq_some.2 ht)
  lookup id := by
    rw [Std.ExtTreeMap.getElem?_empty]
    split
    · next h =>
      rw [eq_comm, Option.eq_none_iff_forall_ne_some]
      exact fun t ht => h.2 (List.mem_map.2
        ⟨(id, t), Std.ExtTreeMap.mem_toList_iff_getElem?_eq_some.2 ht, rfl⟩)
    · rfl

theorem Seeding.step {graph : Graph} {inputs values : Values} {e : UInt32 × Tensor}
    {l : List (UInt32 × Tensor)} (h : Seeding graph inputs (e :: l) values) :
    Outcome (Seeding graph inputs l) (fun _ => Misfit graph inputs)
      (seedInput (inputDecls graph) values e) := by
  obtain ⟨k, t⟩ := e
  obtain ⟨hk, hdistinct⟩ := List.pairwise_cons.1 h.distinct
  obtain ⟨hkt, hgiven⟩ := List.forall_mem_cons.1 h.given
  have hfresh : k ∉ l.map Prod.fst := by
    rw [List.mem_map]
    rintro ⟨e, he, rfl⟩
    exact hk e he Std.ReflCmp.compare_self
  have hother {id : UInt32} (hid : k ≠ id) : values[id]? =
      if id ∈ inputDecls graph ∧ id ∉ l.map Prod.fst then inputs[id]? else none := by
    rw [h.lookup id]
    refine if_congr (and_congr_right fun _ => not_congr ?_) rfl rfl
    rw [List.map_cons, List.mem_cons, or_iff_right hid.symm]
  cases hdecl : (inputDecls graph)[k]? with
  | none =>
    rw [seedInput, hdecl]
    refine ⟨hdistinct, hgiven, fun id decl t' hd ht' => ?_, fun id => ?_⟩
    · refine (h.fits id decl t' hd ht').imp_right fun hmem => ?_
      refine (List.mem_cons.1 hmem).resolve_left fun heq => ?_
      obtain ⟨rfl, -⟩ := Prod.mk.inj heq
      cases hdecl.symm.trans hd
    · by_cases hid : k = id
      · subst hid
        rw [h.lookup, if_neg fun h => not_mem_of_getElem? hdecl h.1,
          if_neg fun h => not_mem_of_getElem? hdecl h.1]
      · exact hother hid
  | some decl =>
    have hmem : k ∈ inputDecls graph := by
      rw [Std.ExtTreeMap.mem_iff_isSome_getElem?, hdecl]
      rfl
    have hcheck : Outcome (fun _ => Fits decl t) (fun _ => Misfit graph inputs)
        (validateDecl noNode decl t) := by
      cases hcheck : validateDecl noNode decl t with
      | ok _ => exact validateDecl_eq_ok.1 hcheck
      | error e =>
        refine ⟨k, decl, t, hdecl, hkt, fun hfit => ?_⟩
        cases hcheck.symm.trans (validateDecl_eq_ok.2 hfit)
    rw [seedInput, hdecl]
    refine hcheck.bind fun _ hfit =>
      ⟨hdistinct, hgiven, fun id decl' t' hd ht' => ?_, fun id => ?_⟩
    · rcases h.fits id decl' t' hd ht' with hfit' | hmem'
      · exact .inl hfit'
      · refine (List.mem_cons.1 hmem').imp_left fun heq => ?_
        obtain ⟨rfl, rfl⟩ := Prod.mk.inj heq
        exact Option.some.inj (hdecl.symm.trans hd) ▸ hfit
    · by_cases hid : k = id
      · subst hid
        rw [Std.ExtTreeMap.getElem?_insert_self, if_pos ⟨hmem, hfresh⟩, hkt]
      · rw [Std.ExtTreeMap.getElem?_insert, if_neg (mt Std.compare_eq_iff_eq.1 hid), hother hid]

/-- **What the seed holds**: the given tensors of the graph inputs, if each of them fits. -/
theorem seed_spec (graph : Graph) (inputs : Values) :
    Outcome (fun values => ¬ Misfit graph inputs ∧
        ∀ id, values[id]? = if id ∈ inputDecls graph then inputs[id]? else none)
      (fun _ => Misfit graph inputs) (seed graph inputs) := by
  refine (Outcome.foldlM (R := Seeding graph inputs) (fun _ _ _ h => h.step)
    (Seeding.start graph inputs)).mono fun values h => ⟨?_, fun id => ?_⟩
  · rintro ⟨id, decl, t, hd, ht, hmisfit⟩
    exact (h.fits id decl t hd ht).elim hmisfit fun hmem => (nomatch hmem)
  · rw [h.lookup id]
    exact if_congr (and_iff_left fun hmem => (nomatch hmem)) rfl rfl

/-! ## One node -/

/-- Each declaration's tensor stored under its id. -/
def storeAll (values : Values) (l : List (ValueDecl × Tensor)) : Values :=
  l.foldl (fun values output => values.insert output.1.id.val output.2) values

theorem foldlM_storeOutput_eq_ok {n : NodeId} : ∀ {l : List (ValueDecl × Tensor)} {values final},
    l.foldlM (storeOutput n) values = .ok final ↔
      (∀ output ∈ l, Fits output.1 output.2) ∧ final = storeAll values l
  | [], values, final => by
      rw [List.foldlM_nil, pure_eq_ok]
      exact ⟨fun h => ⟨fun _ h => (nomatch h), h.symm⟩, fun h => h.2.symm⟩
  | output :: l, values, final => by
      simp only [List.foldlM_cons, storeOutput, bind_eq_ok, exists_unit, validateDecl_eq_ok,
        pure_eq_ok, foldlM_storeOutput_eq_ok, List.forall_mem_cons]
      constructor
      · rintro ⟨_, ⟨hfit, rfl⟩, hfits, rfl⟩
        exact ⟨⟨hfit, hfits⟩, rfl⟩
      · rintro ⟨⟨hfit, hfits⟩, rfl⟩
        exact ⟨_, ⟨hfit, rfl⟩, hfits, rfl⟩

/-- What is not stored keeps its tensor. -/
theorem getElem?_storeAll_other {id : UInt32} : ∀ {l : List (ValueDecl × Tensor)} {values : Values},
    id ∉ declared (l.map Prod.fst) → (storeAll values l)[id]? = values[id]?
  | [], _, _ => rfl
  | output :: l, values, h => by
      obtain ⟨hne, hrest⟩ := not_or.1 (mt List.mem_cons.2 h)
      rw [storeAll, List.foldl_cons, ← storeAll, getElem?_storeAll_other hrest,
        Std.ExtTreeMap.getElem?_insert, if_neg (mt Std.compare_eq_iff_eq.1 (Ne.symm hne))]

/-- What is stored is found. -/
theorem getElem?_storeAll : ∀ {l : List (ValueDecl × Tensor)} {values : Values},
    (declared (l.map Prod.fst)).Nodup →
      ∀ output ∈ l, (storeAll values l)[output.1.id.val]? = some output.2
  | [], _, _ => fun _ h => (nomatch h)
  | output :: l, values, h => by
      obtain ⟨hne, hrest⟩ := List.nodup_cons.1 h
      rw [storeAll, List.foldl_cons, ← storeAll]
      refine List.forall_mem_cons.2 ⟨?_, getElem?_storeAll hrest⟩
      rw [getElem?_storeAll_other hne, Std.ExtTreeMap.getElem?_insert_self]

/-- A node whose inputs all have values resolves nothing. -/
theorem resolveInputs_given : ∀ {inputs : List ValueId}, (∀ value ∈ inputs, value.val ∈ values) →
    inputs.foldlM (resolveInput decls resolver node.id) values = .ok values
  | [], _ => rfl
  | value :: inputs, h => by
      obtain ⟨hvalue, hrest⟩ := List.forall_mem_cons.1 h
      rw [List.foldlM_cons, resolveInput, if_pos hvalue]
      exact resolveInputs_given hrest

theorem readInputs_given {n : NodeId} {inputs : List ValueId}
    (h : ∀ value ∈ inputs, values[value.val]? = some (assignment value.val)) :
    inputs.mapM (readInput n values) = .ok (inputs.map fun value => assignment value.val) := by
  rw [mapM_eq_ok, List.forall₂_map_right_iff, List.forall₂_same]
  exact fun value hvalue => okOr_eq_ok.2 (h value hvalue)

/-- **A node at work**: the provider answers on its inputs, and its outputs are stored. -/
theorem referenceNode_eq_ok
    (h : ∀ value ∈ node.inputs, values[value.val]? = some (assignment value.val)) :
    referenceNode provider decls resolver values node = .ok final ↔
      ∃ op outputs, node.op = .tensor op ∧
        provider op (node.inputs.map fun value => assignment value.val) = .ok outputs ∧
        outputs.length = node.outputs.length ∧
        (∀ output ∈ node.outputs.zip outputs, Fits output.1 output.2) ∧
        final = storeAll values (node.outputs.zip outputs) := by
  have hmem : ∀ value ∈ node.inputs, value.val ∈ values := fun value hvalue => by
    rw [Std.ExtTreeMap.mem_iff_isSome_getElem?, h value hvalue]
    rfl
  have hop {op : TensorOp} : tensorOp node = .ok op ↔ node.op = .tensor op := by
    rw [tensorOp]
    cases node.op <;> simp
  simp only [referenceNode, compute, bind_eq_ok, exists_unit, refuse_eq_ok, not_not, pure_eq_ok, hop,
    mapError_eq_ok, resolveInputs_given hmem, foldlM_storeOutput_eq_ok]
  constructor
  · rintro ⟨_, ⟨op, hnode, _, ⟨rfl⟩, _, hread, outputs, hprovider, hlength, rfl⟩, hfits, rfl⟩
    obtain rfl := Except.ok.inj ((readInputs_given h).symm.trans hread)
    exact ⟨op, outputs, hnode, hprovider, hlength, hfits, rfl⟩
  · rintro ⟨op, outputs, hnode, hprovider, hlength, hfits, rfl⟩
    exact ⟨_, ⟨op, hnode, _, rfl, _, readInputs_given h, outputs, hprovider, hlength, rfl⟩, hfits, rfl⟩

/-! ## All nodes -/

/-- The assignment that a map of values carries. -/
def assigned (values : Values) (id : UInt32) : Tensor := (values[id]?).getD (.scalar F32.zero)

theorem getElem?_eq_assigned {id : UInt32} (h : id ∈ values) :
    values[id]? = some (assigned values id) := by
  obtain ⟨t, ht⟩ := Option.isSome_iff_exists.1 (Std.ExtTreeMap.mem_iff_isSome_getElem?.1 h)
  rw [assigned, ht, Option.getD_some]

/-- The values carry the assignment on the ids in scope. -/
def Carries (ids : IdSet) (values : Values) (assignment : UInt32 → Tensor) : Prop :=
  ∀ id ∈ ids, values[id]? = some (assignment id)

/-- **A run solves the equations** of its nodes, and leaves the values in scope as they were. -/
theorem solved_of_run (hscope : InScope ids nodes) (hids : ∀ id ∈ ids, id ∈ values)
    (hrun : nodes.foldlM (referenceNode provider decls resolver) values = .ok final) :
    (∀ id ∈ ids, final[id]? = values[id]?) ∧ (∀ id ∈ scopeOf ids nodes, id ∈ final) ∧
      ∀ assignment, Carries (scopeOf ids nodes) final assignment →
        ∀ node ∈ nodes, NodeSolved provider assignment node := by
  induction hscope generalizing values with
  | nil ids =>
    obtain rfl := pure_eq_ok.1 hrun
    exact ⟨fun _ _ => rfl, hids, fun _ _ _ h => (nomatch h)⟩
  | @cons ids node nodes hreads hfresh hscope ih =>
    rw [List.foldlM_cons, bind_eq_ok] at hrun
    obtain ⟨mid, hnode, hrun⟩ := hrun
    obtain ⟨op, outputs, hop, hprovider, hlength, hfits, rfl⟩ := (referenceNode_eq_ok
      fun value hvalue => getElem?_eq_assigned (hids _ (hreads value hvalue))).1 hnode
    have hfst : (node.outputs.zip outputs).map Prod.fst = node.outputs :=
      List.map_fst_zip hlength.ge
    have hstored : ∀ output ∈ node.outputs.zip outputs,
        (storeAll values (node.outputs.zip outputs))[output.1.id.val]? = some output.2 :=
      getElem?_storeAll (by rw [hfst]; exact hfresh.1)
    have hkept : ∀ id ∈ ids, (storeAll values (node.outputs.zip outputs))[id]? = values[id]? :=
      fun id hid => getElem?_storeAll_other (by rw [hfst]; exact fun h => hfresh.2 id h hid)
    have hmid : ∀ id ∈ insertAll ids (declared node.outputs),
        id ∈ storeAll values (node.outputs.zip outputs) := by
      intro id hid
      rw [Std.ExtTreeMap.mem_iff_isSome_getElem?]
      rcases mem_insertAll.1 hid with hid | hid
      · rw [hkept id hid]
        exact Std.ExtTreeMap.mem_iff_isSome_getElem?.1 (hids id hid)
      · rw [← hfst, declared, List.map_map] at hid
        obtain ⟨output, houtput, rfl⟩ := List.mem_map.1 hid
        exact Option.isSome_iff_exists.2 ⟨_, hstored output houtput⟩
    obtain ⟨hsame, hall, hsolved⟩ := ih hmid hrun
    have hback : ∀ id ∈ ids, final[id]? = values[id]? := fun id hid =>
      (hsame id (mem_insertAll.2 (.inl hid))).trans (hkept id hid)
    refine ⟨hback, hall, fun assignment hcarries => List.forall_mem_cons.2 ⟨?_, ?_⟩⟩
    · rw [scopeOf_cons] at hcarries
      have hscoped : ∀ id ∈ insertAll ids (declared node.outputs),
          final[id]? = some (assignment id) := fun id hid => hcarries id (mem_scopeOf.2 (.inl hid))
      have hinputs : node.inputs.map (fun value => assigned values value.val) =
          node.inputs.map fun value => assignment value.val := List.map_congr_left fun value hvalue =>
        Option.some.inj <| (getElem?_eq_assigned (hids _ (hreads value hvalue))).symm.trans <|
          (hback _ (hreads value hvalue)).symm.trans
            (hscoped _ (mem_insertAll.2 (.inl (hreads value hvalue))))
      have hzip : ∀ output ∈ node.outputs.zip outputs, assignment output.1.id.val = output.2 := by
        intro output houtput
        have hid : output.1.id.val ∈ insertAll ids (declared node.outputs) :=
          mem_insertAll.2 (.inr (List.mem_map_of_mem (List.of_mem_zip houtput).1))
        exact Option.some.inj <| (hscoped _ hid).symm.trans <|
          (hsame _ hid).trans (hstored output houtput)
      have houtputs : outputs = node.outputs.map fun decl => assignment decl.id.val := by
        rw [← List.map_snd_zip hlength.le, ← List.map_congr_left hzip]
        conv_rhs => rw [← hfst, List.map_map]
        rfl
      refine ⟨op, hop, by rw [← hinputs, hprovider, houtputs], ?_⟩
      rw [← hfst]
      refine List.forall_mem_map.2 fun output houtput => ?_
      rw [hzip output houtput]
      exact hfits output houtput
    · exact hsolved assignment hcarries

/-- **A solution is a run**: the values end up carrying the assignment. -/
theorem run_of_solved (hscope : InScope ids nodes) (hids : Carries ids values assignment)
    (hnodes : ∀ node ∈ nodes, NodeSolved provider assignment node) :
    ∃ final, nodes.foldlM (referenceNode provider decls resolver) values = .ok final ∧
      Carries (scopeOf ids nodes) final assignment := by
  induction hscope generalizing values with
  | nil ids => exact ⟨values, rfl, hids⟩
  | @cons ids node nodes hreads hfresh hscope ih =>
    obtain ⟨hnode, hnodes⟩ := List.forall_mem_cons.1 hnodes
    obtain ⟨op, hop, hprovider, hfits⟩ := hnode
    have hzip : node.outputs.zip (node.outputs.map fun decl => assignment decl.id.val) =
        node.outputs.map fun decl => (decl, assignment decl.id.val) := by
      rw [← List.map_prod_left_eq_zip]
    have hfst : ((node.outputs.map fun decl => (decl, assignment decl.id.val)).map Prod.fst) =
        node.outputs := by
      rw [List.map_map]
      exact List.map_id _
    have hstep : referenceNode provider decls resolver values node = .ok
        (storeAll values (node.outputs.map fun decl => (decl, assignment decl.id.val))) := by
      refine (referenceNode_eq_ok fun value hvalue => hids _ (hreads value hvalue)).2
        ⟨op, _, hop, hprovider, List.length_map .., ?_, by rw [hzip]⟩
      rw [hzip]
      exact List.forall_mem_map.2 hfits
    have hcarries : Carries (insertAll ids (declared node.outputs))
        (storeAll values (node.outputs.map fun decl => (decl, assignment decl.id.val)))
        assignment := by
      intro id hid
      by_cases hdecl : id ∈ declared node.outputs
      · obtain ⟨decl, hmem, rfl⟩ := List.mem_map.1 hdecl
        refine getElem?_storeAll ?_ _ (List.mem_map_of_mem hmem)
        rw [hfst]
        exact hfresh.1
      · rw [getElem?_storeAll_other (by rwa [hfst])]
        exact hids id ((mem_insertAll.1 hid).resolve_right hdecl)
    obtain ⟨final, hrun, hfinal⟩ := ih hcarries hnodes
    refine ⟨final, ?_, hfinal⟩
    rw [List.foldlM_cons, hstep]
    exact hrun

/-! ## Solutions and answers -/

section Given

variable {graph : Graph} {inputs : Values} {outputs : List Tensor}

theorem readOutputs {values : Values}
    (h : ∀ value ∈ graph.outputs, values[value.val]? = some (assignment value.val)) :
    collectOutputs graph values = .ok (graph.outputs.map fun value => assignment value.val) :=
  readInputs_given h

/-- **The executor solves the equations**: with every graph input given, it answers exactly the
outputs of a solution. -/
theorem executeWithResolver_eq_ok (hvalid : graph.validate = .ok ())
    (hgiven : ∀ decl ∈ graph.inputs, decl.id.val ∈ inputs) :
    executeWithResolver provider graph inputs resolver = .ok outputs ↔
      ∃ assignment, Solution provider graph inputs assignment ∧
        outputs = graph.outputs.map fun value => assignment value.val := by
  obtain ⟨hnodup, hscope, houtputs⟩ := inScope_of_validate hvalid
  have hseed := seed_spec graph inputs
  have hdecl : ∀ decl ∈ graph.inputs, (inputDecls graph)[decl.id.val]? = some decl :=
    fun decl hdecl => (getElem?_inputDecls hnodup).2 ⟨hdecl, rfl⟩
  have hin : ∀ id ∈ insertAll ∅ (declared graph.inputs), id ∈ declared graph.inputs := fun id hid =>
    (mem_insertAll.1 hid).resolve_left Std.ExtTreeSet.not_mem_empty
  rw [executeWithResolver_eq_reference, referenceExecute, referenceNodes, hvalid]
  constructor
  · intro h
    obtain ⟨final, hnodes, hcollect⟩ := bind_eq_ok.1 h
    obtain ⟨_, -, hnodes⟩ := bind_eq_ok.1 hnodes
    obtain ⟨values, hvalues, hrun⟩ := bind_eq_ok.1 hnodes
    rw [hvalues] at hseed
    obtain ⟨hfits, hlookup⟩ := hseed
    have hids : ∀ decl ∈ graph.inputs, values[decl.id.val]? = inputs[decl.id.val]? :=
      fun decl hd => by
        rw [hlookup, if_pos ((mem_inputDecls hnodup).2 (List.mem_map_of_mem hd))]
    obtain ⟨hsame, hall, hsolved⟩ := solved_of_run hscope (fun id hid => by
      obtain ⟨decl, hd, rfl⟩ := List.mem_map.1 (hin id hid)
      rw [Std.ExtTreeMap.mem_iff_isSome_getElem?, hids decl hd,
        ← Std.ExtTreeMap.mem_iff_isSome_getElem?]
      exact hgiven decl hd) hrun
    have hcarries : Carries (scopeOf (insertAll ∅ (declared graph.inputs)) graph.nodes) final
        (assigned final) := fun id hid => getElem?_eq_assigned (hall id hid)
    have hinput : ∀ decl ∈ graph.inputs,
        inputs[decl.id.val]? = some (assigned final decl.id.val) := fun decl hd => by
      have hid : decl.id.val ∈ insertAll ∅ (declared graph.inputs) :=
        mem_insertAll.2 (.inr (List.mem_map_of_mem hd))
      rw [← hids decl hd, ← hsame _ hid]
      exact hcarries _ (mem_scopeOf.2 (.inl hid))
    refine ⟨assigned final, ⟨hinput, fun decl hd => ?_, hsolved _ hcarries⟩, ?_⟩
    · by_contra hmisfit
      exact hfits ⟨_, decl, _, hdecl decl hd, hinput decl hd, hmisfit⟩
    · rw [readOutputs fun value hvalue => hcarries _ (houtputs value hvalue)] at hcollect
      exact (Except.ok.inj hcollect).symm
  · rintro ⟨assignment, hsolution, rfl⟩
    cases hvalues : seed graph inputs with
    | error e =>
      rw [hvalues] at hseed
      obtain ⟨id, decl, t, hd, ht, hmisfit⟩ := hseed
      obtain ⟨hmem, rfl⟩ := (getElem?_inputDecls hnodup).1 hd
      rw [hsolution.given decl hmem] at ht
      exact absurd (Option.some.inj ht ▸ hsolution.fits decl hmem) hmisfit
    | ok values =>
      rw [hvalues] at hseed
      have hids : Carries (insertAll ∅ (declared graph.inputs)) values assignment := by
        intro id hid
        obtain ⟨decl, hd, rfl⟩ := List.mem_map.1 (hin id hid)
        rw [hseed.2, if_pos ((mem_inputDecls hnodup).2 (hin _ hid))]
        exact hsolution.given decl hd
      obtain ⟨final, hrun, hfinal⟩ : ∃ final,
          graph.nodes.foldlM (referenceNode provider (inputDecls graph) resolver) values =
            .ok final ∧
          Carries (scopeOf (insertAll ∅ (declared graph.inputs)) graph.nodes) final assignment :=
        run_of_solved hscope hids hsolution.nodes
      refine bind_eq_ok.2 ⟨final, bind_eq_ok.2 ⟨(), rfl, bind_eq_ok.2 ⟨values, rfl, hrun⟩⟩, ?_⟩
      exact readOutputs fun value hvalue => hfinal _ (houtputs value hvalue)

end Given

end GraphExecutor

end NTD97
