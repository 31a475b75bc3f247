import Mathlib
import NTD97.Executor
import NTD97.Lib.Lockstep
import NTD97.Mobile
import NTD97.Mobile.Tiled

/-!
# Mobile/Adaptive — choosing a provider changes no result

    execute ──order──▸ the first that answers  =  the reference

Two inputs: every provider that answers, answers what the reference answers (`Faithful`), and no
filter removes the reference provider (`cpuReference_allowed`).  So the order does not matter, and
neither does anything that it depends on.
-/

namespace NTD97

open Guard Lockstep

/-! ## The order is a total preorder

`compareProvider` compares keys, measured providers before the others. -/

/-- What two providers are compared by. -/
def ProviderProfile.key (op : TensorOp) (autotune : AutotuneTable) (latencyBudgetMs : ℕ)
    (preferLowPower : Bool) (profile : ProviderProfile) : ℕ ×ₗ ℕ ×ₗ ℕ ×ₗ ℕ :=
  match autotune.latencyNanos profile.kind op with
  | some ns =>
    let missesBudget : Bool := 0 < latencyBudgetMs ∧ min (latencyBudgetMs * 1000000) (2 ^ 64 - 1) < ns
    toLex (0, toLex (missesBudget.toNat, toLex (ns, profile.priority)))
  | none =>
    toLex (1, toLex (if preferLowPower then profile.power.index else 0, toLex (profile.priority, 0)))

theorem compare_toNat (a b : Bool) : compare a.toNat b.toNat = compare a b := by
  cases a <;> cases b <;> rfl

theorem compare_toLex (a c : ℕ) {β : Type} [LinearOrder β] (b d : β) :
    compare (toLex (a, b)) (toLex (c, d)) = (compare a c).then (compare b d) := by
  rw [Prod.Lex.compare_def]
  rfl

/-- **The comparison is that of the keys.** -/
theorem compareProvider_eq (left right : ProviderProfile) (op : TensorOp) (autotune : AutotuneTable)
    (latencyBudgetMs : ℕ) (preferLowPower : Bool) :
    compareProvider left right op autotune latencyBudgetMs preferLowPower =
      compare (left.key op autotune latencyBudgetMs preferLowPower)
        (right.key op autotune latencyBudgetMs preferLowPower) := by
  have hlt : compare 0 1 = Ordering.lt := rfl
  have hgt : compare 1 0 = Ordering.gt := rfl
  simp only [compareProvider, ProviderProfile.key]
  cases autotune.latencyNanos left.kind op with
  | some leftNs =>
    cases autotune.latencyNanos right.kind op with
    | some rightNs =>
      simp only [compare_toLex, compare_toNat, Std.compare_self, Ordering.then_assoc]
      rfl
    | none =>
      simp only [compare_toLex, hlt]
      rfl
  | none =>
    cases autotune.latencyNanos right.kind op with
    | some rightNs =>
      simp only [compare_toLex, hgt]
      rfl
    | none =>
      simp only [compare_toLex, Std.compare_self]
      cases preferLowPower <;> simp

namespace AdaptiveExecutionProvider

variable {ops : F32Ops} {self : AdaptiveExecutionProvider} {op : TensorOp} {inputs : List Tensor}
  {outputs : List Tensor}

/-- The key by which the provider at a place is ordered. -/
def keyAt (self : AdaptiveExecutionProvider) (op : TensorOp) (index : self.Index) :
    ℕ ×ₗ ℕ ×ₗ ℕ ×ₗ ℕ :=
  (self.providers.get index).profile.key op self.autotune self.snapshot.latencyBudgetMs
    self.policy.preferLowPower

theorem compareIndices_ne_gt {left right : self.Index} :
    self.compareIndices op left right ≠ .gt ↔ self.keyAt op left ≤ self.keyAt op right := by
  rw [compareIndices, compareProvider_eq]
  exact compare_le_iff_le

/-- **Providers are tried by ascending key.** -/
theorem pairwise_orderedProviderIndices :
    (self.orderedProviderIndices op).Pairwise fun left right =>
      self.keyAt op left ≤ self.keyAt op right := by
  have hsorted := @List.pairwise_mergeSort _
    (fun left right : self.Index => decide (self.compareIndices op left right ≠ .gt))
    (fun a b c hab hbc => ?_) (fun a b => ?_)
    ((List.finRange self.providers.length).filter fun index =>
      self.profileAllowed self.providers[index].profile op)
  · exact hsorted.imp fun h => compareIndices_ne_gt.1 (of_decide_eq_true h)
  · have hle := (compareIndices_ne_gt.1 (of_decide_eq_true hab)).trans
      (compareIndices_ne_gt.1 (of_decide_eq_true hbc))
    exact decide_eq_true (compareIndices_ne_gt.2 hle)
  · rw [Bool.or_eq_true, decide_eq_true_eq, decide_eq_true_eq, compareIndices_ne_gt,
      compareIndices_ne_gt]
    exact le_total _ _

theorem mem_orderedProviderIndices {index : self.Index} :
    index ∈ self.orderedProviderIndices op ↔
      self.profileAllowed (self.providers.get index).profile op = true := by
  rw [orderedProviderIndices, List.mem_mergeSort, List.mem_filter]
  exact and_iff_right (List.mem_finRange index)

/-! ## What is tried -/

/-- **A provider that answers, answers what the reference does.** -/
def Faithful (ops : F32Ops) (provider : MobileExecutionProvider) : Prop :=
  ∀ op inputs outputs, provider.execute op inputs = .ok outputs →
    cpuReferenceProvider ops op inputs = .ok outputs

/-- **No filter removes the reference provider.** -/
theorem cpuReference_allowed :
    self.profileAllowed (cpuReferenceMobileProvider ops).profile op = true := by
  have hsupports : (cpuReferenceMobileProvider ops).profile.supports op = true :=
    ProviderProfile.supports_allTensorOps .cpuReference "cpu-reference" op
  simp only [profileAllowed, hsupports]
  rfl

/-- An answer is the reference's, whatever the order. -/
theorem reference_of_tryInOrder (hfaithful : ∀ p ∈ self.providers, Faithful ops p) :
    ∀ {indices : List self.Index} {lastError : Option TensorError},
      self.tryInOrder op inputs lastError indices = .ok outputs →
        cpuReferenceProvider ops op inputs = .ok outputs
  | [], _, h => (throw_ne_ok.1 h).elim
  | index :: indices, _, h => by
      rw [tryInOrder] at h
      rcases hrun : self.providers[index].execute op inputs with error | answer
      · rw [hrun] at h
        exact reference_of_tryInOrder hfaithful h
      · rw [hrun] at h
        obtain rfl := pure_eq_ok.1 h
        exact hfaithful _ (List.getElem_mem index.isLt) op inputs answer hrun

/-- What one of the providers answers is the answer of them all. -/
theorem tryInOrder_of_reference (hfaithful : ∀ p ∈ self.providers, Faithful ops p)
    (href : cpuReferenceProvider ops op inputs = .ok outputs) :
    ∀ {indices : List self.Index} {lastError : Option TensorError},
      (∃ index ∈ indices, (self.providers.get index).execute op inputs = .ok outputs) →
        self.tryInOrder op inputs lastError indices = .ok outputs
  | [], _, h => by simp at h
  | index :: indices, _, h => by
      rw [tryInOrder]
      rcases hrun : self.providers[index].execute op inputs with error | answer
      · refine tryInOrder_of_reference hfaithful href ?_
        rcases List.exists_mem_cons_iff _ _ _ |>.1 h with hhead | htail
        · cases hrun.symm.trans hhead
        · exact htail
      · have hsame := hfaithful _ (List.getElem_mem index.isLt) op inputs answer hrun
        rw [href] at hsame
        exact hsame.symm

/-- **One operation**: the adaptive provider answers as the reference does. -/
theorem execute_alike (hmem : cpuReferenceMobileProvider ops ∈ self.providers)
    (hfaithful : ∀ p ∈ self.providers, Faithful ops p) (op : TensorOp) (inputs : List Tensor) :
    Alike (self.execute op inputs) (cpuReferenceProvider ops op inputs) := by
  obtain ⟨index, hindex, hget⟩ := List.getElem_of_mem hmem
  have hordered : ⟨index, hindex⟩ ∈ self.orderedProviderIndices op := by
    rw [mem_orderedProviderIndices]
    change self.profileAllowed self.providers[index].profile op = true
    rw [hget]
    exact cpuReference_allowed
  intro outputs
  rw [execute, bind_eq_ok, exists_unit, refuse_eq_ok]
  constructor
  · rintro ⟨-, h⟩
    exact reference_of_tryInOrder hfaithful h
  · intro href
    refine ⟨List.ne_nil_of_mem hordered, tryInOrder_of_reference hfaithful href ?_⟩
    refine ⟨⟨index, hindex⟩, hordered, ?_⟩
    change self.providers[index].execute op inputs = .ok outputs
    rw [hget]
    exact href

end AdaptiveExecutionProvider

/-! ## Running a graph -/

namespace GraphExecutor

variable {provider provider' : ExecutionProvider}

theorem compute_alike (h : ∀ op inputs, Alike (provider op inputs) (provider' op inputs))
    (decls : Decls) (resolver : TensorResolver) (values : Values) (node : Node) :
    Alike (compute provider decls resolver values node)
      (compute provider' decls resolver values node) := by
  refine (Alike.refl _).bind fun op => (Alike.refl _).bind fun values => ?_
  refine (Alike.refl _).bind fun inputs => ?_
  exact ((h op inputs).mapError _).bind fun outputs => Alike.refl _

/-- **Step lemma**: one node. -/
theorem executeNode_alike (h : ∀ op inputs, Alike (provider op inputs) (provider' op inputs))
    (decls : Decls) (resolver : TensorResolver) (outputIds : IdSet)
    (pool : Liveness.Pool UInt32 Tensor) (node : Node) :
    Alike (executeNode provider decls resolver outputIds pool node)
      (executeNode provider' decls resolver outputIds pool node) :=
  (compute_alike h decls resolver pool.values node).bind fun _ => Alike.refl _

/-- **Run lemma**: providers that answer alike give graphs the same results. -/
theorem executeWithResolver_alike
    (h : ∀ op inputs, Alike (provider op inputs) (provider' op inputs)) (graph : Graph)
    (inputs : Values) (resolver : TensorResolver) :
    Alike (executeWithResolver provider graph inputs resolver)
      (executeWithResolver provider' graph inputs resolver) := by
  refine Alike.bind ?_ fun _ => Alike.refl _
  refine (Alike.refl _).bind fun _ => (Alike.refl _).bind fun values => ?_
  exact Alike.foldlM (executeNode_alike h _ resolver _) graph.nodes _

end GraphExecutor

open AdaptiveExecutionProvider GraphExecutor

/-- **Adaptive execution never changes results**: not by what is chosen, and not by what the choice
depends on. -/
theorem adaptive_eq_reference (ops : F32Ops) (adaptive : AdaptiveExecutionProvider)
    (hmem : cpuReferenceMobileProvider ops ∈ adaptive.providers)
    (hfaithful : ∀ p ∈ adaptive.providers, Faithful ops p) (graph : Graph) (inputs : Values)
    (resolver : TensorResolver) (outputs : List Tensor) :
    (executeWithResolver adaptive.execute graph inputs resolver = .ok outputs ↔
      executeWithResolver (cpuReferenceProvider ops) graph inputs resolver = .ok outputs) ∧
    ∀ other : AdaptiveExecutionProvider, other.providers.Perm adaptive.providers →
      (executeWithResolver other.execute graph inputs resolver = .ok outputs ↔
        executeWithResolver adaptive.execute graph inputs resolver = .ok outputs) := by
  have hsame := executeWithResolver_alike (execute_alike hmem hfaithful) graph inputs resolver outputs
  refine ⟨hsame, fun other hperm => ?_⟩
  have hmem' : cpuReferenceMobileProvider ops ∈ other.providers := hperm.mem_iff.2 hmem
  have hfaithful' : ∀ p ∈ other.providers, Faithful ops p :=
    fun p hp => hfaithful p (hperm.mem_iff.1 hp)
  exact (executeWithResolver_alike (execute_alike hmem' hfaithful') graph inputs resolver
    outputs).trans hsame.symm

namespace Adaptive.Sample

open F32Ops Tiled.Sample

/-- An accelerator that never answers. -/
def failingProvider : MobileExecutionProvider where
  profile := ProviderProfile.allTensorOps .npu "accelerator"
  execute op _ := throw (.unsupportedOp op)

theorem faithful_failingProvider : Faithful words failingProvider :=
  fun _ _ _ h => (throw_ne_ok.1 h).elim

theorem faithful_tiled (tiled : CpuTiledProvider) : Faithful words (tiled.provider words) := by
  intro op inputs outputs h
  rwa [← CpuTiledProvider.execute_eq words tiled]

theorem faithful_reference : Faithful words (cpuReferenceMobileProvider words) :=
  fun _ _ _ h => h

/-- The accelerator is measured fastest, and tried first. -/
def adaptive : AdaptiveExecutionProvider where
  device := ⟨8, true, true⟩
  snapshot := ⟨5, 80, false, .nominal, 100⟩
  policy := ⟨1, 15, true, true, false⟩
  autotune := AutotuneTable.empty.record ⟨.npu, .add, 50, true⟩
  providers := [failingProvider, CpuTiledProvider.default.provider words,
    cpuReferenceMobileProvider words]

theorem faithful_providers : ∀ p ∈ adaptive.providers, Faithful words p := by
  intro p hp
  rcases List.mem_cons.1 hp with rfl | hp
  · exact faithful_failingProvider
  rcases List.mem_cons.1 hp with rfl | hp
  · exact faithful_tiled .default
  · obtain rfl := List.mem_singleton.1 hp
    exact faithful_reference

/-- A graph input, added to itself. -/
def graph : Graph where
  version := .current
  inputs := [⟨⟨0⟩, .tensor .f32 2⟩]
  nodes := [⟨⟨0⟩, .tensor .add, [⟨0⟩, ⟨0⟩], [⟨⟨1⟩, .tensor .f32 2⟩]⟩]
  outputs := [⟨1⟩]

def inputs : Values := Std.ExtTreeMap.insert ∅ 0 one

theorem sum_sized : elementCountUsize [1, 1] = .ok [F32.one + F32.one].length := rfl

def sum : Tensor := ⟨[1, 1], [F32.one + F32.one], sum_sized⟩

end Adaptive.Sample

open Adaptive.Sample F32Ops Tiled.Sample in
theorem adaptive_eq_reference_fallback :
    cpuReferenceMobileProvider words ∈ adaptive.providers ∧
    (∀ p ∈ adaptive.providers, Faithful words p) ∧
    executeWithResolver (cpuReferenceProvider words) graph inputs emptyTensorResolver =
      .ok [sum] ∧
    (executeWithResolver adaptive.execute graph inputs emptyTensorResolver = .ok [sum] ↔
      executeWithResolver (cpuReferenceProvider words) graph inputs emptyTensorResolver =
        .ok [sum]) ∧
    ∀ other : AdaptiveExecutionProvider, other.providers.Perm adaptive.providers →
      (executeWithResolver other.execute graph inputs emptyTensorResolver = .ok [sum] ↔
        executeWithResolver adaptive.execute graph inputs emptyTensorResolver = .ok [sum]) := by
  have hmem : cpuReferenceMobileProvider words ∈ adaptive.providers := by simp [adaptive]
  exact ⟨hmem, faithful_providers, by decide +kernel, adaptive_eq_reference words adaptive hmem faithful_providers
    graph inputs emptyTensorResolver [sum]⟩

end NTD97
