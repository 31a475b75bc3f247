import Mathlib
import NTD97.Tensor

/-!
# Mobile — the providers of a device, and the choice among them

    registered ──allowed──▸ candidates ──compare──▸ order ──first that answers──▸ outputs

A provider says what it supports and what it needs; the device, its state and a policy say which
providers may run, and the measurements in which order they are tried.  `u64` saturates.
-/

namespace NTD97

open Guard

/-- What executes: the reference, the tiled kernels, or an accelerator. -/
inductive ProviderKind where
  | cpuReference
  | cpuTiled
  | vulkan
  | npu
  deriving DecidableEq

/-- How hot the device is. -/
inductive ThermalState where
  | nominal
  | warm
  | hot
  | critical
  deriving DecidableEq

/-- The place in the declaration, by which the states are ordered. -/
def ThermalState.index : ThermalState → ℕ
  | .nominal => 0
  | .warm => 1
  | .hot => 2
  | .critical => 3

/-- How much power a provider draws. -/
inductive PowerClass where
  | low
  | medium
  | high
  deriving DecidableEq

/-- The place in the declaration, by which the classes are ordered. -/
def PowerClass.index : PowerClass → ℕ
  | .low => 0
  | .medium => 1
  | .high => 2

/-- What the device has. -/
structure DeviceCapabilities where
  totalRamBytes : ℕ
  supportsVulkan : Bool
  supportsNpu : Bool

/-- The state of the device at one time. -/
structure ResourceSnapshot where
  availableRamBytes : ℕ
  batteryPercent : ℕ
  charging : Bool
  thermal : ThermalState
  latencyBudgetMs : ℕ

/-- No more memory than there is, and at most 100 percent. -/
def ResourceSnapshot.normalized (self : ResourceSnapshot) (device : DeviceCapabilities) :
    ResourceSnapshot :=
  { self with
    availableRamBytes := min self.availableRamBytes device.totalRamBytes
    batteryPercent := min self.batteryPercent 100 }

/-- What the user allows. -/
structure ComputePolicy where
  reserveRamBytes : ℕ
  minBatteryForAccelerator : ℕ
  allowVulkan : Bool
  allowNpu : Bool
  preferLowPower : Bool

/-! ## Profiles and measurements

A measurement says how long an operation took, and whether it gave what the reference gives. -/

/-- What a provider says of itself. -/
structure ProviderProfile where
  kind : ProviderKind
  name : String
  minimumWorkingSetBytes : ℕ
  power : PowerClass
  priority : ℕ
  supportedOps : List TensorOp
  deriving DecidableEq

namespace ProviderProfile

/-- Whether an operation is on the provider's list. -/
def supports (self : ProviderProfile) (op : TensorOp) : Bool := self.supportedOps.contains op

/-- A profile that lists all operations. -/
def allTensorOps (kind : ProviderKind) (name : String) : ProviderProfile where
  kind := kind
  name := name
  minimumWorkingSetBytes := 0
  power := .medium
  priority := 100
  supportedOps := [.add, .mul, .matMul, .quantizedMatMul, .rmsNorm, .softmax, .gather,
    .rotaryPosition, .causalAttention, .silu, .reshape, .transpose, .positionIds]

/-- Its list leaves no operation out. -/
@[simp] theorem supports_allTensorOps (kind : ProviderKind) (name : String) (op : TensorOp) :
    (allTensorOps kind name).supports op = true := by
  cases op <;> rfl

end ProviderProfile

/-- How an operation did on a provider of one kind. -/
structure ProviderMeasurement where
  kind : ProviderKind
  op : TensorOp
  latencyNanos : ℕ
  verifiedEquivalent : Bool

/-- The measurements, at most one for a kind and an operation if they came by `record`. -/
structure AutotuneTable where
  measurements : List ProviderMeasurement

namespace AutotuneTable

/-- A table without measurements. -/
def empty : AutotuneTable := ⟨[]⟩

/-- Whether a measurement is of this kind and operation. -/
def isFor (kind : ProviderKind) (op : TensorOp) (entry : ProviderMeasurement) : Bool :=
  entry.kind = kind ∧ entry.op = op

/-- The entry of that kind and operation is replaced, the first if there are several. -/
def replace (measurement : ProviderMeasurement) :
    List ProviderMeasurement → Option (List ProviderMeasurement)
  | [] => none
  | entry :: entries =>
    if isFor measurement.kind measurement.op entry then some (measurement :: entries)
    else (replace measurement entries).map (entry :: ·)

/-- A measurement takes the place of the one before it, or comes last. -/
def record (self : AutotuneTable) (measurement : ProviderMeasurement) : AutotuneTable :=
  ⟨(replace measurement self.measurements).getD (self.measurements ++ [measurement])⟩

/-- Only measurements that agreed with the reference count. -/
def latencyNanos (self : AutotuneTable) (kind : ProviderKind) (op : TensorOp) : Option ℕ :=
  (self.measurements.find? fun entry => isFor kind op entry && entry.verifiedEquivalent).map
    (·.latencyNanos)

/-- Whether a measurement agreed with the reference. -/
def isVerified (self : AutotuneTable) (kind : ProviderKind) (op : TensorOp) : Bool :=
  self.measurements.any fun entry => isFor kind op entry && entry.verifiedEquivalent

end AutotuneTable

/-! ## Providers

The reference is always allowed to run; an accelerator needs a verified measurement, the policy and
a device that is not hot. -/

/-- What executes operations, with its profile. -/
structure MobileExecutionProvider where
  profile : ProviderProfile
  execute : ExecutionProvider

/-- The kernels of the reference under a profile. -/
def cpuReferenceMobileProvider (ops : F32Ops) : MobileExecutionProvider where
  profile :=
    { ProviderProfile.allTensorOps .cpuReference "cpu-reference" with
      power := .low
      priority := 400 }
  execute := cpuReferenceProvider ops

/-- What policy, battery and temperature say; it holds of every processor. -/
def acceleratorPermitted (kind : ProviderKind) (device : DeviceCapabilities)
    (snapshot : ResourceSnapshot) (policy : ComputePolicy) : Bool :=
  let supported := match kind with
    | .vulkan => policy.allowVulkan && device.supportsVulkan
    | .npu => policy.allowNpu && device.supportsNpu
    | .cpuReference => true
    | .cpuTiled => true
  let accelerator : Bool := kind = .vulkan ∨ kind = .npu
  if !supported then false
  else if accelerator && !snapshot.charging
      && snapshot.batteryPercent < policy.minBatteryForAccelerator then false
  else if accelerator && ThermalState.hot.index ≤ snapshot.thermal.index then false
  else true

/-- `compare_provider`: measured ones first, the one within the budget before the one that misses
it. -/
def compareProvider (left right : ProviderProfile) (op : TensorOp) (autotune : AutotuneTable)
    (latencyBudgetMs : ℕ) (preferLowPower : Bool) : Ordering :=
  let budgetNanos := min (latencyBudgetMs * 1000000) (2 ^ 64 - 1)
  match autotune.latencyNanos left.kind op, autotune.latencyNanos right.kind op with
  | some leftNs, some rightNs =>
    let leftMissesBudget : Bool := 0 < latencyBudgetMs ∧ budgetNanos < leftNs
    let rightMissesBudget : Bool := 0 < latencyBudgetMs ∧ budgetNanos < rightNs
    ((compare leftMissesBudget rightMissesBudget).then (compare leftNs rightNs)).then
      (compare left.priority right.priority)
  | some _, none => .lt
  | none, some _ => .gt
  | none, none =>
    if preferLowPower then
      (compare left.power.index right.power.index).then (compare left.priority right.priority)
    else compare left.priority right.priority

/-- The providers of a device and what the choice depends on. -/
structure AdaptiveExecutionProvider where
  device : DeviceCapabilities
  snapshot : ResourceSnapshot
  policy : ComputePolicy
  autotune : AutotuneTable
  providers : List MobileExecutionProvider

namespace AdaptiveExecutionProvider

/-- A device without providers. -/
def new (device : DeviceCapabilities) (snapshot : ResourceSnapshot) (policy : ComputePolicy) :
    AdaptiveExecutionProvider where
  device := device
  snapshot := snapshot.normalized device
  policy := policy
  autotune := .empty
  providers := []

variable (self : AdaptiveExecutionProvider)

/-- Providers are kept in the order of their registration, on which ties fall back. -/
def register (provider : MobileExecutionProvider) : AdaptiveExecutionProvider :=
  { self with providers := self.providers ++ [provider] }

/-- A snapshot is normalized when it comes in. -/
def setSnapshot (snapshot : ResourceSnapshot) : AdaptiveExecutionProvider :=
  { self with snapshot := snapshot.normalized self.device }

/-- Other measurements. -/
def setAutotune (table : AutotuneTable) : AdaptiveExecutionProvider :=
  { self with autotune := table }

/-- Whether a provider may be tried for an operation. -/
def profileAllowed (profile : ProviderProfile) (op : TensorOp) : Bool :=
  let workingBudget := self.snapshot.availableRamBytes - self.policy.reserveRamBytes
  if !profile.supports op then false
  else if workingBudget < profile.minimumWorkingSetBytes then false
  else match profile.kind with
    | .cpuReference => true
    | .cpuTiled => true
    | .vulkan => self.autotune.isVerified profile.kind op &&
        acceleratorPermitted profile.kind self.device self.snapshot self.policy
    | .npu => self.autotune.isVerified profile.kind op &&
        acceleratorPermitted profile.kind self.device self.snapshot self.policy

/-- The place of a registered provider. -/
abbrev Index := Fin self.providers.length

/-- Two registered providers, compared by their profiles. -/
def compareIndices (op : TensorOp) (left right : self.Index) : Ordering :=
  compareProvider self.providers[left].profile self.providers[right].profile op self.autotune
    self.snapshot.latencyBudgetMs self.policy.preferLowPower

/-- The allowed providers in the order in which they are tried; the sort is stable. -/
def orderedProviderIndices (op : TensorOp) : List self.Index :=
  ((List.finRange self.providers.length).filter fun index =>
    self.profileAllowed self.providers[index].profile op).mergeSort
      fun left right => self.compareIndices op left right ≠ .gt

/-- The profile that is tried first. -/
def selectedProvider (op : TensorOp) : Option ProviderProfile :=
  (self.orderedProviderIndices op).head?.map fun index => self.providers[index].profile

/-- The first answer, or the error of the last provider tried. -/
def tryInOrder (op : TensorOp) (inputs : List Tensor) :
    Option TensorError → List self.Index → Except TensorError (List Tensor)
  | lastError, [] => throw (lastError.getD .noProvider)
  | _, index :: indices =>
    match self.providers[index].execute op inputs with
    | .ok outputs => return outputs
    | .error error => tryInOrder op inputs (some error) indices

/-- `execute` of the adaptive provider, which is a provider itself. -/
def execute : ExecutionProvider := fun op inputs => do
  let indices := self.orderedProviderIndices op
  refuse (indices = []) .noProvider
  self.tryInOrder op inputs none indices

end AdaptiveExecutionProvider

end NTD97
