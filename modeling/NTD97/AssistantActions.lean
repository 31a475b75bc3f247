import Mathlib
import NTD97.Conversation

/-!
# AssistantActions — plans written by a model, and the answers they lead to

    NTD97_ACTIONS_V1 ▸ id│capability│payload … ▸ END

A model plans in lines of text.  `parseNativeActionPlan` reads them into a graph of actions with
their payloads; `continueVerifiedAssistantPlan` executes a prepared plan as far as it goes, and a
completed one becomes the evidence for a prompt.
-/

namespace NTD97

open Guard Effect Text Wire

def nativeActionProtocolV1 : String := "NTD97_ACTIONS_V1"
def nativeActionDirect : String := "DIRECT"
def maxActions : ℕ := 8

/-- A plan with the payloads of its actions. -/
structure ParsedActionPlan extends AssistantActionPlan where
  payloads : BTreeMap UInt32 TypedAction

inductive AssistantPlanDecision where
  | direct
  | actions (plan : ParsedActionPlan)

inductive AssistantPlanError where
  | empty
  | invalidHeader
  | missingEnd
  | trailingContent
  | invalidLine
  | invalidNodeId
  | nonCanonicalNodeOrder
  | unsupportedCapability (capability : String)
  | invalidPayload
  | tooManyActions
  | emptyActionPlan
  deriving DecidableEq

/-! ## Reading a plan -/

/-- A field is empty, or has white space at an end. -/
def unfit (field : String) : Prop := isBlank field ∨ field ≠ trim field

instance (field : String) : Decidable (unfit field) := inferInstanceAs (Decidable (_ ∨ _))

/-- Two fields with a tab between them. -/
def fieldPair (payload : String) : Except AssistantPlanError (String × String) := do
  let (left, right) ← okOr (splitOnce '\t' payload) .invalidPayload
  refuse (unfit left ∨ unfit right) .invalidPayload
  return (left, right)

/-- The index-th of the parts of a payload. -/
def part (parts : List String) (index : ℕ) : Except AssistantPlanError String :=
  okOr parts[index]? .invalidPayload

/-- The typed action of a payload, by the capability it is for. -/
def parsePayload (capability payload : String) : Except AssistantPlanError TypedAction :=
  match capability with
  | "web.search" => return .webSearch payload 5
  | "web.fetch" => return .webFetch payload
  | "artifact.download" => do
    let (url, path) ← fieldPair payload
    return .artifactDownload url path
  | "artifact.upload" => do
    let (url, path) ← fieldPair payload
    return .artifactUpload url path
  | "browser.observe" => return .browserObserve payload
  | "browser.interact" => do
    let parts := splitN 3 '\t' payload
    let target ← part parts 0
    let operation ← part parts 1
    let value := parts[2]?
    refuse (unfit target ∨ unfit operation ∨ value = some "") .invalidPayload
    return .browserInteract target operation value
  | "file.read" => return .fileRead payload
  | "file.grant.read" => do
    let (aliasName, path) ← fieldPair payload
    refuse ('\t' ∈ path.toList) .invalidPayload
    return .fileRead (aliasName ++ "\t" ++ path)
  | "file.write" => do
    let (path, text) ← okOr (splitOnce '\t' payload) .invalidPayload
    refuse (unfit path ∨ text = "" ∨ '\r' ∈ text.toList ∨ '\n' ∈ text.toList) .invalidPayload
    return .fileWrite path (utf8 text)
  | "file.grant.write" => do
    let parts := splitN 3 '\t' payload
    let aliasName ← part parts 0
    let path ← part parts 1
    let text ← part parts 2
    refuse (unfit aliasName ∨ unfit path ∨ text = "" ∨ '\r' ∈ text.toList ∨ '\n' ∈ text.toList ∨
      '\t' ∈ text.toList) .invalidPayload
    return .fileWrite (aliasName ++ "\t" ++ path) (utf8 text)
  | "device.observe" => return .deviceObserve payload
  | "device.interact" => do
    let parts := splitN 3 '\t' payload
    let surface ← part parts 0
    let operation ← part parts 1
    let argument := parts[2]?
    refuse (unfit surface ∨ unfit operation ∨ argument = some "") .invalidPayload
    return .deviceInteract surface operation argument
  | "app.action" => do
    let parts := splitN 3 '\t' payload
    let app ← part parts 0
    let action ← part parts 1
    refuse (unfit app ∨ unfit action) .invalidPayload
    return .appAction app action (utf8 (parts[2]?.getD ""))
  | "pc.observe" => do
    let (peer, surface) ← fieldPair payload
    return .pcObserve peer surface
  | "pc.execute" => do
    let parts := splitN 4 '\t' payload
    let peer ← part parts 0
    let program ← part parts 1
    let workingDir := parts[2]?.getD ""
    let args := parts[3]?.getD ""
    refuse (unfit peer ∨ unfit program ∨ workingDir ≠ trim workingDir ∨ '\t' ∈ args.toList)
      .invalidPayload
    let args := if args = "" then [] else (args.toList.splitOn '\x1f').map String.ofList
    refuse ("" ∈ args) .invalidPayload
    return .pcExecute peer program args (if workingDir = "" then none else some workingDir)
  | "pc.artifact.read" => do
    let (peer, path) ← fieldPair payload
    return .pcArtifactRead peer path
  | "pc.artifact.write" => do
    let parts := splitN 3 '\t' payload
    let peer ← part parts 0
    let path ← part parts 1
    let text ← part parts 2
    refuse (unfit peer ∨ unfit path ∨ text = "" ∨ '\t' ∈ text.toList) .invalidPayload
    return .pcArtifactWrite peer path (utf8 text)
  | other => throw (.unsupportedCapability other)

attribute [simp] parsePayload

/-- The side effect a plan gives the actions of a capability. -/
def plannedSideEffect (capability : String) : SideEffectClass :=
  if capability ∈ ["file.write", "artifact.download"] then .reversible
  else if capability ∈ ["artifact.upload", "file.grant.write", "browser.interact",
    "device.interact", "app.action", "pc.execute", "pc.artifact.write"] then .externalWrite
  else .readOnly

def parseActionLine (line : String) (expectedId : UInt32) :
    Except AssistantPlanError (ActionNode × TypedAction × String) := do
  let fields := splitN 3 '|' line
  let id ← okOr fields[0]? .invalidLine
  let id ← okOr (parseNat id) .invalidNodeId
  refuse (2 ^ 32 ≤ id) .invalidNodeId
  let capability ← okOr fields[1]? .invalidLine
  let payload ← okOr fields[2]? .invalidLine
  refuse (id = 0 ∨ id ≠ expectedId.toNat) .nonCanonicalNodeOrder
  refuse (unfit payload ∨ '|' ∈ payload.toList ∨ '\r' ∈ payload.toList ∨ '\n' ∈ payload.toList)
    .invalidPayload
  let typed ← parsePayload capability payload
  typed.validate.mapError fun _ => .invalidPayload
  let node := {
    id := UInt32.ofNat id, capability := ⟨capability⟩
    sideEffect := plannedSideEffect capability, verificationRequired := true }
  return (node, typed, line)

/-- The loop over the lines of a plan, up to `END`.  Answers the plan, and the lines after it. -/
def parseActionLines : List String → UInt32 → ParsedActionPlan →
    Except AssistantPlanError (ParsedActionPlan × List String)
  | [], _, _ => throw .missingEnd
  | line :: lines, expectedId, plan =>
    if line = "END" then return (plan, lines)
    else do
      refuse (maxActions ≤ plan.graph.actions.length) .tooManyActions
      let (node, payload, canonicalLine) ← parseActionLine line expectedId
      refuse (2 ^ 32 ≤ expectedId.toNat + 1) .invalidNodeId
      parseActionLines lines (expectedId + 1) { plan with
        graph.actions := plan.graph.actions ++ [node]
        canonicalText := plan.canonicalText ++ canonicalLine ++ "\n"
        payloads := plan.payloads.insert node.id payload }

def parseNativeActionPlan (text : String) : Except AssistantPlanError AssistantPlanDecision := do
  let normalized := trim text
  refuse (normalized = "") .empty
  if normalized = nativeActionDirect then return .direct
  let lines := Text.lines normalized
  refuse (lines.head? ≠ some nativeActionProtocolV1) .invalidHeader
  let (plan, rest) ← parseActionLines lines.tail 1 {
    graph := {}, canonicalText := nativeActionProtocolV1 ++ "\n", payloads := ∅ }
  refuse (rest.any fun line => !isBlank line) .trailingContent
  refuse (plan.graph.actions = []) .emptyActionPlan
  return .actions { plan with canonicalText := plan.canonicalText ++ "END" }

/-! ## Evidence -/

structure VerifiedActionEvidence where
  nodeId : UInt32
  capability : CapabilityId
  summary : String
  value : String
  evidence : List String
  deriving DecidableEq

inductive VerifiedActionEvidenceError where
  | planNotCompleted
  | emptyPlan
  | actionNotCommitted (node : UInt32)
  | missingOutput (node : UInt32)
  | invalidOutput (node : UInt32)
  deriving DecidableEq

def renderActionValue : ActionValue → String
  | .none => "none"
  | .text text => text
  | .bytes bytes => toString bytes.length ++ " bytes"
  | .textList items => "\n".intercalate items
  | .fields fields => "\n".intercalate (fields.toList.map fun (key, value) => key ++ "=" ++ value)

def nonemptyOutput (nodeId : UInt32) (output : ActionOutput) :
    Except VerifiedActionEvidenceError String := do
  refuse (isBlank output.summary) (.invalidOutput nodeId)
  return output.summary

def collectVerifiedActionEvidence (plan : ActionPlanState) :
    Except VerifiedActionEvidenceError (List VerifiedActionEvidence) := do
  refuse (plan.status ≠ .completed) .planNotCompleted
  refuse (plan.actions = []) .emptyPlan
  plan.actions.mapM fun action => do
    refuse (action.status ≠ .committed) (.actionNotCommitted action.nodeId)
    let output ← okOr action.output (.missingOutput action.nodeId)
    let summary ← nonemptyOutput action.nodeId output
    return {
      nodeId := action.nodeId, capability := action.capability, summary
      value := renderActionValue output.value, evidence := output.evidence }

/-- A text with its line feeds turned into blanks. -/
def oneLine (value : String) : String := value.map fun c => if c = '\n' then ' ' else c

def buildCompactVerifiedAnswerPrompt (userMessage : String)
    (evidence : List VerifiedActionEvidence) : Except VerifiedActionEvidenceError String := do
  refuse (evidence = []) .emptyPlan
  let lines := evidence.map fun item =>
    toString item.nodeId ++ " " ++ item.capability.val ++ " " ++
      (if !isBlank item.value ∧ item.value ≠ "none" then oneLine item.value
       else trim item.summary) ++ "\n"
  return "Verified:\n" ++ String.join lines ++ "User: " ++ userMessage ++ "\nAssistant:"

/-! ## Executing a plan -/

structure VerifiedAssistantActionRun where
  planId : ActionPlanId
  reports : List ActionStepReport
  evidence : List VerifiedActionEvidence
  synthesisPrompt : String
  deriving DecidableEq

inductive AssistantActionRunError where
  | taskGraphMismatch
  | fabric (error : ActionFabricError)
  | incomplete (planStatus : ActionPlanStatus) (actionStatus : Option ActionStatus)
      (summary : String)
  | evidence (error : VerifiedActionEvidenceError)
  | missingPlan
  | stepLimit
  deriving DecidableEq

variable {W : Type}

/-- A run of a plan may leave through an error of its own, keeping what it did before. -/
abbrev AssistantRunM (W : Type) := Eff (Session W) AssistantActionRunError

/-- A method of the fabric, called by a run. -/
def inFabric {α : Type} (x : FabricM W α) : AssistantRunM W α :=
  zoom (fun s => s) (fun _ t => t) .fabric x

/-- The stored action is the planned one. -/
def matchesPlanned (plan : ParsedActionPlan) (stored : PlannedAction) (planned : ActionNode) :
    Prop :=
  stored.nodeId = planned.id ∧ stored.capability = planned.capability ∧
    stored.sideEffect = planned.sideEffect ∧
    stored.verificationRequired = planned.verificationRequired ∧
    plan.payloads[planned.id]? = some stored.action

instance (plan : ParsedActionPlan) (stored : PlannedAction) (planned : ActionNode) :
    Decidable (matchesPlanned plan stored planned) := inferInstanceAs (Decidable (_ ∧ _))

/-- The loop of `continueVerifiedAssistantPlan`: at most so many steps, up to the end of the plan
or the first action that did not commit. -/
def executeActions (planId : ActionPlanId) (authority : AuthorityGrant) (verifier : ActionVerifier W) :
    ℕ → List ActionStepReport → AssistantRunM W (List ActionStepReport)
  | 0, reports => return reports
  | steps + 1, reports => do
    let report ← inFabric (executeNext planId authority verifier)
    let reports := reports ++ [report]
    match report.planStatus with
    | .completed => return reports
    | .failed | .rolledBack | .suspended =>
      throw (.incomplete report.planStatus report.actionStatus report.summary)
    | .ready => do
      refuse (report.actionStatus = some .retryable ∨ report.actionStatus = some .suspended)
        (.incomplete report.planStatus report.actionStatus report.summary)
      executeActions planId authority verifier steps reports

def continueVerifiedAssistantPlan (planId : ActionPlanId) (task : CognitiveTask)
    (actionPlan : ParsedActionPlan) (authority : AuthorityGrant) (verifier : ActionVerifier W)
    (userMessage : String) : AssistantRunM W VerifiedAssistantActionRun := do
  refuse (task.graph.actions = [] ∨ task.graph ≠ actionPlan.graph) .taskGraphMismatch
  let stored := (← get).plans[planId.val]?
  let initial ← okOr stored .missingPlan
  refuse (initial.taskId ≠ task.id ∨
    initial.actions.length ≠ actionPlan.graph.actions.length ∨
    ¬ ∀ pair ∈ initial.actions.zip actionPlan.graph.actions,
      matchesPlanned actionPlan pair.1 pair.2) .taskGraphMismatch
  let reports ← (if initial.status = .completed then pure []
    else executeActions planId authority verifier actionPlan.graph.actions.length [])
  let stored := (← get).plans[planId.val]?
  let plan ← okOr stored .missingPlan
  refuse (plan.status ≠ .completed) .stepLimit
  let evidence ← check .evidence (collectVerifiedActionEvidence plan)
  let synthesisPrompt ← check .evidence (buildCompactVerifiedAnswerPrompt userMessage evidence)
  return { planId, reports, evidence, synthesisPrompt }

end NTD97
