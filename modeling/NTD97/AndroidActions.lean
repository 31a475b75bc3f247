import Mathlib
import NTD97.AndroidFiles
import NTD97.AssistantActions
import NTD97.Lib.Secrecy

/-!
# AndroidActions — from a plan to a fabric of production adapters

    plan ──▸ approval needed?  ──▸ registry, authority, adapters ──▸ prepare ──▸ continue, poll by poll

Each capability a plan uses is registered with the descriptor the bridge gives it.  Only a plan
with external writes needs an approval, and only an approved one is granted their scopes.
-/

namespace NTD97

open Guard Effect Secrecy Text Wire

/-! ## What a plan asks for -/

def validPcPeerAlias (peer : String) : Bool :=
  peer ≠ "" ∧ peer.utf8ByteSize ≤ 64 ∧ peer.toList.all fun c => c.isAlphanum || c == '_' || c == '-'

/-- A segment of a package name. -/
def packageSegment (segment : List Char) : Bool :=
  segment ≠ [] ∧ segment.all fun c => c.isAlphanum || c == '_'

def validAndroidPackage (value : String) : Bool :=
  match value.toList.splitOn '.' with
  | [] => false
  | first :: rest => value.utf8ByteSize ≤ 255 ∧ packageSegment first ∧
    first.head?.any Char.isAlpha ∧ rest ≠ [] ∧ rest.all packageSegment

structure AccessibilityActionSpec where
  selectorKind : String
  selectorValue : String
  textBytes : Option ℕ

def parseAccessibilityAction (operation : String) (payload : Bytes) :
    Except String AccessibilityActionSpec := do
  let payload ← okOr (ofUtf8 payload) "accessibility payload is not UTF-8"
  refuse (payload = "" ∨ maxPlatformTextBytes < payload.utf8ByteSize ∨
    payload.toList.any fun c => c == '\r' || c == '\n' || c == '|') "accessibility payload is invalid"
  match operation, (payload.toList.splitOn '\t').map String.ofList with
  | "accessibility.click", ["view_id", value] => do
    refuse (value = "" ∨ 4096 < value.utf8ByteSize) "unsupported or malformed accessibility action"
    return { selectorKind := "view_id", selectorValue := value, textBytes := none }
  | "accessibility.set_text", ["view_id", value, text] => do
    refuse (value = "" ∨ 4096 < value.utf8ByteSize ∨ text = "")
      "unsupported or malformed accessibility action"
    return { selectorKind := "view_id", selectorValue := value, textBytes := some text.utf8ByteSize }
  | _, _ => throw "unsupported or malformed accessibility action"

/-- The capability and the rationale of one external write, for the user to approve. -/
def externalWriteRationale (capability : String) (action : TypedAction) :
    Except String String :=
  let unsupported := "unsupported external-write action requested"
  match capability, action with
  | "artifact.upload", .artifactUpload url path => do
    refuse (isBlank url ∨ isBlank path) unsupported
    return "upload app-private artifact " ++ path ++ " to " ++ url ++ " using idempotent HTTPS PUT"
  | "file.grant.write", .fileWrite path bytes => do
    refuse (isBlank path ∨ bytes = []) unsupported
    return "write " ++ toString bytes.length ++ " bytes to user-granted Android storage"
  | "browser.interact", .browserInteract target operation value => do
    refuse (¬ ((operation ∈ ["click", "submit", "navigate"] ∧ value = none) ∨
      (operation = "set_value" ∧ value.any (· ≠ "")))) unsupported
    let subject := if operation = "navigate" then "public HTTPS destination"
      else "unique DOM selector"
    return "interact with the controlled browser using " ++ operation ++ " on " ++ subject ++ " " ++
      target
  | "device.interact", .deviceInteract surface operation argument => do
    refuse (¬ (surface = "clipboard" ∧ operation = "set_text" ∧ argument.any (· ≠ ""))) unsupported
    return "write text to the Android clipboard"
  | "app.action", .appAction app action payload => do
    if action = "launch" ∧ payload = [] ∧ validAndroidPackage app then
      return "launch Android app package " ++ app
    refuse (¬ (validAndroidPackage app ∧
      action ∈ ["accessibility.click", "accessibility.set_text"])) unsupported
    let spec ← parseAccessibilityAction action payload
    return "perform " ++ action ++ " in foreground Android package " ++ app ++ " on " ++
      spec.selectorKind ++ " selector " ++ spec.selectorValue
  | "pc.execute", .pcExecute peer program args workingDir => do
    refuse (¬ (validPcPeerAlias peer ∧ ¬ isBlank program)) unsupported
    return "execute paired-PC program " ++ program ++ " on " ++ peer ++ " with " ++
      toString args.length ++ " typed arguments" ++
      (workingDir.map fun dir => " in " ++ dir).getD ""
  | "pc.artifact.write", .pcArtifactWrite peer path bytes => do
    refuse (¬ (validPcPeerAlias peer ∧ ¬ isBlank path ∧ bytes ≠ [])) unsupported
    return "write " ++ toString bytes.length ++ " bytes to paired-PC artifact " ++ path ++ " on " ++
      peer
  | _, _ => throw unsupported

/-- What the user must approve before a plan is executed: its external writes, if it has any. -/
def externalWriteApproval (actionPlan : ParsedActionPlan) :
    Except String (Option (String × String)) := do
  let writes := actionPlan.graph.actions.filter (·.sideEffect = .externalWrite)
  let approvals ← writes.mapM fun node => do
    let action ← okOr actionPlan.payloads[node.id]? "external-write action payload is missing"
    let rationale ← externalWriteRationale node.capability.val action
    return (node.capability.val, rationale)
  if approvals = [] then return none
  else return some (",".intercalate (SortedMap.sortDedup (approvals.map Prod.fst)),
    "; ".intercalate (approvals.map Prod.snd))

/-- The scopes of the app actions of a plan, each once. -/
def appActionScopeNames (actionPlan : ParsedActionPlan) : Except String (List String) := do
  let scopes ← (actionPlan.graph.actions.filter (·.capability.val = "app.action")).mapM fun node => do
    let action ← okOr actionPlan.payloads[node.id]? "app.action payload is missing"
    match action with
    | .appAction app action payload => do
      refuse (!validAndroidPackage app) "app.action package is invalid"
      if action = "launch" ∧ payload = [] then return "app.launch"
      refuse (action ∉ ["accessibility.click", "accessibility.set_text"])
        "unsupported Android app action"
      let _ ← parseAccessibilityAction action payload
      return "app.accessibility.interact"
    | _ => throw "app.action capability/action mismatch"
  return SortedMap.sortDedup scopes

/-! ## Registry and authority -/

/-- What the bridge declares of a capability: its domain, its side effect, whether it can be rolled
back and resumed, and its scopes — those of an app action are the plan's. -/
def androidCapability : String →
    Option (CapabilityDomain × SideEffectClass × Bool × Bool × List String)
  | "device.observe" => some (.device, .readOnly, false, false, [])
  | "web.search" => some (.web, .readOnly, false, false, ["network.read"])
  | "web.fetch" => some (.web, .readOnly, false, false, ["network.read"])
  | "browser.observe" =>
    some (.browser, .readOnly, false, false, ["network.read", "browser.observe"])
  | "browser.interact" =>
    some (.browser, .externalWrite, false, false, ["network.read", "browser.interact"])
  | "file.read" => some (.file, .readOnly, false, false, ["file.app_private"])
  | "file.grant.read" => some (.file, .readOnly, false, false, ["file.user_grant.read"])
  | "file.grant.write" => some (.file, .externalWrite, false, false, ["file.user_grant.write"])
  | "file.write" => some (.file, .reversible, true, false, ["file.app_private"])
  | "artifact.download" =>
    some (.web, .reversible, true, true, ["network.read", "file.app_private"])
  | "artifact.upload" =>
    some (.web, .externalWrite, false, true, ["network.write", "file.app_private"])
  | "device.interact" => some (.device, .externalWrite, false, false, ["device.clipboard.write"])
  | "app.action" => some (.app, .externalWrite, false, false, [])
  | "pc.observe" => some (.pc, .readOnly, false, false, ["pc.observe"])
  | "pc.execute" => some (.pc, .externalWrite, false, false, ["pc.execute"])
  | "pc.artifact.read" => some (.pc, .readOnly, false, false, ["pc.artifact.read"])
  | "pc.artifact.write" => some (.pc, .externalWrite, false, false, ["pc.artifact.write"])
  | _ => none

section Bridge

-- how an error of a capability is printed
variable (debug : CapabilityError → String)

/-- An authority scope of the bridge; `what` names it in the error. -/
def androidScope (what value : String) : Except String AuthorityScope :=
  (AuthorityScope.new value).mapError fun e => what ++ ": " ++ debug e

def androidDescriptor (actionPlan : ParsedActionPlan) (capability : String) :
    Except String CapabilityDescriptor := do
  let (domain, sideEffect, rollbackSupported, resumable, scopes) ← okOr (androidCapability capability)
    "model requested a capability without a production Android adapter"
  let scopes ← if capability = "app.action" then appActionScopeNames actionPlan else pure scopes
  let requiredScopes ← scopes.mapM (androidScope debug "scope")
  let descriptor ← (CapabilityDescriptor.new ⟨capability⟩ 1 domain sideEffect).mapError fun e =>
    "build Android capability descriptor: " ++ debug e
  let descriptor := { descriptor with rollbackSupported, resumable, requiredScopes }
  descriptor.normalize.mapError fun e => "normalize Android capability descriptor: " ++ debug e

/-- The capabilities of a plan, each once, in the order of their first use. -/
def planCapabilities (actionPlan : ParsedActionPlan) : List String :=
  (actionPlan.graph.actions.map (·.capability.val)).reverse.dedup.reverse

def androidRegistry (actionPlan : ParsedActionPlan) : Except String CapabilityRegistry := do
  let capabilities := planCapabilities actionPlan
  refuse (capabilities.any fun capability => (androidCapability capability).isNone)
    "model requested a capability without a production Android adapter"
  capabilities.foldlM (fun (registry : CapabilityRegistry) capability => do
    let descriptor ← androidDescriptor debug actionPlan capability
    (registry.register descriptor).mapError fun e => "register Android capability: " ++ debug e)
    .new

/-- What a plan is granted.  The scopes of external writes come with the approval alone. -/
def androidAuthority (actionPlan : ParsedActionPlan) (externalApproved : Bool) :
    Except String AuthorityGrant := do
  let uses (capability : String) := capability ∈ planCapabilities actionPlan
  let reads := ["network.read", "file.app_private"] ++
    (if uses "browser.observe" then ["browser.observe"] else []) ++
    (if uses "file.grant.read" then ["file.user_grant.read"] else []) ++
    (if uses "pc.observe" then ["pc.observe"] else []) ++
    (if uses "pc.artifact.read" then ["pc.artifact.read"] else [])
  let writes := actionPlan.graph.actions.any (·.sideEffect = .externalWrite)
  refuse (writes ∧ !externalApproved) "external-write action requires explicit chat approval"
  let writeScopes ← if writes then do
      let apps ← if uses "app.action" then appActionScopeNames actionPlan else pure []
      pure ((if uses "artifact.upload" then ["network.write"] else []) ++
        (if uses "file.grant.write" then ["file.user_grant.write"] else []) ++
        (if uses "browser.interact" then ["browser.interact"] else []) ++
        (if uses "device.interact" then ["device.clipboard.write"] else []) ++ apps ++
        (if uses "pc.execute" then ["pc.execute"] else []) ++
        (if uses "pc.artifact.write" then ["pc.artifact.write"] else []))
    else pure []
  let scopes ← (reads ++ writeScopes).mapM (androidScope debug "authority scope")
  return { scopes.foldl AuthorityGrant.withScope AuthorityGrant.new with allowExternalWrite := writes }

/-! ## Adapters and verifier -/

variable {N : Type}

/-- The adapter of a capability: that of the app-private files, that of downloads, or one of the
`others`, which may do anything to the world. -/
def androidAdapter (host : Host N) (others : String → CapabilityAdapter (AppWorld N))
    (capability : String) : CapabilityAdapter (AppWorld N) :=
  if capability ∈ ["file.read", "file.write"] then androidScopedFileAdapter host
  else if capability = "artifact.download" then androidArtifactDownloadAdapter host
  else others capability

/-- The evidence the bridge trusts: that of the file and download adapters is spelled out, that of
the `others` is another function of what was asked and answered. -/
def trustedEvidence (others : CapabilityDescriptor → TypedAction → ActionOutput → Bool)
    (descriptor : CapabilityDescriptor) (action : TypedAction) (output : ActionOutput) : Bool :=
  match descriptor.id.val, action with
  | "file.read", .fileRead _ =>
    "android-app-private-file" ∈ output.evidence ∧ "operation:read" ∈ output.evidence
  | "file.write", .fileWrite _ _ =>
    "android-app-private-file" ∈ output.evidence ∧ "operation:write" ∈ output.evidence
  | "artifact.download", .artifactDownload _ _ =>
    "android-artifact-download" ∈ output.evidence ∧ "operation:download" ∈ output.evidence ∧
      output.evidence.any fun item => item.toList.take 7 = "sha256:".toList
  | _, _ => others descriptor action output

def androidProductionVerifier
    (others : CapabilityDescriptor → TypedAction → ActionOutput → Bool) :
    ActionVerifier (AppWorld N) where
  verify descriptor action output world :=
    (if !trustedEvidence others descriptor action output ∨ isBlank output.summary then
      .reject "Android production capability output lacks trusted evidence"
    else .accept, world)

/-! ## Execution -/

/-- Everything outside the plan that its execution depends on. -/
structure AndroidEnv (N : Type) where
  host : Host N
  adapters : String → CapabilityAdapter (AppWorld N)
  trusted : CapabilityDescriptor → TypedAction → ActionOutput → Bool

def androidFabric (env : AndroidEnv N) (actionPlan : ParsedActionPlan) :
    Except String (ActionFabric (AppWorld N)) := do
  let registry ← androidRegistry debug actionPlan
  return {
    registry
    adapters := (planCapabilities actionPlan).foldl (fun adapters capability =>
      adapters.insert capability (androidAdapter env.host env.adapters capability)) ∅
    state := {} }

/-- A step that did not end the plan, and is tried again by the next poll. -/
def checkpointed : AssistantActionRunError → Bool
  | .incomplete planStatus actionStatus _ =>
    planStatus = .suspended ∨ actionStatus = some .retryable ∨ actionStatus = some .suspended
  | _ => false

/-- Continue a prepared plan, poll by poll, until it ends.  `none` says that it has not. -/
def pollPlan {W : Type} (planId : ActionPlanId) (task : CognitiveTask) (actionPlan : ParsedActionPlan)
    (authority : AuthorityGrant) (verifier : ActionVerifier W) (userMessage : String) :
    ℕ → Eff (Session W) String (Option (Except AssistantActionRunError VerifiedAssistantActionRun))
  | 0 => return none
  | polls + 1 => do
    let run ← attempt (continueVerifiedAssistantPlan planId task actionPlan authority verifier
      userMessage)
    match run with
    | .error e =>
      if checkpointed e then
        pollPlan planId task actionPlan authority verifier userMessage polls
      else return some (.error e)
    | .ok run => return some (.ok run)

/-- **Execute a plan that needs no approval**, as a chat turn and the polls after it do.  The task
has been given the plan's graph. -/
def executePlan (debugFabric : ActionFabricError → String) (env : AndroidEnv N)
    (task : CognitiveTask) (actionPlan : ParsedActionPlan) (userMessage : String) (polls : ℕ) :
    Eff (Session (AppWorld N)) String
      (Option (Except AssistantActionRunError VerifiedAssistantActionRun)) := do
  let task := { task with graph := actionPlan.graph }
  let authority ← check id (androidAuthority debug actionPlan false)
  let planId ← zoom (fun s => s) (fun _ t => t)
    (fun e => "prepare Android ActionFabric plan: " ++ debugFabric e)
    (preparePlan task.id task.graph actionPlan.payloads)
  pollPlan planId task actionPlan authority (androidProductionVerifier env.trusted) userMessage polls

end Bridge

end NTD97
