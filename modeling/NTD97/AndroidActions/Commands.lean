import Mathlib
import NTD97.AndroidActions
import NTD97.AssistantActions.Canonical
import NTD97.Lib.Cutting

/-!
# AndroidActions/Commands — commands that are written out

    message ──trim──▸ keyword ++ rest ──fields──▸ 1│capability│field ⇥ field ──parse──▸ one action

A command goes through the same text, and the same reader, as the plans a model writes.  Its fields
are parts of the message in which nothing stands that the reader would stop at, so they come out of
the reader as they went in.
-/

namespace NTD97

open Guard Text Wire

/-! ## The fields of a command

What stands behind the words of a command is cut into fields; fields with separators are refused. -/

/-- What ends a field, a part or a line of a plan. -/
def isSeparator (c : Char) : Bool := c == '\r' || c == '\n' || c == '|' || c == '\t'

/-- Whether a field would break the plan it is written into. -/
def hasSeparator (s : String) : Bool := s.toList.any isSeparator

/-- The fields of a payload, unless they are refused. -/
def fieldsUnless (refused : Prop) [Decidable refused] (fields : List String) :
    Option (List String) :=
  if refused then none else some fields

/-- The alias of a granted folder, and the path in it. -/
def grantedCommandPath (value : String) : Option (List String) := do
  let (aliasName, relative) ← splitOnce '/' value
  fieldsUnless (unfit aliasName ∨ unfit relative ∨ hasSeparator aliasName ∨ hasSeparator relative)
    [aliasName, relative]

/-- `Path::is_absolute`, or a component that is not `Component::Normal`. -/
def leavesRoot (path : String) : Bool :=
  let parts := (path.toList.splitOn '/').map String.ofList
  let components := (parts.head?.toList ++ parts.tail.filter (· ≠ ".")).filter (· ≠ "")
  parts.head? == some "" || components.any fun name => name == "." || name == ".."

/-- A command of the bridge: its keyword, the capability it asks for, and the fields of the payload
from what stands behind the keyword. -/
structure ExplicitCommand where
  keyword : String
  capability : String
  /-- Nothing may stand behind the keyword. -/
  whole : Bool := false
  /-- What is said if no character begins behind the keyword. -/
  boundary : Option String
  fields : String → Option (List String)

/-- `search web for …`, and so on for the commands that follow. -/
def searchWeb : ExplicitCommand where
  keyword := "search web for "
  capability := "web.search"
  boundary := some "web search command boundary failed"
  fields query := fieldsUnless (isBlank query ∨ hasSeparator query) [query]

def observeBrowser : ExplicitCommand where
  keyword := "observe browser "
  capability := "browser.observe"
  boundary := some "browser observe command boundary failed"
  fields target := fieldsUnless (isBlank target ∨ hasSeparator target) [target]

def resumeBrowser : ExplicitCommand where
  keyword := "resume browser"
  capability := "browser.observe"
  whole := true
  boundary := none
  fields _ := some ["session"]

def browserNavigate : ExplicitCommand where
  keyword := "browser navigate "
  capability := "browser.interact"
  boundary := some "browser navigation command boundary failed"
  fields target := fieldsUnless (unfit target ∨ hasSeparator target) [target, "navigate"]

def browserSubmit : ExplicitCommand where
  keyword := "browser submit "
  capability := "browser.interact"
  boundary := some "browser submit command boundary failed"
  fields target := fieldsUnless (unfit target ∨ hasSeparator target) [target, "submit"]

def browserSet : ExplicitCommand where
  keyword := "browser set "
  capability := "browser.interact"
  boundary := some "browser set_value command boundary failed"
  fields rest := do
    let (target, value) ← splitOnceAt " to " rest
    fieldsUnless (unfit target ∨ value = "" ∨ hasSeparator target ∨ hasSeparator value)
      [target, "set_value", value]

def browserClick : ExplicitCommand where
  keyword := "browser click "
  capability := "browser.interact"
  boundary := some "browser interaction command boundary failed"
  fields target := fieldsUnless (isBlank target ∨ hasSeparator target) [target, "click"]

def readGrantedFile : ExplicitCommand where
  keyword := "read granted file "
  capability := "file.grant.read"
  boundary := none
  fields := grantedCommandPath

def writeGrantedFile : ExplicitCommand where
  keyword := "write granted file "
  capability := "file.grant.write"
  boundary := some "granted file write command boundary failed"
  fields rest := do
    let (path, text) ← splitOnceAt " to " rest
    let path ← grantedCommandPath path
    fieldsUnless (text = "" ∨ hasSeparator text) (path ++ [text])

def uploadArtifact : ExplicitCommand where
  keyword := "upload artifact "
  capability := "artifact.upload"
  boundary := some "artifact upload command boundary failed"
  fields rest := do
    let (path, url) ← rsplitOnceAt " to " rest
    let path := trim path
    let url := trim url
    fieldsUnless (path = "" ∨ url = "" ∨ ¬ startsWith "https://" (toAsciiLowercase url) ∨
      leavesRoot path ∨ hasSeparator path ∨ hasSeparator url) [url, path]

def observePc : ExplicitCommand where
  keyword := "observe pc "
  capability := "pc.observe"
  boundary := some "paired-PC observe command boundary failed"
  fields rest := do
    let (peer, surface) ← splitOnce ' ' rest
    fieldsUnless (¬ validPcPeerAlias peer ∨ unfit surface ∨ hasSeparator surface) [peer, surface]

def executePc : ExplicitCommand where
  keyword := "execute pc "
  capability := "pc.execute"
  boundary := some "paired-PC execute command boundary failed"
  fields rest := do
    let (peer, program) ← splitOnce ' ' rest
    fieldsUnless (¬ validPcPeerAlias peer ∨ unfit program ∨ hasSeparator program ∨
      '\x1f' ∈ program.toList ∨ ' ' ∈ program.toList) [peer, program]

def readPcFile : ExplicitCommand where
  keyword := "read pc file "
  capability := "pc.artifact.read"
  boundary := some "paired-PC artifact read command boundary failed"
  fields rest := do
    let (peer, path) ← splitOnce ' ' rest
    fieldsUnless (¬ validPcPeerAlias peer ∨ unfit path ∨ hasSeparator path) [peer, path]

def writePcFile : ExplicitCommand where
  keyword := "write pc file "
  capability := "pc.artifact.write"
  boundary := some "paired-PC artifact write command boundary failed"
  fields rest := do
    let (target, text) ← splitOnceAt " to " rest
    let (peer, path) ← splitOnce ' ' target
    fieldsUnless (¬ validPcPeerAlias peer ∨ unfit path ∨ text = "" ∨ hasSeparator path ∨
      hasSeparator text) [peer, path, text]

def setClipboardTo : ExplicitCommand where
  keyword := "set clipboard to "
  capability := "device.interact"
  boundary := some "clipboard command boundary failed"
  fields value := fieldsUnless (isBlank value ∨ hasSeparator value) ["clipboard", "set_text", value]

def accessibilityClick : ExplicitCommand where
  keyword := "accessibility click "
  capability := "app.action"
  boundary := some "accessibility click command boundary failed"
  fields rest := do
    let (package, viewId) ← splitOnce ' ' rest
    fieldsUnless (¬ validAndroidPackage package ∨ unfit viewId ∨ 4096 < viewId.utf8ByteSize ∨
      hasSeparator viewId ∨ ' ' ∈ viewId.toList) [package, "accessibility.click", "view_id", viewId]

def accessibilitySetText : ExplicitCommand where
  keyword := "accessibility set text "
  capability := "app.action"
  boundary := some "accessibility set_text command boundary failed"
  fields rest := do
    let (target, text) ← rsplitOnceAt " to " rest
    let (package, viewId) ← splitOnce ' ' target
    fieldsUnless (¬ validAndroidPackage package ∨ unfit viewId ∨ 4096 < viewId.utf8ByteSize ∨
      text = "" ∨ hasSeparator viewId ∨ hasSeparator text)
      [package, "accessibility.set_text", "view_id", viewId, text]

def openApp : ExplicitCommand where
  keyword := "open app "
  capability := "app.action"
  boundary := some "app command boundary failed"
  fields package := fieldsUnless (¬ validAndroidPackage package) [package, "launch"]

/-- The commands, in the order in which they are tried. -/
def explicitCommands : List ExplicitCommand :=
  [searchWeb, observeBrowser, resumeBrowser, browserNavigate, browserSubmit, browserSet,
    browserClick, readGrantedFile, writeGrantedFile, uploadArtifact, observePc, executePc,
    readPcFile, writePcFile, setClipboardTo, accessibilityClick, accessibilitySetText, openApp]

/-- The message in lower case is one of this command. -/
def ExplicitCommand.begins (command : ExplicitCommand) (lower : String) : Bool :=
  if command.whole then lower == command.keyword else startsWith command.keyword lower

/-- A plan of one action, as a model would have written it. -/
def rendered (capability : String) (fields : List String) : String :=
  nativeActionProtocolV1 ++ "\n1|" ++ capability ++ "|" ++ joinWith '\t' fields ++ "\nEND"

/-- The plan of a command, from what stands behind its keyword. -/
def ExplicitCommand.plan (command : ExplicitCommand) (rest : String) : Option ParsedActionPlan := do
  let fields ← command.fields rest
  match parseNativeActionPlan (rendered command.capability fields) with
  | .ok (.actions plan) => some plan
  | _ => none

/-- `governed_explicit_action_plan`: the plan of the command that a message is, if it is one. -/
def governedExplicitActionPlan (userMessage : String) : Except String (Option ParsedActionPlan) :=
  let trimmed := trim userMessage
  match explicitCommands.find? (·.begins (toAsciiLowercase trimmed)) with
  | none => .ok none
  | some command =>
    match sliceFrom command.keyword.utf8ByteSize trimmed with
    | some rest => .ok (command.plan rest)
    | none => match command.boundary with
      | some error => .error error
      | none => .ok none

/-! ## Free fields

A field that passes a check of its own has no separators. -/

/-- **What an action was told in free text**: all of it but the names of operations.  An alias and
its path are joined by a tab, and the selector of an app action follows its kind. -/
def freeFields : TypedAction → Option (List String)
  | .webSearch query _ => some [query]
  | .webFetch url => some [url]
  | .artifactDownload url path | .artifactUpload url path => some [url, path]
  | .browserObserve target => some [target]
  | .browserInteract target _ value => some (target :: value.toList)
  | .fileRead path => do
    let (aliasName, relative) ← splitOnce '\t' path
    return [aliasName, relative]
  | .fileWrite path bytes => do
    let (aliasName, relative) ← splitOnce '\t' path
    let text ← ofUtf8 bytes
    return [aliasName, relative, text]
  | .deviceObserve surface => some [surface]
  | .deviceInteract _ _ argument => some argument.toList
  | .appAction app _ [] => some [app]
  | .appAction app _ payload => do
    let (kind, selector) ← splitOnce '\t' (← ofUtf8 payload)
    if kind = "view_id" then return app :: tabParts selector else none
  | .pcObserve peer surface => some [peer, surface]
  | .pcExecute peer program args workingDir => some (peer :: program :: (args ++ workingDir.toList))
  | .pcArtifactRead peer path => some [peer, path]
  | .pcArtifactWrite peer path bytes => do
    let text ← ofUtf8 bytes
    return [peer, path, text]
  | .custom _ _ => none

attribute [simp] freeFields

/-- The fields, unless they are refused. -/
theorem fieldsUnless_eq_some {refused : Prop} [Decidable refused] {fields fields' : List String} :
    fieldsUnless refused fields = some fields' ↔ ¬ refused ∧ fields = fields' := by
  rw [fieldsUnless]
  split
  · next h => exact ⟨fun heq => absurd heq (Option.some_ne_none _).symm, fun heq => absurd h heq.1⟩
  · next h => exact ⟨fun heq => ⟨h, Option.some.inj heq⟩, fun heq => congrArg some heq.2⟩

/-- A field without separators lacks each of them. -/
theorem not_mem_of_plain {s : String} {c : Char} (h : hasSeparator s = false)
    (hc : isSeparator c = true) : c ∉ s.toList :=
  fun hmem => absurd hc (List.any_eq_false.1 h c hmem)

/-- A field all of whose characters are of a kind that excludes the separators. -/
theorem plain_of_forall {s : String} {p : Char → Bool}
    (hp : ∀ c, isSeparator c = true → p c = false) (h : ∀ c ∈ s.toList, p c = true) : hasSeparator s = false := by
  rw [hasSeparator, List.any_eq_false]
  intro c hc hseparator
  exact Bool.false_ne_true ((hp c hseparator).symm.trans (h c hc))

/-- None of the four separators has a property that none of the four has. -/
theorem forall_separator {p : Char → Prop} (hcr : p '\r') (hlf : p '\n') (hbar : p '|')
    (htab : p '\t') (c : Char) (h : isSeparator c = true) : p c := by
  simp only [isSeparator, Bool.or_eq_true, beq_iff_eq] at h
  rcases h with ((rfl | rfl) | rfl) | rfl <;> assumption

/-- The alias of a computer is such a field. -/
theorem plain_of_alias {peer : String} (h : validPcPeerAlias peer = true) :
    hasSeparator peer = false := by
  simp only [validPcPeerAlias, decide_eq_true_eq] at h
  refine plain_of_forall (p := fun c => c.isAlphanum || c == '_' || c == '-') ?_
    (List.all_eq_true.1 h.2.2)
  exact forall_separator (by decide) (by decide) (by decide) (by decide)

/-- The name of an app is such a field. -/
theorem plain_of_package {package : String} (h : validAndroidPackage package = true) :
    hasSeparator package = false := by
  have hall : ∀ segment ∈ package.toList.splitOn '.', packageSegment segment = true := by
    rw [validAndroidPackage] at h
    split at h
    · exact absurd h Bool.false_ne_true
    · next first rest heq =>
      simp only [decide_eq_true_eq] at h
      rw [heq]
      exact List.forall_mem_cons.2 ⟨h.2.1, List.all_eq_true.1 h.2.2.2.2⟩
  refine plain_of_forall (p := fun c => c.isAlphanum || c == '_' || c == '.') ?_ fun c hc => ?_
  · exact forall_separator (by decide) (by decide) (by decide) (by decide)
  · rcases mem_or_eq_of_splitOn (c := '.') hc with heq | ⟨segment, hsegment, hmem⟩
    · simp [heq]
    · have hsegment := hall segment hsegment
      simp only [packageSegment, decide_eq_true_eq, List.all_eq_true] at hsegment
      rw [hsegment.2 c hmem, Bool.true_or]

/-! ## What the reader makes of the fields

The payload of a line is the fields joined by tabs; the reader of each capability takes it apart
again. -/

section Reading

variable {capability : String} {first second text : String} {action : TypedAction}

/-- No field holds a tab. -/
def Tabless (fields : List String) : Prop := ∀ field ∈ fields, '\t' ∉ field.toList

/-- Fields without separators have no tabs. -/
theorem Tabless.of_plain {fields : List String} (h : ∀ field ∈ fields, hasSeparator field = false) :
    Tabless fields := fun field hfield => not_mem_of_plain (h field hfield) (by decide)

/-- Two fields are found again. -/
theorem fieldPair_joinWith (h : Tabless [first, second]) {pair : String × String}
    (hpair : fieldPair (joinWith '\t' [first, second]) = .ok pair) : pair = (first, second) := by
  have hcut : splitOnce '\t' (joinWith '\t' [first, second]) = some (first, second) :=
    splitOnce_append (h first List.mem_cons_self)
  simp only [fieldPair, hcut, bind_eq_ok, exists_unit, okOr_eq_ok, pure_eq_ok] at hpair
  obtain ⟨pair', hsome, -, rfl⟩ := hpair
  exact (Option.some.inj hsome).symm

/-- The capabilities with one field. -/
theorem freeFields_one (hcapability : capability ∈ ["web.search", "browser.observe"])
    (h : parsePayload capability text = .ok action) : freeFields action = some [text] := by
  simp only [List.mem_cons, List.not_mem_nil, or_false] at hcapability
  rcases hcapability with rfl | rfl <;>
    · obtain rfl := pure_eq_ok.1 h
      rfl

/-- The capabilities with two. -/
theorem freeFields_pair (hcapability : capability ∈ ["artifact.upload", "pc.observe",
      "pc.artifact.read"]) (htabs : Tabless [first, second])
    (h : parsePayload capability (joinWith '\t' [first, second]) = .ok action) :
    freeFields action = some [first, second] := by
  simp only [List.mem_cons, List.not_mem_nil, or_false] at hcapability
  rcases hcapability with rfl | rfl | rfl <;>
    · simp only [parsePayload, bind_eq_ok, pure_eq_ok] at h
      obtain ⟨pair, hpair, rfl⟩ := h
      obtain rfl := fieldPair_joinWith htabs hpair
      rfl

/-- A granted file and what is done to it. -/
theorem freeFields_grantedRead (htabs : Tabless [first, second])
    (h : parsePayload "file.grant.read" (joinWith '\t' [first, second]) = .ok action) :
    freeFields action = some [first, second] := by
  simp only [parsePayload, bind_eq_ok, exists_unit, pure_eq_ok] at h
  obtain ⟨pair, hpair, -, rfl⟩ := h
  obtain rfl := fieldPair_joinWith htabs hpair
  have hcut : splitOnce '\t' (first ++ "\t" ++ second) = some (first, second) :=
    splitOnce_append (htabs first List.mem_cons_self)
  simp only [freeFields, hcut]
  rfl

/-- A program on a paired computer. -/
theorem freeFields_execute (htabs : Tabless [first, second])
    (h : parsePayload "pc.execute" (joinWith '\t' [first, second]) = .ok action) :
    freeFields action = some [first, second] := by
  have hparts : splitN 4 '\t' (joinWith '\t' [first, second]) = [first, second] :=
    splitN_joinWith (List.cons_ne_nil _ _) (by simp) htabs
  simp only [parsePayload, hparts, part, bind_eq_ok, exists_unit, okOr_eq_ok, pure_eq_ok] at h
  obtain ⟨peer, hpeer, program, hprogram, -, -, rfl⟩ := h
  obtain rfl := Option.some.inj hpeer
  obtain rfl := Option.some.inj hprogram
  rfl

/-- A target, an operation and a value. -/
theorem freeFields_interact (htabs : Tabless [first, second])
    (h : parsePayload "browser.interact" (joinWith '\t' [first, second]) = .ok action) :
    freeFields action = some [first] := by
  have hparts : splitN 3 '\t' (joinWith '\t' [first, second]) = [first, second] :=
    splitN_joinWith (List.cons_ne_nil _ _) (by simp) htabs
  simp only [parsePayload, hparts, part, bind_eq_ok, exists_unit, okOr_eq_ok, pure_eq_ok] at h
  obtain ⟨target, htarget, operation, -, -, rfl⟩ := h
  obtain rfl := Option.some.inj htarget
  rfl

/-- Three fields, the last of which is the value of an operation. -/
theorem freeFields_value (htabs : Tabless [first, second, text]) :
    (parsePayload "browser.interact" (joinWith '\t' [first, second, text]) = .ok action →
      freeFields action = some [first, text]) ∧
    (parsePayload "device.interact" (joinWith '\t' [first, second, text]) = .ok action →
      freeFields action = some [text]) := by
  have hparts : splitN 3 '\t' (joinWith '\t' [first, second, text]) = [first, second, text] :=
    splitN_joinWith (List.cons_ne_nil _ _) (by simp) htabs
  constructor <;> intro h <;>
    simp only [parsePayload, hparts, part, bind_eq_ok, exists_unit, okOr_eq_ok, pure_eq_ok] at h
  · obtain ⟨target, htarget, operation, -, -, rfl⟩ := h
    obtain rfl := Option.some.inj htarget
    rfl
  · obtain ⟨surface, -, operation, -, -, rfl⟩ := h
    rfl

/-- Three fields, the last of which is written as bytes. -/
theorem freeFields_written (hcapability : capability ∈ ["file.grant.write", "pc.artifact.write"])
    (htabs : Tabless [first, second, text])
    (h : parsePayload capability (joinWith '\t' [first, second, text]) = .ok action) :
    freeFields action = some [first, second, text] := by
  have hparts : splitN 3 '\t' (joinWith '\t' [first, second, text]) = [first, second, text] :=
    splitN_joinWith (List.cons_ne_nil _ _) (by simp) htabs
  have hcut : splitOnce '\t' (first ++ "\t" ++ second) = some (first, second) :=
    splitOnce_append (htabs first List.mem_cons_self)
  simp only [List.mem_cons, List.not_mem_nil, or_false] at hcapability
  rcases hcapability with rfl | rfl <;>
    · simp only [parsePayload, hparts, part, bind_eq_ok, exists_unit, okOr_eq_ok, pure_eq_ok] at h
      obtain ⟨left, hleft, right, hright, last, hlast, -, rfl⟩ := h
      obtain rfl := Option.some.inj hleft
      obtain rfl := Option.some.inj hright
      obtain rfl := Option.some.inj hlast
      simp only [freeFields, hcut, ofUtf8_utf8]
      rfl

/-- An app, and that it is launched. -/
theorem freeFields_launch (htabs : Tabless [first, second])
    (h : parsePayload "app.action" (joinWith '\t' [first, second]) = .ok action) :
    freeFields action = some [first] := by
  have hparts : splitN 3 '\t' (joinWith '\t' [first, second]) = [first, second] :=
    splitN_joinWith (List.cons_ne_nil _ _) (by simp) htabs
  simp only [parsePayload, hparts, part, bind_eq_ok, exists_unit, okOr_eq_ok, pure_eq_ok] at h
  obtain ⟨app, happ, operation, -, -, rfl⟩ := h
  obtain rfl := Option.some.inj happ
  rfl

/-- The selector of an app action is its payload, tabs and all. -/
theorem freeFields_selector {selector : List String} (hne : selector ≠ [])
    (htabs : Tabless (first :: second :: "view_id" :: selector))
    (h : parsePayload "app.action" (joinWith '\t' (first :: second :: "view_id" :: selector)) =
      .ok action) : freeFields action = some (first :: selector) := by
  obtain ⟨hfirst, hsecond, hkind, hselector⟩ := by
    simpa only [Tabless, List.forall_mem_cons] using htabs
  have hparts : splitN 3 '\t' (joinWith '\t' (first :: second :: "view_id" :: selector)) =
      [first, second, joinWith '\t' ("view_id" :: selector)] := by
    rw [splitN_joinWith_cons 1 hfirst (List.cons_ne_nil _ _),
      splitN_joinWith_cons 0 hsecond (List.cons_ne_nil _ _)]
    rfl
  have hcut : splitOnce '\t' (joinWith '\t' ("view_id" :: selector)) =
      some ("view_id", joinWith '\t' selector) := by
    rw [joinWith_cons hne]
    exact splitOnce_append hkind
  have hbytes : utf8 (joinWith '\t' ("view_id" :: selector)) ≠ [] := by
    refine utf8_ne_nil fun hempty => ?_
    have hnone : splitOnce '\t' "" = none := by decide
    rw [hempty, hnone] at hcut
    exact Option.some_ne_none _ hcut.symm
  simp only [parsePayload, hparts, part, bind_eq_ok, exists_unit, okOr_eq_ok, pure_eq_ok] at h
  obtain ⟨app, happ, operation, -, -, rfl⟩ := h
  obtain rfl := Option.some.inj happ
  obtain ⟨byte, bytes, hcons⟩ := List.exists_cons_of_ne_nil hbytes
  have htext : ofUtf8 (byte :: bytes) = some (joinWith '\t' ("view_id" :: selector)) := by
    rw [← hcons, ofUtf8_utf8]
  change freeFields (.appAction first operation (utf8 (joinWith '\t' ("view_id" :: selector)))) = _
  rw [hcons]
  simp only [freeFields, htext, hcut, Option.bind_eq_bind, Option.bind_some, if_true,
    tabParts_joinWith hne hselector]
  rfl

end Reading

/-! ## What a command hands on

For each command: the fields it makes are read as an action of its capability. -/

/-- **The fields come from the text**: none holds a separator, and what the reader takes for free
text stands in what follows the keyword. -/
structure Hands (capability : String) (fields : List String) (rest : String) : Prop where
  nonempty : fields ≠ []
  plain : ∀ field ∈ fields, hasSeparator field = false
  free : ∀ action, parsePayload capability (joinWith '\t' fields) = .ok action →
    ∃ free, freeFields action = some free ∧ ∀ field ∈ free, field ∈ fields ∧ Within field rest

namespace Hands

variable {capability rest first second text : String}

/-- The shape with one field. -/
theorem one (hcapability : capability ∈ ["web.search", "browser.observe"])
    (hplain : hasSeparator text = false) (htext : Within text rest) :
    Hands capability [text] rest := by
  exact ⟨List.cons_ne_nil _ _, by simpa using hplain, fun action h => ⟨[text],
    freeFields_one hcapability h, by simpa using htext⟩⟩

/-- The shape with two. -/
theorem pair (hcapability : capability ∈ ["artifact.upload", "pc.observe", "pc.artifact.read",
      "file.grant.read", "pc.execute"]) (hfirst : hasSeparator first = false)
    (hsecond : hasSeparator second = false) (hwithin : Within first rest ∧ Within second rest) :
    Hands capability [first, second] rest := by
  have hplain : ∀ field ∈ [first, second], hasSeparator field = false := by simp [hfirst, hsecond]
  refine ⟨List.cons_ne_nil _ _, hplain, fun action h => ⟨[first, second], ?_, by simp [hwithin]⟩⟩
  have htabs := Tabless.of_plain hplain
  have hcases : capability ∈ ["artifact.upload", "pc.observe", "pc.artifact.read"] ∨
      capability = "file.grant.read" ∨ capability = "pc.execute" := by
    simpa [or_assoc] using hcapability
  rcases hcases with hread | rfl | rfl
  · exact freeFields_pair hread htabs h
  · exact freeFields_grantedRead htabs h
  · exact freeFields_execute htabs h

/-- The shape with an operation. -/
theorem operation (hfirst : hasSeparator first = false) (hsecond : hasSeparator second = false)
    (hwithin : Within first rest) : Hands "browser.interact" [first, second] rest := by
  have hplain : ∀ field ∈ [first, second], hasSeparator field = false := by simp [hfirst, hsecond]
  exact ⟨List.cons_ne_nil _ _, hplain, fun action h => ⟨[first],
    freeFields_interact (.of_plain hplain) h, by simpa using hwithin⟩⟩

/-- The shape of a write. -/
theorem written (hcapability : capability ∈ ["file.grant.write", "pc.artifact.write"])
    (hfirst : hasSeparator first = false) (hsecond : hasSeparator second = false)
    (htext : hasSeparator text = false)
    (hwithin : Within first rest ∧ Within second rest ∧ Within text rest) :
    Hands capability [first, second, text] rest := by
  have hplain : ∀ field ∈ [first, second, text], hasSeparator field = false := by
    simp [hfirst, hsecond, htext]
  exact ⟨List.cons_ne_nil _ _, hplain, fun action h => ⟨[first, second, text],
    freeFields_written hcapability (.of_plain hplain) h, by simp [hwithin]⟩⟩

/-- The shape with a selector. -/
theorem selector {selector : List String} (hne : selector ≠ [])
    (hfirst : hasSeparator first = false) (hsecond : hasSeparator second = false)
    (hselector : ∀ field ∈ selector, hasSeparator field = false) (hwithin : Within first rest)
    (hrest : ∀ field ∈ selector, Within field rest) :
    Hands "app.action" (first :: second :: "view_id" :: selector) rest := by
  have hplain : ∀ field ∈ first :: second :: "view_id" :: selector, hasSeparator field = false :=
    List.forall_mem_cons.2 ⟨hfirst, List.forall_mem_cons.2 ⟨hsecond,
      List.forall_mem_cons.2 ⟨by decide, hselector⟩⟩⟩
  refine ⟨List.cons_ne_nil _ _, hplain, fun action h => ⟨first :: selector,
    freeFields_selector hne (.of_plain hplain) h, ?_⟩⟩
  refine List.forall_mem_cons.2 ⟨⟨List.mem_cons_self, hwithin⟩, fun field hfield => ?_⟩
  exact ⟨by simp [hfield], hrest field hfield⟩

end Hands

theorem grantedCommandPath_eq_some {value : String} {fields : List String}
    (h : grantedCommandPath value = some fields) : ∃ aliasName relative,
      fields = [aliasName, relative] ∧ hasSeparator aliasName = false ∧
        hasSeparator relative = false ∧ Within aliasName value ∧ Within relative value := by
  simp only [grantedCommandPath, Option.bind_eq_bind, Option.bind_eq_some_iff, Prod.exists,
    fieldsUnless_eq_some, not_or, Bool.not_eq_true] at h
  obtain ⟨aliasName, relative, hcut, ⟨-, -, halias, hrelative⟩, rfl⟩ := h
  exact ⟨aliasName, relative, rfl, halias, hrelative, within_of_splitOnce hcut⟩

section Commands

variable {rest : String} {fields : List String}

theorem hands_searchWeb (h : searchWeb.fields rest = some fields) :
    Hands searchWeb.capability fields rest := by
  simp only [searchWeb, fieldsUnless_eq_some, not_or, Bool.not_eq_true] at h
  obtain ⟨⟨-, hplain⟩, rfl⟩ := h
  exact .one (by decide) hplain (.refl rest)

theorem hands_observeBrowser (h : observeBrowser.fields rest = some fields) :
    Hands observeBrowser.capability fields rest := by
  simp only [observeBrowser, fieldsUnless_eq_some, not_or, Bool.not_eq_true] at h
  obtain ⟨⟨-, hplain⟩, rfl⟩ := h
  exact .one (by decide) hplain (.refl rest)

theorem hands_browserNavigate (h : browserNavigate.fields rest = some fields) :
    Hands browserNavigate.capability fields rest := by
  simp only [browserNavigate, fieldsUnless_eq_some, not_or, Bool.not_eq_true] at h
  obtain ⟨⟨-, hplain⟩, rfl⟩ := h
  exact .operation hplain (by decide) (.refl rest)

theorem hands_browserSubmit (h : browserSubmit.fields rest = some fields) :
    Hands browserSubmit.capability fields rest := by
  simp only [browserSubmit, fieldsUnless_eq_some, not_or, Bool.not_eq_true] at h
  obtain ⟨⟨-, hplain⟩, rfl⟩ := h
  exact .operation hplain (by decide) (.refl rest)

theorem hands_browserClick (h : browserClick.fields rest = some fields) :
    Hands browserClick.capability fields rest := by
  simp only [browserClick, fieldsUnless_eq_some, not_or, Bool.not_eq_true] at h
  obtain ⟨⟨-, hplain⟩, rfl⟩ := h
  exact .operation hplain (by decide) (.refl rest)

theorem hands_browserSet (h : browserSet.fields rest = some fields) :
    Hands browserSet.capability fields rest := by
  simp only [browserSet, Option.bind_eq_bind, Option.bind_eq_some_iff, Prod.exists,
    fieldsUnless_eq_some, not_or, Bool.not_eq_true] at h
  obtain ⟨target, value, hcut, ⟨-, -, htarget, hvalue⟩, rfl⟩ := h
  have hwithin := within_of_splitOnceAt hcut
  have hplain : ∀ field ∈ [target, "set_value", value], hasSeparator field = false := by
    simp only [List.forall_mem_cons]
    exact ⟨htarget, by decide, hvalue, List.forall_mem_nil _⟩
  refine ⟨List.cons_ne_nil _ _, hplain, fun action h => ⟨[target, value],
    (freeFields_value (.of_plain hplain)).1 h, by simp [hwithin]⟩⟩

theorem hands_setClipboardTo (h : setClipboardTo.fields rest = some fields) :
    Hands setClipboardTo.capability fields rest := by
  simp only [setClipboardTo, fieldsUnless_eq_some, not_or, Bool.not_eq_true] at h
  obtain ⟨⟨-, hvalue⟩, rfl⟩ := h
  have hplain : ∀ field ∈ ["clipboard", "set_text", rest], hasSeparator field = false := by
    simp only [List.forall_mem_cons]
    exact ⟨by decide, by decide, hvalue, List.forall_mem_nil _⟩
  refine ⟨List.cons_ne_nil _ _, hplain, fun action h => ⟨[rest],
    (freeFields_value (.of_plain hplain)).2 h, by simpa using .refl rest⟩⟩

theorem hands_readGrantedFile (h : readGrantedFile.fields rest = some fields) :
    Hands readGrantedFile.capability fields rest := by
  obtain ⟨aliasName, relative, rfl, halias, hrelative, hwithin⟩ := grantedCommandPath_eq_some h
  exact .pair (by decide) halias hrelative hwithin

theorem hands_writeGrantedFile (h : writeGrantedFile.fields rest = some fields) :
    Hands writeGrantedFile.capability fields rest := by
  simp only [writeGrantedFile, Option.bind_eq_bind, Option.bind_eq_some_iff, Prod.exists,
    fieldsUnless_eq_some, not_or, Bool.not_eq_true] at h
  obtain ⟨path, text, hcut, pathFields, hpath, ⟨-, htext⟩, rfl⟩ := h
  obtain ⟨aliasName, relative, rfl, halias, hrelative, hwithin⟩ := grantedCommandPath_eq_some hpath
  obtain ⟨hleft, hright⟩ := within_of_splitOnceAt hcut
  exact .written (by decide) halias hrelative htext
    ⟨hwithin.1.trans hleft, hwithin.2.trans hleft, hright⟩

theorem hands_uploadArtifact (h : uploadArtifact.fields rest = some fields) :
    Hands uploadArtifact.capability fields rest := by
  simp only [uploadArtifact, Option.bind_eq_bind, Option.bind_eq_some_iff, Prod.exists,
    fieldsUnless_eq_some, not_or, Bool.not_eq_true] at h
  obtain ⟨path, url, hcut, ⟨-, -, -, -, hpath, hurl⟩, rfl⟩ := h
  obtain ⟨hleft, hright⟩ := within_of_rsplitOnceAt hcut
  exact .pair (by decide) hurl hpath
    ⟨(Within.trim url).trans hright, (Within.trim path).trans hleft⟩

theorem hands_observePc (h : observePc.fields rest = some fields) :
    Hands observePc.capability fields rest := by
  simp only [observePc, Option.bind_eq_bind, Option.bind_eq_some_iff, Prod.exists,
    fieldsUnless_eq_some, not_or, Bool.not_eq_true, Bool.not_eq_false] at h
  obtain ⟨peer, surface, hcut, ⟨hpeer, -, hsurface⟩, rfl⟩ := h
  exact .pair (by decide) (plain_of_alias hpeer) hsurface (within_of_splitOnce hcut)

theorem hands_executePc (h : executePc.fields rest = some fields) :
    Hands executePc.capability fields rest := by
  simp only [executePc, Option.bind_eq_bind, Option.bind_eq_some_iff, Prod.exists,
    fieldsUnless_eq_some, not_or, Bool.not_eq_true, Bool.not_eq_false] at h
  obtain ⟨peer, program, hcut, ⟨hpeer, -, hprogram, -⟩, rfl⟩ := h
  exact .pair (by decide) (plain_of_alias hpeer) hprogram (within_of_splitOnce hcut)

theorem hands_readPcFile (h : readPcFile.fields rest = some fields) :
    Hands readPcFile.capability fields rest := by
  simp only [readPcFile, Option.bind_eq_bind, Option.bind_eq_some_iff, Prod.exists,
    fieldsUnless_eq_some, not_or, Bool.not_eq_true, Bool.not_eq_false] at h
  obtain ⟨peer, path, hcut, ⟨hpeer, -, hpath⟩, rfl⟩ := h
  exact .pair (by decide) (plain_of_alias hpeer) hpath (within_of_splitOnce hcut)

theorem hands_writePcFile (h : writePcFile.fields rest = some fields) :
    Hands writePcFile.capability fields rest := by
  simp only [writePcFile, Option.bind_eq_bind, Option.bind_eq_some_iff, Prod.exists,
    fieldsUnless_eq_some, not_or, Bool.not_eq_true, Bool.not_eq_false] at h
  obtain ⟨target, text, hcut, peer, path, hpair, ⟨hpeer, -, -, hpath, htext⟩, rfl⟩ := h
  obtain ⟨hleft, hright⟩ := within_of_splitOnceAt hcut
  obtain ⟨hfirst, hsecond⟩ := within_of_splitOnce hpair
  exact .written (by decide) (plain_of_alias hpeer) hpath htext
    ⟨hfirst.trans hleft, hsecond.trans hleft, hright⟩

theorem hands_accessibilityClick (h : accessibilityClick.fields rest = some fields) :
    Hands accessibilityClick.capability fields rest := by
  simp only [accessibilityClick, Option.bind_eq_bind, Option.bind_eq_some_iff, Prod.exists,
    fieldsUnless_eq_some, not_or, Bool.not_eq_true, Bool.not_eq_false] at h
  obtain ⟨package, viewId, hcut, ⟨hpackage, -, -, hviewId, -⟩, rfl⟩ := h
  obtain ⟨hfirst, hsecond⟩ := within_of_splitOnce hcut
  exact .selector (List.cons_ne_nil _ _) (plain_of_package hpackage) (by decide)
    (by simpa using hviewId) hfirst (by simpa using hsecond)

theorem hands_accessibilitySetText (h : accessibilitySetText.fields rest = some fields) :
    Hands accessibilitySetText.capability fields rest := by
  simp only [accessibilitySetText, Option.bind_eq_bind, Option.bind_eq_some_iff, Prod.exists,
    fieldsUnless_eq_some, not_or, Bool.not_eq_true, Bool.not_eq_false] at h
  obtain ⟨target, text, hcut, package, viewId, hpair, ⟨hpackage, -, -, -, hviewId, htext⟩, rfl⟩ := h
  obtain ⟨hleft, hright⟩ := within_of_rsplitOnceAt hcut
  obtain ⟨hfirst, hsecond⟩ := within_of_splitOnce hpair
  exact .selector (List.cons_ne_nil _ _) (plain_of_package hpackage) (by decide)
    (by simp [hviewId, htext]) (hfirst.trans hleft) (by simp [hsecond.trans hleft, hright])

theorem hands_openApp (h : openApp.fields rest = some fields) :
    Hands openApp.capability fields rest := by
  simp only [openApp, fieldsUnless_eq_some, not_not] at h
  obtain ⟨hpackage, rfl⟩ := h
  have hplain : ∀ field ∈ [rest, "launch"], hasSeparator field = false := by
    simp only [List.forall_mem_cons]
    exact ⟨plain_of_package hpackage, by decide, List.forall_mem_nil _⟩
  exact ⟨List.cons_ne_nil _ _, hplain, fun action h => ⟨[rest],
    freeFields_launch (.of_plain hplain) h, by simpa using .refl rest⟩⟩

end Commands

/-- **A command hands on only what it was told**, and `resume browser` nothing but its own word. -/
theorem hands_of_mem {command : ExplicitCommand} (hcommand : command ∈ explicitCommands)
    {rest : String} {fields : List String} (h : command.fields rest = some fields) :
    Hands command.capability fields rest ∨
      command.keyword = "resume browser" ∧ command.capability = "browser.observe" ∧
        fields = ["session"] := by
  simp only [explicitCommands, List.mem_cons, List.not_mem_nil, or_false] at hcommand
  rcases hcommand with rfl | rfl | rfl | rfl | rfl | rfl | rfl | rfl | rfl | rfl | rfl | rfl | rfl |
    rfl | rfl | rfl | rfl | rfl
  · exact .inl (hands_searchWeb h)
  · exact .inl (hands_observeBrowser h)
  · exact .inr ⟨rfl, rfl, (Option.some.inj h).symm⟩
  · exact .inl (hands_browserNavigate h)
  · exact .inl (hands_browserSubmit h)
  · exact .inl (hands_browserSet h)
  · exact .inl (hands_browserClick h)
  · exact .inl (hands_readGrantedFile h)
  · exact .inl (hands_writeGrantedFile h)
  · exact .inl (hands_uploadArtifact h)
  · exact .inl (hands_observePc h)
  · exact .inl (hands_executePc h)
  · exact .inl (hands_readPcFile h)
  · exact .inl (hands_writePcFile h)
  · exact .inl (hands_setClipboardTo h)
  · exact .inl (hands_accessibilityClick h)
  · exact .inl (hands_accessibilitySetText h)
  · exact .inl (hands_openApp h)

/-! ## Through the reader

A plan of one line is read as its one action. -/

/-- The line of a plan of one action. -/
def actionLine (capability payload : String) : String := "1|" ++ capability ++ "|" ++ payload

/-- The line of a plan. -/
theorem rendered_eq (capability : String) (fields : List String) : rendered capability fields =
    unlines [nativeActionProtocolV1, actionLine capability (joinWith '\t' fields)] ++ "END" := by
  have hbefore : "\n1|" = "\n" ++ "1|" := by decide
  have hafter : "\nEND" = "\n" ++ "END" := by decide
  rw [rendered, hbefore, hafter, unlines_cons, unlines_cons, unlines_nil, String.append_empty,
    actionLine]
  simp only [String.append_assoc]

/-- A line is cut at its first two bars. -/
theorem splitN_actionLine {capability payload : String} (hcapability : '|' ∉ capability.toList)
    (hpayload : '|' ∉ payload.toList) :
    splitN 3 '|' (actionLine capability payload) = ["1", capability, payload] := by
  have hjoin : actionLine capability payload = joinWith '|' ["1", capability, payload] := by
    have hbar : "1|" = "1" ++ String.singleton '|' := by decide
    rw [actionLine, hbar, joinWith, joinWith, joinWith]
    simp only [String.append_assoc]
    rfl
  rw [hjoin]
  refine splitN_joinWith (List.cons_ne_nil _ _) (by simp) ?_
  simp only [List.forall_mem_cons]
  exact ⟨by decide, hcapability, hpayload, List.forall_mem_nil _⟩

/-- A line has no line break. -/
theorem plain_actionLine {capability payload : String} {c : Char} (hc : c ∉ ['1', '|'])
    (hcapability : c ∉ capability.toList) (hpayload : c ∉ payload.toList) :
    c ∉ (actionLine capability payload).toList := by
  have hone : "1|".toList = ['1', '|'] := rfl
  have hbar : "|".toList = ['|'] := rfl
  simp only [actionLine, String.toList_append, List.mem_append, hone, hbar, not_or]
  exact ⟨⟨⟨hc, hcapability⟩, fun h => hc (List.mem_cons_of_mem _ h)⟩, hpayload⟩

/-- Of the separators, only the tab may stand in a payload. -/
theorem breaksLine_cases (c : Char) (h : c ∈ ['|', '\r', '\n']) :
    c ≠ '\t' ∧ isSeparator c = true := by
  simp only [List.mem_cons, List.not_mem_nil, or_false] at h
  rcases h with rfl | rfl | rfl <;> decide

/-- **What is read back of one line** is its one action. -/
theorem parse_actionLine {capability payload : String} {plan : ParsedActionPlan}
    (hcapability : hasSeparator capability = false)
    (hpayload : ∀ c ∈ ['|', '\r', '\n'], c ∉ payload.toList)
    (h : parseNativeActionPlan (unlines [nativeActionProtocolV1, actionLine capability payload] ++
      "END") = .ok (.actions plan)) :
    ∃ action, parsePayload capability payload = .ok action ∧
      plan.graph.actions = [⟨1, ⟨capability⟩, plannedSideEffect capability, true⟩] ∧
      plan.payloads = (∅ : BTreeMap UInt32 TypedAction).insert 1 action := by
  have hplain : ∀ c ∈ ['\r', '\n'], c ∉ (actionLine capability payload).toList := by
    intro c hc
    have hother : c ∉ ['1', '|'] := by
      rcases List.mem_pair.1 hc with rfl | rfl <;> decide
    exact plain_actionLine hother (not_mem_of_plain hcapability
      (breaksLine_cases c (List.mem_cons_of_mem _ hc)).2) (hpayload c (List.mem_cons_of_mem _ hc))
  have hnotEnd : actionLine capability payload ≠ "END" := by
    intro hend
    have hfirst := congrArg (fun s => s.toList.head?) hend
    simp [actionLine] at hfirst
  have hline : ∀ line ∈ [actionLine capability payload],
      line ≠ "END" ∧ '\n' ∉ line.toList ∧ line.toList.getLast? ≠ some '\r' := by
    intro line hmem
    obtain rfl := List.mem_singleton.1 hmem
    exact ⟨hnotEnd, hplain '\n' (by decide),
      fun hlast => hplain '\r' (by decide) (List.mem_of_getLast? hlast)⟩
  obtain ⟨acts, rest, plan', hlines, hacts, hagain, -, hplan, -⟩ := parseNativeActionPlan_eq_ok h
  rw [trim_canonical, lines_canonical hline] at hlines
  obtain rfl : acts = [actionLine capability payload] := by
    rcases acts with _ | ⟨first, _ | ⟨second, acts⟩⟩
    · rw [List.nil_append, List.singleton_append, List.cons.injEq, List.cons.injEq] at hlines
      exact absurd hlines.2.1 hnotEnd
    · simp only [List.cons_append, List.nil_append, List.cons.injEq] at hlines
      rw [hlines.2.1]
    · have hlength := congrArg List.length hlines
      simp at hlength
  have hsplit := splitN_actionLine (not_mem_of_plain hcapability (by decide))
    (hpayload '|' (by decide))
  have hread := hagain []
  rw [List.singleton_append, parseActionLines, if_neg hnotEnd] at hread
  simp only [parseActionLines, parseActionLine, hsplit, bind_eq_ok, exists_unit, refuse_eq_ok,
    okOr_eq_ok, mapError_eq_ok, pure_eq_ok, if_true] at hread
  obtain ⟨-, r, ⟨id, hid, n, -, -, name, hname, text, htext, hn, -, action, haction, -, rfl⟩, -,
    hread⟩ := hread
  obtain rfl := Option.some.inj hid
  obtain rfl := Option.some.inj hname
  obtain rfl := Option.some.inj htext
  obtain rfl := of_not_not fun hne => hn (.inr hne)
  obtain ⟨rfl, -⟩ := Prod.mk.inj hread
  refine ⟨action, haction, ?_, ?_⟩ <;>
    · rw [hplan]
      rfl

/-- **What is read back of a rendered plan** is its one action. -/
theorem parse_rendered {capability : String} {fields : List String} {plan : ParsedActionPlan}
    (hcapability : hasSeparator capability = false)
    (hplain : ∀ field ∈ fields, hasSeparator field = false)
    (h : parseNativeActionPlan (rendered capability fields) = .ok (.actions plan)) :
    ∃ action, parsePayload capability (joinWith '\t' fields) = .ok action ∧
      plan.graph.actions = [⟨1, ⟨capability⟩, plannedSideEffect capability, true⟩] ∧
      plan.payloads = (∅ : BTreeMap UInt32 TypedAction).insert 1 action := by
  rw [rendered_eq] at h
  refine parse_actionLine hcapability (fun c hc => ?_) h
  obtain ⟨hne, hseparator⟩ := breaksLine_cases c hc
  exact not_mem_joinWith hne fun field hfield => not_mem_of_plain (hplain field hfield) hseparator

/-! ## The command of a message

The first command that a message begins with decides. -/

/-- The name of a capability has no separators. -/
theorem plain_capability : ∀ command ∈ explicitCommands,
    hasSeparator command.capability = false := by
  decide

/-- A keyword has no more bytes than characters. -/
theorem keyword_bytes : ∀ command ∈ explicitCommands,
    command.keyword.utf8ByteSize = command.keyword.toList.length := by
  decide

/-- **No keyword begins another.** -/
theorem keyword_of_begun : ∀ command ∈ explicitCommands, ∀ other ∈ explicitCommands,
    command.keyword.toList <+: other.keyword.toList → command.keyword = other.keyword := by
  decide +kernel

/-- The words that a message begins with. -/
theorem prefix_of_begins {command : ExplicitCommand} {lower : String}
    (h : command.begins lower = true) : command.keyword.toList <+: lower.toList := by
  rw [ExplicitCommand.begins] at h
  split at h
  · rw [eq_of_beq h]
  · exact List.isPrefixOf_iff_prefix.1 h

/-- A message is of one command at most. -/
theorem keyword_of_begins {command other : ExplicitCommand} {lower : String}
    (hcommand : command ∈ explicitCommands) (hother : other ∈ explicitCommands)
    (h : command.begins lower = true) (h' : other.begins lower = true) :
    other.keyword = command.keyword := by
  rcases List.prefix_or_prefix_of_prefix (prefix_of_begins h) (prefix_of_begins h') with hle | hle
  · exact (keyword_of_begun command hcommand other hother hle).symm
  · exact keyword_of_begun other hother command hcommand hle

/-- **A command asks for one action**, of its own capability, with the fields it was told. -/
theorem plan_eq_some {command : ExplicitCommand} (hcommand : command ∈ explicitCommands)
    {rest : String} {plan : ParsedActionPlan} (h : command.plan rest = some plan) :
    ∃ action, plan.graph.actions =
        [⟨1, ⟨command.capability⟩, plannedSideEffect command.capability, true⟩] ∧
      plan.payloads = (∅ : BTreeMap UInt32 TypedAction).insert 1 action ∧
      (command.keyword = "resume browser" ∧ action = .browserObserve "session" ∨
        ∃ free, freeFields action = some free ∧
          ∀ field ∈ free, Within field rest ∧ hasSeparator field = false) := by
  simp only [ExplicitCommand.plan, Option.bind_eq_bind, Option.bind_eq_some_iff] at h
  obtain ⟨fields, hfields, h⟩ := h
  split at h
  · next parsed hparsed =>
    obtain rfl := Option.some.inj h
    rcases hands_of_mem hcommand hfields with hhands | ⟨hkeyword, hcapability, rfl⟩
    · obtain ⟨action, haction, hactions, hpayloads⟩ :=
        parse_rendered (plain_capability command hcommand) hhands.plain hparsed
      obtain ⟨free, hfree, hall⟩ := hhands.free action haction
      exact ⟨action, hactions, hpayloads, .inr ⟨free, hfree, fun field hfield =>
        ⟨(hall field hfield).2, hhands.plain field (hall field hfield).1⟩⟩⟩
    · obtain ⟨action, haction, hactions, hpayloads⟩ :=
        parse_rendered (plain_capability command hcommand) (by decide) hparsed
      rw [hcapability] at haction
      exact ⟨action, hactions, hpayloads, .inl ⟨hkeyword, (pure_eq_ok.1 haction).symm⟩⟩
  · exact absurd h (Option.some_ne_none plan).symm

/-- **An explicit command cannot smuggle an action**: whatever the message, the answer is no error,
and a plan is the one action of the one keyword the message begins with, its free text taken from
behind the keyword, without a character the reader would stop at. -/
theorem governedExplicitActionPlan_single (userMessage : String) :
    ∃ answer, governedExplicitActionPlan userMessage = .ok answer ∧ ∀ plan, answer = some plan →
      ∃ command ∈ explicitCommands, ∃ (head rest : String) (action : TypedAction),
        trim userMessage = head ++ rest ∧ toAsciiLowercase head = command.keyword ∧
        (∀ other ∈ explicitCommands, other.begins (toAsciiLowercase (trim userMessage)) = true →
          other.keyword = command.keyword) ∧
        plan.graph.actions =
          [⟨1, ⟨command.capability⟩, plannedSideEffect command.capability, true⟩] ∧
        plan.payloads = (∅ : BTreeMap UInt32 TypedAction).insert 1 action ∧
        (command.keyword = "resume browser" ∧ action = .browserObserve "session" ∨
          ∃ free, freeFields action = some free ∧
            ∀ field ∈ free, Within field rest ∧ hasSeparator field = false) := by
  rw [governedExplicitActionPlan]
  cases hfind : explicitCommands.find? (·.begins (toAsciiLowercase (trim userMessage))) with
  | none => exact ⟨none, rfl, fun plan h => absurd h (Option.some_ne_none plan).symm⟩
  | some command =>
    have hcommand := List.mem_of_find?_eq_some hfind
    have hbegins : command.begins (toAsciiLowercase (trim userMessage)) = true :=
      List.find?_some
        (p := fun other : ExplicitCommand => other.begins (toAsciiLowercase (trim userMessage))) hfind
    obtain ⟨head, rest, hwhole, hhead, hslice⟩ :=
      sliceFrom_of_lower (keyword_bytes command hcommand) (prefix_of_begins hbegins)
    refine ⟨command.plan rest, by simp only [hslice], fun plan hplan => ?_⟩
    obtain ⟨action, hactions, hpayloads, hfree⟩ := plan_eq_some hcommand hplan
    exact ⟨command, hcommand, head, rest, action, hwhole, hhead, fun other hother hother' =>
      keyword_of_begins hcommand hother hbegins hother', hactions, hpayloads, hfree⟩

example : (governedExplicitActionPlan " Open App org.notes").toOption.join.map (·.canonicalText) =
    some "NTD97_ACTIONS_V1\n1|app.action|org.notes\tlaunch\nEND" := by
  decide +kernel

end NTD97
