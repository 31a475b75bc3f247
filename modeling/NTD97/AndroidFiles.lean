import Mathlib
import NTD97.ActionFabric
import NTD97.Capsule.Hash
import NTD97.Lib.Files
import NTD97.Lib.Wire

/-!
# AndroidFiles — the adapters that work on app-private files

    file.read, file.write  ──▸  <root>/path
    artifact.download      ──▸  <root>/.ntd97-download/<id>.part  ──rename──▸  <root>/path

The capability root is the root of the tree; it holds no symbolic links.  A path of an action is
relative to it and made of plain names.  Everything but the files — the network above all — is the
rest of the world, of an arbitrary type.  A call on the files does its work or is refused, and a
directory that was just made is its own canonical path; AndroidFiles/Steps has the same adapters call
by call.
-/

namespace NTD97

open Guard Effect Text Wire Files

/-- 512 KiB. -/
def maxPlatformTextBytes : ℕ := 512 * 1024

/-- The files below the capability root, and the rest of the world. -/
structure AppWorld (N : Type) where
  tree : Tree
  net : N

/-- What a fetch answers. -/
structure HttpsResult where
  finalUrl : String
  body : Bytes

/-- The operating system and the network, as far as the adapters call them. -/
structure Host (N : Type) where
  refuses : Path → Option IoError
  describe : IoError → String
  httpsFetch : String → N → Except String HttpsResult × N

/-- Computations of an adapter. -/
abbrev AppM (N : Type) := Eff (AppWorld N) String

section Adapters

variable {N : Type} (host : Host N)

/-- A call on the files, its failure told with the words of the caller. -/
def onFiles {α : Type} (what : String) (x : FilesM α) : AppM N α :=
  zoom AppWorld.tree (fun w tree => { w with tree }) (fun e => what ++ ": " ++ host.describe e) x

/-! ## App-private files

A write goes to a temporary name beside its target and is renamed over it. -/

/-- The names of a relative path; a name that is not plain, or a root, is refused. -/
def scopedPath (relative : String) : Except String Path := do
  let parts := (relative.toList.splitOn '/').map String.ofList
  refuse (isBlank relative ∨ parts.head? = some "")
    "file capability path must be relative to app-private storage"
  -- `Path::components` skips what is empty, and a dot anywhere but in front
  let components := (parts.head?.toList ++ parts.tail.filter (· ≠ ".")).filter (· ≠ "")
  components.forM fun name =>
    refuse (name = "." ∨ name = "..") "file capability path traversal is not allowed"
  return components

/-- `read_text`: a file that is a text and not too long. -/
def readText (relative : String) : AppM N String := do
  let target ← check id (scopedPath relative)
  let bytes ← onFiles host "read app-private file" (read host.refuses target)
  refuse (maxPlatformTextBytes < bytes.length) "app-private file exceeds native evidence limit"
  okOr (ofUtf8 bytes) "app-private file is not UTF-8 text"

/-- What undoes a write: the file as it was, or that there was none. -/
def rollbackSnapshot (target : Path) (limit overflow what : String) : AppM N Bytes := do
  let tree := (← get).tree
  match readAt host.refuses tree target with
  | .ok previous => do
    refuse (maxPlatformTextBytes < previous.length) limit
    refuse (2 ^ 32 ≤ previous.length) overflow
    return 1 :: leBytes 4 previous.length ++ previous
  | .error .notFound => return [0]
  | .error error => throw (what ++ ": " ++ host.describe error)

/-- `write_atomic`: what was at the target is read first, as the token that undoes the write. -/
def writeAtomic (actionId : ActionId) (relative : String) (bytes : Bytes) : AppM N Bytes := do
  refuse (maxPlatformTextBytes < bytes.length) "app-private file write exceeds native limit"
  let target ← check id (scopedPath relative)
  let parent := target.dropLast
  onFiles host "create app-private file directory" (createDirAll host.refuses parent)
  let rollback ← rollbackSnapshot host target "existing app-private file exceeds rollback limit"
    "rollback length overflow" "snapshot app-private file for rollback"
  let fileName ← okOr target.getLast? "invalid app-private file name"
  let temp := parent ++ ["." ++ fileName ++ ".ntd97-" ++ toString actionId.val]
  onFiles host "create app-private temp file" (write host.refuses temp bytes)
  onFiles host "commit app-private file" (rename host.refuses temp target)
  return rollback

/-- `rollback_write`: the bytes of the token, or no file. -/
def rollbackWrite (relative : String) (token : Bytes) : AppM N Unit := do
  let target ← check id (scopedPath relative)
  match token with
  | 0 :: rest => do
    refuse (rest ≠ []) "invalid app-private rollback token"
    match readAt host.refuses (← get).tree target with
    | .error .notFound => pure ()
    | _ => onFiles host "rollback app-private file removal" (removeFile host.refuses target)
  | 1 :: rest => do
    refuse (rest.length < 4) "invalid app-private rollback token"
    let len := ofLe (rest.take 4)
    refuse (maxPlatformTextBytes < len ∨ rest.length ≠ len + 4) "invalid app-private rollback token"
    onFiles host "create rollback directory" (createDirAll host.refuses target.dropLast)
    onFiles host "restore app-private rollback bytes"
      (write host.refuses target (rest.drop 4))
  | _ => throw "invalid app-private rollback token"

/-- `execute` of the file adapter. -/
def executeScopedFile (actionId : ActionId) : TypedAction → AppM N AdapterResult
  | .fileRead path => do
    let text ← readText host path
    return .completed {
      summary := "verified app-private file read: " ++ path
      value := .text text
      evidence := ["android-app-private-file", "path:" ++ path, "operation:read"] } none
  | .fileWrite path bytes => do
    let rollback ← writeAtomic host actionId path bytes
    return .completed {
      summary := "verified app-private file write: " ++ path
      value := .text (toString bytes.length ++ " bytes")
      evidence := ["android-app-private-file", "path:" ++ path, "operation:write"] } (some rollback)
  | _ => throw "Android scoped file adapter only supports file.read/file.write"

/-- `rollback` of the file adapter; a read has nothing to undo. -/
def rollbackScopedFile (action : TypedAction) (token : Bytes) : AppM N Unit :=
  match action with
  | .fileWrite path _ => rollbackWrite host path token
  | _ => throw "rollback is only supported for file.write"

/-- The adapter of `file.read` and `file.write`. -/
def androidScopedFileAdapter : CapabilityAdapter (AppWorld N) where
  execute actionId action := exec (executeScopedFile host actionId action)
  rollback _ action token := exec (rollbackScopedFile host action token)

/-! ## Downloads

A download is staged and suspends its action; the resume checks the hash and moves the file to its
target. -/

/-- A digit of base sixteen. -/
def hexDigit (n : UInt8) : Char := if n < 10 then Char.ofNat (48 + n.toNat) else Char.ofNat (87 + n.toNat)

/-- A digest in base sixteen. -/
def digestHex (digest : Digest) : String :=
  String.ofList (digest.bytes.flatMap fun b => [hexDigit (b / 16), hexDigit (b % 16)])

/-- The token of a suspended download: the hash, what undoes it, and where it came from. -/
def encodeArtifactResumeToken (digest : Digest) (rollback : Bytes) (finalUrl : String) :
    Except String Bytes := do
  refuse (2 ^ 32 ≤ rollback.length) "artifact rollback token overflow"
  let url := utf8 finalUrl
  refuse (2 ^ 32 ≤ url.length) "artifact final URL overflow"
  return 1 :: digest.bytes ++ leBytes 4 rollback.length ++ rollback ++ leBytes 4 url.length ++ url

/-- A token that accounts for all its bytes. -/
def decodeArtifactResumeToken (token : Bytes) : Except String (Bytes × Bytes × String) := do
  refuse (token.length < 1 + 32 + 4 + 4 ∨ token.head? ≠ some 1) "invalid artifact resume token"
  let digest := (token.drop 1).take 32
  let rollbackEnd := 37 + ofLe ((token.drop 33).take 4)
  refuse (token.length < rollbackEnd + 4) "truncated artifact resume token"
  let urlEnd := rollbackEnd + 4 + ofLe ((token.drop rollbackEnd).take 4)
  refuse (urlEnd ≠ token.length) "non-canonical artifact resume token"
  let finalUrl ← okOr (ofUtf8 (token.drop (rollbackEnd + 4))) "artifact resume URL is not UTF-8"
  return (digest, (token.drop 37).take (rollbackEnd - 37), finalUrl)

/-- Where a download is staged; its directory is made on the way. -/
def stagePath (actionId : ActionId) : AppM N Path := do
  let staging := [".ntd97-download"]
  onFiles host "create artifact staging directory" (createDirAll host.refuses staging)
  return staging ++ [toString actionId.val ++ ".part"]

/-- The staged bytes of an action, over those of an earlier attempt. -/
def writeStaging (actionId : ActionId) (body : Bytes) : AppM N Unit := do
  refuse (maxPlatformTextBytes < body.length) "artifact exceeds native download limit"
  let stage ← stagePath host actionId
  onFiles host "create artifact staging file" (write host.refuses stage body)

/-- The staged file becomes the target if it has the hash of the token. -/
def commitStaging (actionId : ActionId) (relative : String) (expectedHash : Bytes) :
    AppM N (ℕ × Digest) := do
  let stage ← stagePath host actionId
  let bytes ← onFiles host "read staged artifact" (read host.refuses stage)
  let digest := sha256 bytes
  refuse (digest.bytes ≠ expectedHash) "staged artifact hash mismatch"
  let target ← check id (scopedPath relative)
  onFiles host "create artifact target directory" (createDirAll host.refuses target.dropLast)
  onFiles host "commit staged artifact" (rename host.refuses stage target)
  return (bytes.length, digest)

/-- `android_https_fetch`. -/
def androidHttpsFetch (url : String) : AppM N HttpsResult := do
  let world ← get
  let (answer, net) := host.httpsFetch url world.net
  modify ({ · with net })
  check id answer

/-- `execute` of the download adapter. -/
def executeArtifactDownload (actionId : ActionId) : TypedAction → AppM N AdapterResult
  | .artifactDownload url path => do
    let result ← androidHttpsFetch host url
    refuse (maxPlatformTextBytes < result.body.length) "artifact download exceeds native limit"
    let target ← check id (scopedPath path)
    let rollback ← rollbackSnapshot host target "existing artifact exceeds rollback limit"
      "artifact rollback length overflow" "snapshot artifact for rollback"
    writeStaging host actionId result.body
    let resumeToken ← check id
      (encodeArtifactResumeToken (sha256 result.body) rollback result.finalUrl)
    return .suspended resumeToken "artifact downloaded and staged for verified commit"
  | _ => throw "Android artifact adapter received wrong action"

/-- `resume` of the download adapter. -/
def resumeArtifactDownload (actionId : ActionId) (action : TypedAction) (resumeToken : Bytes) :
    AppM N AdapterResult :=
  match action with
  | .artifactDownload _ path => do
    let (expectedHash, rollback, finalUrl) ← check id (decodeArtifactResumeToken resumeToken)
    let (size, digest) ← commitStaging host actionId path expectedHash
    return .completed {
      summary := "verified artifact download committed: " ++ path
      value := .fields (Std.ExtTreeMap.ofList [("path", path), ("bytes", toString size),
        ("sha256", digestHex digest), ("url", finalUrl)])
      evidence := ["android-artifact-download", "operation:download",
        "sha256:" ++ digestHex digest] } (some rollback)
  | _ => throw "Android artifact adapter received wrong resume action"

/-- `rollback` of the download adapter. -/
def rollbackArtifactDownload (action : TypedAction) (token : Bytes) : AppM N Unit :=
  match action with
  | .artifactDownload _ path => rollbackWrite host path token
  | _ => throw "artifact rollback received wrong action"

/-- The adapter of `artifact.download`. -/
def androidArtifactDownloadAdapter : CapabilityAdapter (AppWorld N) where
  execute actionId action := exec (executeArtifactDownload host actionId action)
  resume actionId action token := exec (resumeArtifactDownload host actionId action token)
  rollback _ action token := exec (rollbackArtifactDownload host action token)

end Adapters

end NTD97
