import Mathlib
import NTD97.AndroidFiles
import NTD97.Lib.FileCalls

/-!
# AndroidFiles/Steps — the file adapters, one call at a time

    scoped_path ▸ create_dir_all ▸ canonicalize ▸ read ▸ create ▸ write_all ▸ sync_all ▸ rename

The same functions as in `AndroidFiles`, as programs over the calls of the file system: what a stop
between two calls leaves behind, and where each call goes, can be asked of these.
-/

namespace NTD97

open Guard Text Wire Files Steps

namespace Stepwise

section Programs

variable (describe : IoError → String) (root : Path)

/-! ## Paths -/

/-- One component of a path on the way down: it is no link, if it leads anywhere. -/
def inspect (path : Path) : FileProg String Unit :=
  .call (.stat path) fun there => match there with
    | .error _ => pure ()
    | .ok _ => do
      let kind : Kind ← ask describe "inspect app-private path" (.metadata path)
      refuse (kind = .link) "symbolic links are not allowed in app-private capability paths"

def scopedPath (relative : String) : FileProg String Path := do
  let components ← Prog.check (NTD97.scopedPath relative)
  components.inits.tail.forM fun part => inspect describe (root ++ part)
  return root ++ components

/-- `fs::create_dir_all`, its failure told with the words of the caller. -/
def createDirAll (what : String) (path : Path) : FileProg String Unit :=
  path.inits.forM fun part => ask describe what (.makeDir path part)

/-- The real directory at a path, which is not outside the root. -/
def canonicalDirectory (path : Path) (what escaped : String) : FileProg String Path := do
  let canonical : Path ← ask describe what (.canonicalize path)
  refuse (¬ root <+: canonical) escaped
  return canonical

/-! ## App-private files -/

def readText (relative : String) : FileProg String String := do
  let target ← scopedPath describe root relative
  let bytes : Bytes ← ask describe "read app-private file" (.read target)
  refuse (maxPlatformTextBytes < bytes.length) "app-private file exceeds native evidence limit"
  okOr (ofUtf8 bytes) "app-private file is not UTF-8 text"

/-- The token that undoes a write, of what was read before it. -/
def rollbackToken (limit overflow what : String) : Except IoError Bytes → Except String Bytes
  | .ok previous => do
    refuse (maxPlatformTextBytes < previous.length) limit
    refuse (2 ^ 32 ≤ previous.length) overflow
    return 1 :: leBytes 4 previous.length ++ previous
  | .error .notFound => return [0]
  | .error error => throw (what ++ ": " ++ describe error)

def rollbackSnapshot (target : Path) (limit overflow what : String) : FileProg String Bytes :=
  .call (.read target) fun previous => .ret (rollbackToken describe limit overflow what previous)

/-- The name of the file that a write goes through. -/
def tempName (actionId : ActionId) (fileName : String) : String :=
  "." ++ fileName ++ ".ntd97-" ++ toString actionId.val

def writeAtomic (actionId : ActionId) (relative : String) (bytes : Bytes) :
    FileProg String Bytes := do
  refuse (maxPlatformTextBytes < bytes.length) "app-private file write exceeds native limit"
  let target ← scopedPath describe root relative
  let parent := target.dropLast
  createDirAll describe "create app-private file directory" parent
  let canonicalParent ← canonicalDirectory describe root parent
    "canonicalize app-private file directory" "app-private file directory escaped capability root"
  let rollback ← rollbackSnapshot describe target
    "existing app-private file exceeds rollback limit" "rollback length overflow"
    "snapshot app-private file for rollback"
  let fileName ← okOr target.getLast? "invalid app-private file name"
  let temp := canonicalParent ++ [tempName actionId fileName]
  ask describe "create app-private temp file" (.create temp)
  ask describe "write app-private temp file" (.append temp bytes)
  ask describe "sync app-private temp file" (.sync temp)
  ask describe "commit app-private file" (.rename temp target)
  return rollback

/-- Removing a file that a write made; there may be none any more. -/
def removeWritten (target : Path) : FileProg String Unit :=
  .call (.remove target) fun removed => match removed with
    | .ok _ => pure ()
    | .error .notFound => pure ()
    | .error error => throw ("rollback app-private file removal: " ++ describe error)

def rollbackWrite (relative : String) (token : Bytes) : FileProg String Unit := do
  let target ← scopedPath describe root relative
  match token with
  | 0 :: rest => do
    refuse (rest ≠ []) "invalid app-private rollback token"
    removeWritten describe target
  | 1 :: rest => do
    refuse (rest.length < 4) "invalid app-private rollback token"
    let len := ofLe (rest.take 4)
    refuse (maxPlatformTextBytes < len ∨ rest.length ≠ len + 4) "invalid app-private rollback token"
    createDirAll describe "create rollback directory" target.dropLast
    ask describe "restore app-private rollback bytes" (.create target)
    ask describe "restore app-private rollback bytes" (.append target (rest.drop 4))
  | _ => throw "invalid app-private rollback token"

def executeScopedFile (actionId : ActionId) : TypedAction → FileProg String AdapterResult
  | .fileRead path => do
    let text ← readText describe root path
    return .completed {
      summary := "verified app-private file read: " ++ path
      value := .text text
      evidence := ["android-app-private-file", "path:" ++ path, "operation:read"] } none
  | .fileWrite path bytes => do
    let rollback ← writeAtomic describe root actionId path bytes
    return .completed {
      summary := "verified app-private file write: " ++ path
      value := .text (toString bytes.length ++ " bytes")
      evidence := ["android-app-private-file", "path:" ++ path, "operation:write"] } (some rollback)
  | _ => throw "Android scoped file adapter only supports file.read/file.write"

def rollbackScopedFile (action : TypedAction) (token : Bytes) : FileProg String Unit :=
  match action with
  | .fileWrite path _ => rollbackWrite describe root path token
  | _ => throw "rollback is only supported for file.write"

/-! ## Downloads -/

def stagePath (actionId : ActionId) : FileProg String Path := do
  let staging := root ++ [".ntd97-download"]
  createDirAll describe "create artifact staging directory" staging
  let canonical ← canonicalDirectory describe root staging
    "canonicalize artifact staging directory" "artifact staging escaped capability root"
  return canonical ++ [toString actionId.val ++ ".part"]

def writeStaging (actionId : ActionId) (body : Bytes) : FileProg String Path := do
  refuse (maxPlatformTextBytes < body.length) "artifact exceeds native download limit"
  let stage ← stagePath describe root actionId
  ask describe "create artifact staging file" (.create stage)
  ask describe "write artifact staging file" (.append stage body)
  ask describe "sync artifact staging file" (.sync stage)
  return stage

def commitStaging (actionId : ActionId) (relative : String) (expectedHash : Bytes) :
    FileProg String (ℕ × Digest) := do
  let stage ← stagePath describe root actionId
  let bytes : Bytes ← ask describe "read staged artifact" (.read stage)
  let digest := sha256 bytes
  refuse (digest.bytes ≠ expectedHash) "staged artifact hash mismatch"
  let target ← scopedPath describe root relative
  let parent := target.dropLast
  createDirAll describe "create artifact target directory" parent
  let canonicalParent ← canonicalDirectory describe root parent
    "canonicalize artifact target directory" "artifact target escaped capability root"
  ask describe "commit staged artifact" (.rename stage target)
  ask describe "sync artifact directory" (.sync canonicalParent)
  return (bytes.length, digest)

/-- `execute` of a download, behind the network. -/
def executeDownload (actionId : ActionId) (path : String) (result : HttpsResult) :
    FileProg String AdapterResult := do
  refuse (maxPlatformTextBytes < result.body.length) "artifact download exceeds native limit"
  let target ← scopedPath describe root path
  let rollback ← rollbackSnapshot describe target "existing artifact exceeds rollback limit"
    "artifact rollback length overflow" "snapshot artifact for rollback"
  let _ ← writeStaging describe root actionId result.body
  let resumeToken ← Prog.check
    (encodeArtifactResumeToken (sha256 result.body) rollback result.finalUrl)
  return .suspended resumeToken "artifact downloaded and staged for verified commit"

/-- What a resumed download answers. -/
def committed (path finalUrl : String) (rollback : Bytes) (size : ℕ) (digest : Digest) :
    AdapterResult :=
  .completed {
    summary := "verified artifact download committed: " ++ path
    value := .fields (Std.ExtTreeMap.ofList [("path", path), ("bytes", toString size),
      ("sha256", digestHex digest), ("url", finalUrl)])
    evidence := ["android-artifact-download", "operation:download",
      "sha256:" ++ digestHex digest] } (some rollback)

/-- `resume` of a download. -/
def resumeDownload (actionId : ActionId) (path : String) (resumeToken : Bytes) :
    FileProg String AdapterResult := do
  let decoded ← Prog.check (decodeArtifactResumeToken resumeToken)
  let committedFile ← commitStaging describe root actionId path decoded.1
  return committed path decoded.2.2 decoded.2.1 committedFile.1 committedFile.2

end Programs

end Stepwise

end NTD97
