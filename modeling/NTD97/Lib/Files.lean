import Mathlib
import NTD97.Lib.Effect

/-!
# Lib/Files — a tree of files and directories, and the calls that work on it

    Tree  =  Path → Option Entry        root ──▸ directories ──▸ files

A path is the list of the names on the way from the root, which is always a directory.  A call
walks the directories above its path, and may be refused by the host for a reason of its own.
-/

namespace Files

open Guard Effect

abbrev Path := List String

inductive Entry where
  | file (bytes : List UInt8)
  | directory
  deriving DecidableEq

/-- Why a call fails; `host` stands for reasons outside the tree. -/
inductive IoError where
  | notFound
  | notADirectory
  | isADirectory
  | alreadyExists
  | host (code : ℕ)
  deriving DecidableEq

/-- The entries below the root. -/
abbrev Tree := Path → Option Entry

/-- What stands at a path. -/
def Tree.at (tree : Tree) (path : Path) : Option Entry :=
  if path = [] then some .directory else tree path

/-- Calls on a tree. -/
abbrev FilesM := Eff Tree IoError

/-- There is a directory at the path. -/
def directoryAt (tree : Tree) (path : Path) : Except IoError Unit :=
  match tree.at path with
  | some .directory => .ok ()
  | some (.file _) => .error .notADirectory
  | none => .error .notFound

/-- Walk down to a path: every path above it is a directory. -/
def reach (refuses : Path → Option IoError) (tree : Tree) (path : Path) :
    Except IoError (Option Entry) := do
  (refuses path).forM fun e => throw e
  path.inits.dropLast.forM (directoryAt tree)
  return tree.at path

/-- `fs::read`. -/
def readAt (refuses : Path → Option IoError) (tree : Tree) (path : Path) :
    Except IoError (List UInt8) := do
  match ← reach refuses tree path with
  | some (.file bytes) => return bytes
  | some .directory => throw .isADirectory
  | none => throw .notFound

def put (path : Path) (entry : Option Entry) : FilesM Unit :=
  modify fun tree => Function.update tree path entry

variable (refuses : Path → Option IoError)

def read (path : Path) : FilesM (List UInt8) := do
  let tree ← get
  check id (readAt refuses tree path)

/-- What stands at a path that can be walked to. -/
def entry (path : Path) : FilesM (Option Entry) := do
  let tree ← get
  check id (reach refuses tree path)

/-- Make one directory of those `createDirAll` makes. -/
def createDir (target path : Path) : FilesM Unit := do
  let tree ← get
  match tree.at path with
  | some .directory => pure ()
  | some (.file _) => throw (if path = target then .alreadyExists else .notADirectory)
  | none => do
    check id ((refuses path).forM fun e => throw e)
    put path (some .directory)

/-- `fs::create_dir_all`. -/
def createDirAll (path : Path) : FilesM Unit := path.inits.forM (createDir refuses path)

/-- `fs::write`, and `File::create` with `write_all`. -/
def write (path : Path) (bytes : List UInt8) : FilesM Unit := do
  match ← entry refuses path with
  | some .directory => throw .isADirectory
  | some (.file _) | none => put path (some (.file bytes))

/-- `fs::rename` of a file. -/
def rename (source target : Path) : FilesM Unit := do
  let bytes ← read refuses source
  match ← entry refuses target with
  | some .directory => throw .isADirectory
  | some (.file _) | none => do
    put source none
    put target (some (.file bytes))

/-- `fs::remove_file`. -/
def removeFile (path : Path) : FilesM Unit := do
  let _ ← read refuses path
  put path none

end Files
