import Susm.Config.Accepted
import Susm.Domain.WorkloadIds
import Susm.Foundation.Integers
import Susm.Foundation.Splitting
import Susm.Installer.Files

/-!
# Loading a configuration directory

The directory is listed, every file in it that is a definition is read, and it
is listed once more.  Others may change the files at any time, so each call of
the file system is answered by the directory as it is at that call, and what a
listing gives need never have been there at one moment.
-/

namespace Susm.Config

open Susm.Foundation
open Susm.Domain
open Susm.Installer

def maxFileBytes : Nat := 1024 * 1024

def maxTotalBytes : Nat := 16 * 1024 * 1024

def maxWorkloadFiles : Nat := 4096

inductive LoadError where
  | io (path : Path) (source : IoError)
  | missingDirectory (path : Path)
  | notRegularFile (path : Path)
  | nonUnicodeFilename (path : Path)
  | invalidWorkloadId (path : Path) (source : InvalidWorkloadId)
  | fileTooLarge (path : Path)
  | tooManyFiles
  | tooManyBytes
  | invalidUtf8 (path : Path)
  | toml (path : Path) (source : String)
  | definition (path : Path) (source : DefinitionError)
  | duplicateId (id : String) (first second : Path)
  | changedDuringRead
  /-- An `expect` that fails. -/
  | panicked (message : String)
  deriving DecidableEq, Repr

/-- What `fs::symlink_metadata` tells. -/
structure Metadata where
  isFile : Bool
  isSymlink : Bool
  len : Nat
  modified : Except IoError Nat

/-- The answers to all calls that are made, or begun, at one moment. -/
structure Folder where
  tryExists : Except IoError Bool
  /-- What a listing that begins at this moment gives, one entry after the other,
  while others change the directory; not what the directory holds now. -/
  readDir : Except IoError (List (Except IoError OsString))
  metadata : Path → Except IoError Metadata
  read : Path → Except IoError Bytes

/-- The folder that answers each call. -/
abbrev History := Nat → Folder

structure FileSnapshot where
  path : Path
  size : Nat
  modified : Nat
  deriving DecidableEq, Repr

abbrev Snapshots := OrderedMap String FileSnapshot

structure CandidateConfig where
  generation : List UInt8
  definitions : Definitions

/-! ## Names -/

/-- `rsplit_file_at_dot` with a part in front of the dot. -/
def splitStem (name : OsString) : Option (OsString × OsString) :=
  if name = osString ".." then none
  else
    match splitOnce 46 name.reverse with
    | some (reversed, first :: rest) =>
        some ((first :: rest).reverse, reversed.reverse)
    | _ => none

def extension (path : Path) : Option OsString :=
  path.getLast?.bind fun name => (splitStem name).map Prod.snd

def fileStem (path : Path) : Option OsString :=
  path.getLast?.bind fun name =>
    if name = osString ".." then none
    else some (((splitStem name).map Prod.fst).getD name)

/-- The file holds a definition. -/
def isDefinition (path : Path) : Bool :=
  ((extension path).bind toStr).any fun value => eqIgnoreAsciiCase value "toml"

def toAsciiLowercase (text : String) : String :=
  String.ofList (text.toList.map Char.toLower)

/-! ## Loading -/

section

variable (libraries : Libraries) (parse : String → Except String RawDefinition)
  (history : History) (root : Path)

/-- The checks of `enumerate` on one file. -/
def snapshotOf (path : Path) (name : OsString) (folder : Folder)
    (folded : List String) : Except LoadError (String × FileSnapshot) := do
  let metadata ← (folder.metadata path).mapError (.io path)
  failIf (metadata.isFile = false ∨ metadata.isSymlink = true)
    (.notRegularFile path)
  failIf (maxFileBytes < metadata.len) (.fileTooLarge path)
  let filename ← orError (toStr name) (.nonUnicodeFilename path)
  failIf (libraries.toUppercase filename ∈ folded) .changedDuringRead
  let modified ← metadata.modified.mapError (.io path)
  return (filename, ⟨path, metadata.len, modified⟩)

/-- The loop of `enumerate`; the number of calls so far goes through it. -/
def enumerateEntries : List (Except IoError OsString) → Nat → Snapshots →
    List String → Except LoadError (Snapshots × Nat)
  | [], calls, snapshots, _ => .ok (snapshots, calls)
  | .error source :: _, _, _, _ => .error (.io root source)
  | .ok name :: entries, calls, snapshots, folded =>
      let path := root ++ [name]
      if isDefinition path then do
        let (filename, snapshot) ←
          snapshotOf libraries path name (history calls) folded
        enumerateEntries entries (calls + 1)
          (snapshots.insert filename snapshot)
          (libraries.toUppercase filename :: folded)
      else enumerateEntries entries calls snapshots folded

def enumerate (calls : Nat) : Except LoadError (Snapshots × Nat) := do
  let entries ← (history calls).readDir.mapError (.io root)
  enumerateEntries libraries history root entries (calls + 1) .empty []

/-- The id that a file's name spells. -/
def identify (path : Path) : Except LoadError WorkloadId := do
  let stem ← orError ((fileStem path).bind toStr) (.nonUnicodeFilename path)
  (WorkloadId.parse stem).mapError (.invalidWorkloadId path)

/-- The definition that a file holds. -/
def define (path : Path) (id : WorkloadId) (bytes : Bytes) :
    Except LoadError WorkloadDefinition := do
  let source ← orError (fromUtf8 bytes) (.invalidUtf8 path)
  let raw ← (parse source).mapError (.toml path)
  (raw.intoDefinition libraries id).mapError (.definition path)

/-- No other file has given the id. -/
def rejectDuplicate (sources : List (String × Path)) (id : String)
    (path : Path) : Except LoadError Unit :=
  match sources.lookup id with
  | some first => .error (.duplicateId id first path)
  | none => .ok ()

/-- The loop of `load_directory`. -/
def loadEntries : List FileSnapshot → Nat → Definitions →
    List (String × Path) → Except LoadError (Definitions × Nat)
  | [], calls, definitions, _ => .ok (definitions, calls)
  | snapshot :: snapshots, calls, definitions, sources => do
      let path := snapshot.path
      let id ← identify path
      let normalized := toAsciiLowercase id.value
      rejectDuplicate sources normalized path
      let bytes ← ((history calls).read path).mapError (.io path)
      failIf (bytes.length ≠ snapshot.size) .changedDuringRead
      let definition ← define libraries parse path id bytes
      loadEntries snapshots (calls + 1) (definitions.insert id definition)
        ((normalized, path) :: sources)

/-- The sizes together, unless they do not fit into 64 bits. -/
def totalBytes (snapshots : Snapshots) : Option Nat :=
  snapshots.entries.foldlM
    (fun total entry => checked (2 ^ 64) (total + entry.2.size)) 0

def loadDirectory : Except LoadError CandidateConfig := do
  let present ← (history 0).tryExists.mapError (.io root)
  failIf (present = false) (.missingDirectory root)
  let (snapshots, calls) ← enumerate libraries history root 1
  failIf (maxWorkloadFiles < snapshots.entries.length) .tooManyFiles
  let total ← orError (totalBytes snapshots) .tooManyBytes
  failIf (maxTotalBytes < total) .tooManyBytes
  let (definitions, calls) ← loadEntries libraries parse history
    (snapshots.entries.map Prod.snd) calls .empty []
  let (again, _) ← enumerate libraries history root calls
  failIf (snapshots ≠ again) .changedDuringRead
  let generation ← orError (configGeneration libraries.sha256 definitions)
    (.panicked "in-memory collection length fits u64")
  return ⟨generation, definitions⟩

end

end Susm.Config
