import Susm.Foundation.Utf8
import Susm.Foundation.Utf16
import Susm.Foundation.Validation

/-!
# Files and directories

What the installer and the host see of the file system: names are UTF-16 and
are compared after the volume's upper-casing of every unit, and an entry of a
directory may be a link (a symbolic link or a junction), which some accesses
follow and others do not.
-/

namespace Susm.Installer

open Susm.Foundation

abbrev Bytes := List UInt8

/-- A file name as Windows has it; its surrogates need not stand in pairs. -/
abbrev OsString := List UInt16

def osString (text : String) : OsString := utf16 text.toList

/-- `OsStr::to_str` -/
def toStr (name : OsString) : Option String :=
  (fromUtf16 name).map String.ofList

def toStringLossy (name : OsString) : String :=
  String.ofList (fromUtf16Lossy name)

abbrev Path := List OsString

def display (path : Path) : String :=
  String.intercalate "\\" (path.map toStringLossy)

inductive IoError where
  | notFound
  | notAFile
  | system (code : Nat)
  deriving DecidableEq, Repr

inductive Target where
  | file (bytes : Bytes)
  | directory
  deriving DecidableEq, Repr

/-- An entry of a bundle or of a version directory.  A link has a length of
its own and may lead nowhere. -/
inductive Entry where
  | file (bytes : Bytes)
  | directory
  | link (length : Nat) (target : Option Target)
  deriving DecidableEq, Repr

namespace Entry

/-- `FileType::is_file` of the entry itself. -/
def isFile : Entry → Bool
  | .file _ => true
  | _ => false

def isSymlink : Entry → Bool
  | .link _ _ => true
  | _ => false

/-- `fs::symlink_metadata(..).len()` -/
def length : Entry → Nat
  | .file bytes => bytes.length
  | .directory => 0
  | .link length _ => length

/-- `fs::metadata`, which follows links. -/
def followed : Entry → Option Target
  | .file bytes => some (.file bytes)
  | .directory => some .directory
  | .link _ target => target

/-- `fs::read`, which follows links too. -/
def read (entry : Entry) : Except IoError Bytes :=
  match entry.followed with
  | some (.file bytes) => .ok bytes
  | some .directory => .error .notAFile
  | none => .error .notFound

theorem read_eq_ok {entry : Entry} {bytes : Bytes} :
    entry.read = .ok bytes ↔ entry.followed = some (.file bytes) := by
  unfold read
  split <;> simp_all

theorem eq_file_of_isFile {entry : Entry} (file : entry.isFile = true) :
    ∃ bytes, entry = .file bytes := by
  cases entry with
  | file bytes => exact ⟨bytes, rfl⟩
  | directory | link => simp [isFile] at file

end Entry

abbrev Directory := List (OsString × Entry)

section Lookup

variable (upcase : UInt16 → UInt16)

def sameName (first second : OsString) : Bool :=
  first.map upcase == second.map upcase

def findEntry (directory : Directory) (name : String) : Option Entry :=
  (directory.find? fun entry => sameName upcase entry.1 (osString name)).map
    Prod.snd

variable {upcase} {first second : OsString}

theorem sameName_refl : sameName upcase first first = true := by
  simp [sameName]

theorem sameName_comm :
    sameName upcase first second = sameName upcase second first :=
  Bool.beq_comm

theorem not_sameName_of_length (different : first.length ≠ second.length) :
    sameName upcase first second = false := by
  rw [sameName, beq_eq_false_iff_ne]
  intro same
  exact different (by simpa using congrArg List.length same)

theorem mem_of_findEntry {directory : Directory} {name : String}
    {entry : Entry} (found : findEntry upcase directory name = some entry) :
    ∃ stored, (stored, entry) ∈ directory := by
  obtain ⟨⟨stored, _⟩, hfind, rfl⟩ := Option.map_eq_some_iff.mp found
  exact ⟨stored, List.mem_of_find?_eq_some hfind⟩

/-- Names that no upper-casing makes the same. -/
def DifferentLengths (first second : String) : Prop :=
  (osString first).length ≠ (osString second).length

instance (first second : String) :
    Decidable (DifferentLengths first second) :=
  inferInstanceAs (Decidable (_ ≠ _))

theorem findEntry_cons_self {name : String} {entry : Entry}
    {rest : Directory} :
    findEntry upcase ((osString name, entry) :: rest) name = some entry := by
  simp [findEntry, sameName_refl]

theorem findEntry_cons_of_lengths {name other : String} {entry : Entry}
    {rest : Directory} (different : DifferentLengths other name) :
    findEntry upcase ((osString other, entry) :: rest) name =
      findEntry upcase rest name := by
  simp [findEntry, not_sameName_of_length different]

end Lookup

structure FileName where
  name : OsString
  short : name.length ≤ 255

def fileName? (name : OsString) : Option FileName :=
  if h : name.length ≤ 255 then some ⟨name, h⟩ else none

theorem fileName?_eq_some {name : OsString} {stored : FileName}
    (valid : fileName? name = some stored) : stored.name = name := by
  unfold fileName? at valid
  split at valid <;> cases valid
  rfl

inductive VersionNode where
  | directory (entries : Directory)
  | link (target : Option Directory)
  | other

/-- `Path::is_dir`, which follows links, and what is in the directory. -/
def VersionNode.entries? : VersionNode → Option Directory
  | .directory entries => some entries
  | .link target => target
  | .other => none

/-- The path of the pins of a version, for `directory_entry_count`. -/
inductive PinPath where
  | missing
  | directory (entries : Nat)
  | other

/-- The directory `Programs\susm` of a user. -/
structure Installation where
  versions : List (FileName × VersionNode)
  pins : OsString → PinPath
  selection : Option Entry
  bin : Option Bytes

namespace Installation

variable (upcase : UInt16 → UInt16)

def findVersion (installation : Installation) (name : OsString) :
    Option VersionNode :=
  (installation.versions.find? fun version =>
    sameName upcase version.1.name name).map Prod.snd

def place (versions : List (FileName × VersionNode)) (name : FileName)
    (directory : Directory) : List (FileName × VersionNode) :=
  (name, .directory directory) ::
    versions.filter fun version => !sameName upcase version.1.name name.name

end Installation

end Susm.Installer
