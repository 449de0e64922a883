import Susm.Foundation.Decimal
import Susm.Foundation.Map
import Susm.Foundation.Stateful
import Susm.Supervisor.Journal
import Susm.Supervisor.LogRetention

/-!
# The files of a log directory

The operations on files that a segment goes through, and its four names: open,
finalized, compressed, and the temporary one while it is compressed.
-/

namespace Susm.Supervisor

open Susm.Foundation

abbrev Disk := Map LogPath (List UInt8)

/-- The Zstandard library, which gives back what was compressed. -/
structure Zstd where
  encode : List UInt8 → List UInt8
  decode : List UInt8 → Option (List UInt8)
  decode_encode : ∀ bytes, decode (encode bytes) = some bytes

inductive DiskOp where
  | createDirAll (directory : LogPath)
  | createNew (path : LogPath)
  | append (path : LogPath) (offset : Nat) (bytes : List UInt8)
  | syncAll (path : LogPath)
  | rename (source target : LogPath)
  | openRead (path : LogPath)
  | create (path : LogPath)
  | copyEncode (source target : LogPath)
  | removeFile (path : LogPath)
  deriving DecidableEq, Repr

/-- What an operation makes of the files, unless it fails. -/
def Disk.apply (zstd : Zstd) (disk : Disk) : DiskOp → Except LogError Disk
  | .createDirAll _ => .ok disk
  | .createNew path =>
      if (disk.lookup path).isSome then .error .io
      else .ok (disk.insert path [])
  | .append path offset bytes =>
      -- what is written to a file that was removed is lost with it
      if offset + bytes.length < fileLimit then
        .ok (disk.modify path fun content => content ++ bytes)
      else .error .io
  | .syncAll _ => .ok disk
  | .rename source target =>
      match disk.lookup source with
      | some content => .ok ((disk.erase source).insert target content)
      | none => .error .io
  | .openRead path =>
      if (disk.lookup path).isSome then .ok disk else .error .io
  | .create path => .ok (disk.insert path [])
  | .copyEncode source target =>
      match disk.lookup source with
      | some content => .ok (disk.insert target (zstd.encode content))
      | none => .error .io
  | .removeFile path =>
      if (disk.lookup path).isSome then .ok (disk.erase path)
      else .error .io

/-- Several operations in order. -/
def Disk.applyAll (zstd : Zstd) (disk : Disk) (ops : List DiskOp) :
    Except LogError Disk :=
  ops.foldlM (fun disk op => disk.apply zstd op) disk

/-! ## Names -/

def withName (change : List Char → List Char) (path : LogPath) : LogPath :=
  path.dropLast ++
    (path.getLast?.map fun name =>
      String.ofList (change name.toList)).toList

theorem withName_append (change : List Char → List Char)
    (directory : LogPath) (name : String) :
    withName change (directory ++ [name]) =
      directory ++ [String.ofList (change name.toList)] := by
  simp [withName]

/-- `path.with_extension("")` -/
def finalizedPath (path : LogPath) : LogPath := withName withoutExtension path

def appendedExtension (path : LogPath) (extension : List Char) : LogPath :=
  withName (fun name => name ++ extension) path

def compressedPath (finalized : LogPath) : LogPath :=
  appendedExtension finalized ".zst".toList

def temporaryPath (processId : Nat) (finalized : LogPath) : LogPath :=
  appendedExtension finalized
    (".zst.".toList ++ Decimal.write processId ++ ".tmp".toList)

def segmentStem (timestamp : String) (segment : Nat) : List Char :=
  timestamp.toList ++ '-' :: Decimal.writePadded 6 segment

def finalizedName (timestamp : String) (segment : Nat) : List Char :=
  segmentStem timestamp segment ++ ".susm-journal".toList

def openName (timestamp : String) (segment : Nat) : String :=
  String.ofList (finalizedName timestamp segment ++ ".open".toList)

theorem finalizedPath_open (directory : LogPath) (timestamp : String)
    (segment : Nat) :
    finalizedPath (directory ++ [openName timestamp segment]) =
      directory ++ [String.ofList (finalizedName timestamp segment)] := by
  have hne : finalizedName timestamp segment ≠ [] := by
    simp [finalizedName, segmentStem]
  have hname : (openName timestamp segment).toList =
      finalizedName timestamp segment ++ '.' :: "open".toList := by
    simp [openName]
  rw [finalizedPath, withName_append, hname,
    withoutExtension_append hne (by decide)]

def segmentNumber (path : LogPath) : Option Nat := do
  let name ← path.getLast?
  let stem := withoutExtension (withoutExtension name.toList)
  let (reversed, _) ← splitOnce '-' stem.reverse
  Decimal.parse (2 ^ 32) reversed.reverse

theorem segmentNumber_open (directory : LogPath) (timestamp : String)
    {segment : Nat} (h : segment < 2 ^ 32) :
    segmentNumber (directory ++ [openName timestamp segment]) =
      some segment := by
  have hopen : withoutExtension (openName timestamp segment).toList =
      finalizedName timestamp segment := by
    rw [openName, String.toList_ofList]
    exact withoutExtension_append (by simp [finalizedName]) (by decide)
  have hfinalized : withoutExtension (finalizedName timestamp segment) =
      segmentStem timestamp segment :=
    withoutExtension_append (by simp [segmentStem]) (by decide)
  have hdigits : '-' ∉ (Decimal.writePadded 6 segment).reverse := by
    intro hmem
    have hdigit := Decimal.isDigit_of_mem_writePadded (List.mem_reverse.mp hmem)
    exact absurd hdigit (by decide)
  have hreverse : (segmentStem timestamp segment).reverse =
      (Decimal.writePadded 6 segment).reverse ++
        '-' :: timestamp.toList.reverse := by
    simp [segmentStem]
  rw [segmentNumber, List.getLast?_concat]
  simp only [Option.bind_eq_bind, Option.bind_some, hopen, hfinalized,
    hreverse, splitOnce_append hdigits, List.reverse_reverse]
  exact Decimal.parse_writePadded h 6

end Susm.Supervisor
