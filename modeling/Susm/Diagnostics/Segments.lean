import Mathlib.Data.String.Basic
import Susm.Foundation.Counters
import Susm.Foundation.FileNames
import Susm.Foundation.Integers
import Susm.Foundation.OrderedMap
import Susm.Foundation.Retention
import Susm.Foundation.Validation

/-!
# Diagnostic records and segments

An event is written as one line of JSON that says which component it is from.
Lines are collected in segments; a segment is closed before a line that would
make it too long, so that no line is ever divided between two.  Closed segments
are removed when they are old or take up too much space.
-/

namespace Susm.Diagnostics

open Susm.Foundation
open Susm.Foundation.Retention

abbrev Bytes := List UInt8

/-! ## Records -/

inductive Component where
  | host
  | controller
  | supervisor
  deriving DecidableEq, Repr

def Component.name : Component → String
  | .host => "host"
  | .controller => "controller"
  | .supervisor => "supervisor"

/-- `serde_json::Value`; a number is kept as its digits. -/
inductive Value where
  | null
  | bool (value : Bool)
  | number (digits : String)
  | string (value : String)
  | array (items : List Value)
  | object (fields : List (String × Value))

namespace Value

def get (fields : List (String × Value)) (key : String) : Option Value :=
  (fields.find? fun field => field.1 = key).map Prod.snd

def asObject : Value → Option (List (String × Value))
  | .object fields => some fields
  | _ => none

def asString : Value → Option String
  | .string value => some value
  | _ => none

end Value

/--
What a process brings with it: its component and its identifier, and the JSON
library, which reads text that may not be JSON and writes any value.
-/
structure Setup where
  component : Component
  pid : Nat
  fromSlice : Bytes → Option Value
  toVec : Value → Bytes

/-- `normalize_record` -/
def Setup.normalizeRecord (setup : Setup) (bytes : Bytes) : Option Bytes := do
  let value ← setup.fromSlice bytes
  let fields ← value.asObject
  let fields := OrderedMap.insertEntry "component"
    (.string setup.component.name) fields
  let fields := OrderedMap.insertEntry "pid" (.number (toString setup.pid))
    fields
  let name := (do
    let inner ← Value.get fields "fields" >>= Value.asObject
    Value.get inner "name" >>= Value.asString).getD "event"
  let fields := OrderedMap.insertEntry "name" (.string name) fields
  return setup.toVec (.object fields) ++ [10]

/-- `dropped_record` at a time. -/
def Setup.droppedRecord (setup : Setup) (timestamp : String) (dropped : Nat) :
    Bytes :=
  setup.toVec (.object
    [("component", .string setup.component.name),
      ("fields", .object [("count", .number (toString dropped))]),
      ("level", .string "WARN"),
      ("name", .string "diagnostics_dropped"),
      ("pid", .number (toString setup.pid)),
      ("target", .string "susm_diagnostics"),
      ("timestamp", .string timestamp)]) ++ [10]

/-! ## Retention -/

/-- `RETENTION_BYTES` -/
def retentionBytes : Nat := 256 * 1024 * 1024

/-- `RETENTION_AGE`, in nanoseconds. -/
def retentionAge : Nat := 7 * 24 * 60 * 60 * 10 ^ 9

def retentionLimits : Limits := ⟨some retentionAge, some retentionBytes⟩

/-- The size of a file, and when it was modified, if that can be read. -/
structure Metadata where
  modified : Option Int
  bytes : Nat
  deriving DecidableEq, Repr

structure DirectoryEntry where
  name : String
  metadata : Option Metadata
  deriving DecidableEq, Repr

/-- An entry that is a candidate; one that cannot be read is passed by. -/
def finalizedFile (entry : DirectoryEntry) : Option (FinalizedFile String) :=
  if fileExtension entry.name.toList ≠ some "jsonl".toList then none
  else do
    let metadata ← entry.metadata
    let modified ← metadata.modified
    return ⟨entry.name, modified, metadata.bytes, false⟩

def finalizedFiles (entries : List (Option DirectoryEntry)) :
    List (FinalizedFile String) :=
  (entries.filterMap id).filterMap finalizedFile

def applyRetention {Error : Type} (remove : String → Except Error Unit)
    (now : Int) (directory : Except Error (List (Option DirectoryEntry))) :
    Removals String Error Unit :=
  match directory with
  | .error error => ⟨[], .error error⟩
  | .ok entries =>
      applyLimits remove retentionLimits now (finalizedFiles entries)

/-! ## Segments -/

/-- `SEGMENT_BYTES` -/
def segmentBytes : Nat := 16 * 1024 * 1024

/-- The capacity of a `BufWriter`; a record of this length is not buffered. -/
def bufferBytes : Nat := 8 * 1024

/-- A record, or the bytes at its start that a failed write has left. -/
inductive Piece where
  | whole (record : Bytes)
  | cut (record : Bytes) (length : Nat)
  deriving DecidableEq, Repr

namespace Piece

def record : Piece → Bytes
  | .whole record | .cut record _ => record

def isWhole : Piece → Bool
  | .whole _ => true
  | .cut .. => false

/-- What the segment counts. -/
def size : Piece → Nat
  | .whole record => record.length
  | .cut .. => 0

end Piece

/-- The open segment; its writer is taken when it is finished. -/
structure Segment where
  pieces : List Piece
  bytes : Nat
  hasWriter : Bool
  deriving DecidableEq, Repr

def Segment.opened : Segment := ⟨[], 0, true⟩

/-- A segment that was renamed, and whether it has been removed since. -/
structure ClosedSegment where
  name : String
  pieces : List Piece
  removed : Bool
  deriving DecidableEq, Repr

/-- The closed segments, in the order in which they were closed, and the open
one. -/
structure Disk where
  closed : List ClosedSegment
  segment : Segment
  deriving DecidableEq, Repr

/-- What the surroundings decide of one access to the disk. -/
structure Access where
  /-- The segment is as old as it may get. -/
  aged : Bool
  /-- It can be flushed and renamed, or removed while it is empty. -/
  finished : Bool
  /-- The name that it gets. -/
  name : String
  /-- What retention finds in the directory, if that can be read. -/
  directory : Option (List (Option DirectoryEntry))
  /-- The files that it cannot remove. -/
  locked : List String
  /-- The wall clock, in nanoseconds. -/
  now : Int
  /-- A new segment can be opened. -/
  reopened : Bool
  /-- The record can be written, or the segment flushed. -/
  written : Bool
  /-- How much of the record a failed write leaves. -/
  left : Nat
  /-- The wall clock, in a record. -/
  timestamp : String
  deriving DecidableEq, Repr

/-- How an access to the disk ends. -/
inductive Written where
  | done
  | failed
  | panicked
  deriving DecidableEq, Repr

/-- `apply_retention` -/
def Access.retention (access : Access) : Removals String Unit Unit :=
  applyRetention
    (fun name => if name ∈ access.locked then .error () else .ok ())
    access.now (orError access.directory ())

def Access.leftOf (access : Access) (record : Bytes) : List Piece :=
  if bufferBytes ≤ record.length ∧ 0 < access.left then
    [.cut record access.left]
  else []

namespace Disk

def shouldRotate (access : Access) (disk : Disk) (nextBytes : Nat) : Bool :=
  disk.segment.bytes ≠ 0 ∧
    (segmentBytes < saturatingAdd (2 ^ 64) disk.segment.bytes nextBytes ∨
      access.aged)

/-- Files of these names are no longer there. -/
def without (names : List String) (disk : Disk) : Disk :=
  { disk with
    closed := disk.closed.map fun segment =>
      if segment.name ∈ names then { segment with removed := true }
      else segment }

/-- The segment is renamed; a file that has its name is replaced. -/
def close (name : String) (disk : Disk) : Disk :=
  { disk with
    closed := (disk.without [name]).closed ++
      [⟨name, disk.segment.pieces, false⟩] }

/-- `Segment::finish`, which closes a segment that is not empty. -/
def finish (access : Access) (disk : Disk) : Bool × Disk :=
  if !disk.segment.hasWriter then (true, disk)
  else
    let taken :=
      { disk with segment := { disk.segment with hasWriter := false } }
    if disk.segment.bytes = 0 then (access.finished, taken)
    else if access.finished then (true, taken.close access.name)
    else (false, taken)

def retain (access : Access) (disk : Disk) : Disk :=
  disk.without access.retention.paths

def rotate (access : Access) (disk : Disk) : Bool × Disk :=
  match disk.finish access with
  | (false, disk) => (false, disk)
  | (true, disk) =>
      match access.retention.result with
      | .error () => (false, disk.retain access)
      | .ok () =>
          if access.reopened then
            (true, { disk.retain access with segment := .opened })
          else (false, disk.retain access)

/-- `Segment::write` -/
def write (access : Access) (disk : Disk) (record : Bytes) : Written × Disk :=
  if !disk.segment.hasWriter then (.panicked, disk)
  else if access.written then
    (.done,
      { disk with
        segment :=
          { disk.segment with
            pieces := disk.segment.pieces ++ [.whole record]
            bytes := saturatingAdd (2 ^ 64) disk.segment.bytes
              record.length } })
  else
    (.failed,
      { disk with
        segment :=
          { disk.segment with
            pieces := disk.segment.pieces ++ access.leftOf record } })

def writeRecord (access : Access) (disk : Disk) (record : Bytes) :
    Written × Disk :=
  if disk.shouldRotate access record.length then
    match disk.rotate access with
    | (false, disk) => (.failed, disk)
    | (true, disk) => disk.write access record
  else disk.write access record

/-- `Segment::flush`, and the rotation of a segment that has become too old. -/
def tick (access : Access) (disk : Disk) : Written × Disk :=
  if !disk.segment.hasWriter then (.panicked, disk)
  else if !access.written then (.failed, disk)
  else if disk.shouldRotate access 0 then
    match disk.rotate access with
    | (rotated, disk) => (if rotated then .done else .failed, disk)
  else (.done, disk)

/-- The segment is finished and retention applied, whatever fails. -/
def conclude (access : Access) (disk : Disk) : Disk :=
  (disk.finish access).2.retain access

end Disk

end Susm.Diagnostics
