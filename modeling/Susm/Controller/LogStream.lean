import Susm.Controller.LogReader
import Susm.Supervisor.SegmentWriter

/-!
# Reading logs while they are written

`stream_log_files` lists the directories of a workload and reads the files in
them one after another, while supervisors write and finish segments there and
retention removes files.  Each step of a party is one event, and the events may
come in any order.
-/

namespace Susm.Controller

open Susm.Foundation
open Susm.Protocol
open Susm.Supervisor

/-! ## The files of a workload -/

/-- A segment by its directory and its name. -/
structure Segment where
  executionId : String
  attempt : UInt32
  timestamp : String
  number : UInt32
  deriving DecidableEq, Repr

/-- The names that a segment has in its life. -/
inductive FileKind where
  | opened
  | finalized
  | temporary
  | compressed
  deriving DecidableEq, Repr

def attemptPrefix : List Char := "attempt-".toList

/-- `format!("attempt-{attempt:06}")` -/
def attemptName (attempt : Nat) : String :=
  String.ofList (attemptPrefix ++ Decimal.writePadded 6 attempt)

def attemptNumber (name : String) : Nat :=
  ((name.toList.dropPrefix? attemptPrefix).bind
    (Decimal.parse (2 ^ 32))).getD 0

/--
The logs of a workload: the chunks of each segment, and the process and the
configuration it is written with.  Within an attempt the chunks are numbered by
one counter.
-/
structure LogTree where
  root : LogPath
  zstd : Zstd
  processId : Segment → Nat
  configuration : Segment → ExecutionConfiguration
  chunks : Segment → List OutputChunk
  workload_line : ∀ segment,
    '\n' ∉ (configuration segment).workloadId.toList
  execution_line : ∀ segment,
    '\n' ∉ (configuration segment).executionId.toList
  sequences : ∀ first second, first.executionId = second.executionId →
    first.attempt = second.attempt →
    ∀ one ∈ chunks first, ∀ two ∈ chunks second,
      one.sequence = two.sequence → one = two

namespace LogTree

variable (tree : LogTree) (segment : Segment)

def directory : LogPath :=
  tree.root ++ [segment.executionId, attemptName segment.attempt.toNat]

def suffix : FileKind → List Char
  | .opened => ".open".toList
  | .finalized => []
  | .temporary =>
      ".zst.".toList ++ Decimal.write (tree.processId segment) ++
        ".tmp".toList
  | .compressed => ".zst".toList

def fileName (kind : FileKind) : String :=
  String.ofList (finalizedName segment.timestamp segment.number.toNat ++
    tree.suffix segment kind)

def path (kind : FileKind) : LogPath :=
  tree.directory segment ++ [tree.fileName segment kind]

def journal : List UInt8 :=
  (tree.chunks segment).flatMap (encodeEntry (tree.configuration segment))

def records : List ReadLogsResponse :=
  (tree.chunks segment).map
    (logRecord segment.executionId segment.attempt.toNat)

def machine : LogMachine where
  components _ := tree.directory segment
  zstd := tree.zstd
  processId := tree.processId segment

/-- What `finish` does once the buffer is flushed. -/
def closing : List DiskOp :=
  closingOps (tree.machine segment) (tree.path segment .opened)

end LogTree

/-! ## The query -/

structure ReadLogsRequest where
  executionId : String
  attempt : Nat
  stream : String
  follow : Bool
  deriving DecidableEq, Repr

namespace ReadLogsRequest

variable (request : ReadLogsRequest)

def skipsExecution (executionId : String) : Bool :=
  request.executionId ≠ "" ∧ request.executionId ≠ executionId

def skipsAttempt (number : Nat) : Bool :=
  request.attempt ≠ 0 ∧ request.attempt ≠ number

def skipsStream (stream : String) : Bool :=
  request.stream ≠ "all" ∧ request.stream ≠ stream

end ReadLogsRequest

def ReadLogsResponse.identity (record : ReadLogsResponse) :
    String × Nat × Nat × String :=
  (record.executionId, record.attempt, record.sequence, record.stream)

inductive ReadLogsError where
  | notFound
  | invalidData
  deriving DecidableEq, Repr

/-- A round of one of the four nested loops. -/
inductive LogTask where
  | execution (executionId : String)
  | attempt (executionId name : String)
  | file (executionId attempt name : String)
  | record (record : ReadLogsResponse)
  deriving DecidableEq, Repr

inductive QueryPoint where
  | pass
  | reading (tasks : List LogTask)
  | asleep
  | done (result : Except ReadLogsError Unit)
  deriving DecidableEq, Repr

/-- Bytes of a file that are decoded, `none` where they are not a frame. -/
def fileBytes (zstd : Zstd) (name : String) (bytes : List UInt8) :
    Option (List UInt8) :=
  if (fileExtension name.toList).any fun extension =>
      extension.map Char.toLower = "zst".toList
  then zstd.decode bytes
  else some bytes

/-! ## The system -/

/-- How much of a segment was flushed, or how far the call of `finish` is. -/
inductive Stage where
  | writing (size : Nat)
  | closing (count : Nat)
  deriving DecidableEq, Repr

/-- The files and the segments that were opened, whether the client has hung
up, and the query. -/
structure LogState where
  disk : Disk
  stages : Map Segment Stage
  closed : Bool
  point : QueryPoint
  seen : List (String × Nat × Nat × String)
  delivered : List ReadLogsResponse

def LogState.initial : LogState := ⟨∅, ∅, false, .pass, [], []⟩

inductive LogEvent where
  | openSegment (segment : Segment)
  | write (segment : Segment) (size : Nat)
  | finish (segment : Segment)
  /-- The temporary file while it is compressed. -/
  | copy (segment : Segment) (bytes : List UInt8)
  | close (segment : Segment)
  | retain (path : LogPath)
  | hangUp
  /-- A step of the query, with what a directory is listed as. -/
  | read (names : List String)
  deriving DecidableEq, Repr

namespace LogState

variable (tree : LogTree) (request : ReadLogsRequest) (state : LogState)

/-- The records of the segments that were opened. -/
def records : List ReadLogsResponse :=
  state.stages.keys.flatMap tree.records

def entries (directory : LogPath) : List String :=
  (state.disk.keys ++ state.stages.keys.map tree.directory).filterMap
    fun path => if directory <+: path then path[directory.length]? else none

/-- A directory is listed at once, in any order. -/
def Lists (directory : LogPath) (names : List String) : Prop :=
  (∀ name ∈ names, name ∈ state.entries tree directory) ∧
    ∀ name ∈ state.entries tree directory, name ∈ names

instance (directory : LogPath) (names : List String) :
    Decidable (state.Lists tree directory names) :=
  inferInstanceAs (Decidable (_ ∧ _))

/-! ### Writers and retention -/

def openSegment (segment : Segment) : Option LogState :=
  match state.stages.lookup segment,
      state.disk.apply tree.zstd (.createNew (tree.path segment .opened)) with
  | none, .ok disk =>
      some { state with
        disk := disk
        stages := state.stages.insert segment (.writing 0) }
  | _, _ => none

def write (segment : Segment) (size : Nat) : Option LogState :=
  match state.stages.lookup segment with
  | some (.writing count) =>
      if count ≤ size ∧ size ≤ (tree.journal segment).length then
        (state.disk.apply tree.zstd (.append (tree.path segment .opened) count
          (((tree.journal segment).take size).drop count))).toOption.map
            fun disk =>
              { state with
                disk := disk
                stages := state.stages.insert segment (.writing size) }
      else none
  | _ => none

/-- The buffer is flushed. -/
def finish (segment : Segment) : Option LogState :=
  if state.stages.lookup segment =
      some (.writing (tree.journal segment).length) then
    some { state with
      stages := state.stages.insert segment (.closing 0) }
  else none

/-- The position of the copy in `finish`. -/
def copying : Nat := 4

def copy (segment : Segment) (bytes : List UInt8) : Option LogState :=
  if state.stages.lookup segment = some (.closing copying) then
    some { state with
      disk := state.disk.modify (tree.path segment .temporary)
        fun _ => bytes }
  else none

/-- The files after the next operation of `finish`.  Both files of the copy are
open already, so that it does not fail when one of them is removed. -/
def closeDisk (segment : Segment) (count : Nat) : Option Disk :=
  match (tree.closing segment)[count]? with
  | none => none
  | some (.copyEncode _ target) =>
      some (state.disk.modify target fun _ =>
        tree.zstd.encode (tree.journal segment))
  | some op => (state.disk.apply tree.zstd op).toOption

def close (segment : Segment) : Option LogState :=
  match state.stages.lookup segment with
  | some (.closing count) =>
      (state.closeDisk tree segment count).map fun disk =>
        { state with
          disk := disk
          stages := state.stages.insert segment (.closing (count + 1)) }
  | _ => none

def retain (path : LogPath) : Option LogState :=
  (state.disk.apply tree.zstd (.removeFile path)).toOption.map fun disk =>
    { state with disk := disk }

/-! ### The query -/

/-- All files have been read. -/
def endPass : LogState :=
  { state with
    point := if request.follow then .asleep else .done (.ok ()) }

def readExecution (executionId : String) (names : List String)
    (rest : List LogTask) : Option LogState :=
  if request.skipsExecution executionId then
    some { state with point := .reading rest }
  else if state.Lists tree (tree.root ++ [executionId]) names then
    some { state with
      point := .reading (names.map (.attempt executionId) ++ rest) }
  else none

def readAttempt (executionId name : String) (names : List String)
    (rest : List LogTask) : Option LogState :=
  if request.skipsAttempt (attemptNumber name) then
    some { state with point := .reading rest }
  else if state.Lists tree (tree.root ++ [executionId, name]) names then
    some { state with
      point := .reading (names.map (.file executionId name) ++ rest) }
  else none

def readFile (executionId attempt name : String) (rest : List LogTask) :
    LogState :=
  if isJournalName name then
    match state.disk.lookup (tree.root ++ [executionId, attempt, name]) with
    | none => { state with point := .done (.error .notFound) }
    | some bytes =>
        match fileBytes tree.zstd name bytes with
        | none => { state with point := .done (.error .invalidData) }
        | some bytes =>
            { state with
              point := .reading ((decodeJournal bytes executionId
                (attemptNumber attempt)).map .record ++ rest) }
  else { state with point := .reading rest }

def readRecord (record : ReadLogsResponse) (rest : List LogTask) : LogState :=
  if request.skipsStream record.stream then
    { state with point := .reading rest }
  else if record.identity ∈ state.seen then
    { state with point := .reading rest }
  else if state.closed then
    { state with
      point := .done (.ok ())
      seen := state.seen ++ [record.identity] }
  else
    { state with
      point := .reading rest
      seen := state.seen ++ [record.identity]
      delivered := state.delivered ++ [record] }

def readTask (names : List String) (rest : List LogTask) :
    LogTask → Option LogState
  | .execution executionId =>
      state.readExecution tree request executionId names rest
  | .attempt executionId name =>
      state.readAttempt tree request executionId name names rest
  | .file executionId attempt name =>
      some (state.readFile tree executionId attempt name rest)
  | .record record => some (state.readRecord request record rest)

def read (names : List String) : Option LogState :=
  match state.point with
  | .pass =>
      -- the root is not there before the first segment
      if state.stages.keys = [] then some (state.endPass request)
      else if state.Lists tree tree.root names then
        some { state with point := .reading (names.map .execution) }
      else none
  | .reading [] => some (state.endPass request)
  | .reading (task :: rest) => state.readTask tree request names rest task
  | .asleep =>
      some { state with
        point := if state.closed then .done (.ok ()) else .pass }
  | .done _ => none

end LogState

def logStep (tree : LogTree) (request : ReadLogsRequest) (state : LogState) :
    LogEvent → Option LogState
  | .openSegment segment => state.openSegment tree segment
  | .write segment size => state.write tree segment size
  | .finish segment => state.finish tree segment
  | .copy segment bytes => state.copy tree segment bytes
  | .close segment => state.close tree segment
  | .retain path => state.retain tree path
  | .hangUp => some { state with closed := true }
  | .read names => state.read tree request names

end Susm.Controller
