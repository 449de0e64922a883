import Susm.Supervisor.LogDisk
import Susm.Supervisor.LogEntry

/-!
# The writer of log segments

`run_writer` takes chunks, ticks of a timer and changes of the logging policy.
It closes a segment that would grow too large or has been open for too long,
and looks after retention.
-/

namespace Susm.Supervisor

open Susm.Foundation
open Susm.Foundation.Retention
open Susm.Protocol

/-! ## Buffers -/

/-- A buffer in front of a file, with the bytes written to the file so far. -/
structure BufWriter where
  path : LogPath
  written : Nat
  buffer : List UInt8
  deriving DecidableEq, Repr

namespace BufWriter

/-- The default capacity of the standard library. -/
def capacity : Nat := 8 * 1024

def spareCapacity (self : BufWriter) : Nat := capacity - self.buffer.length

def appendOp (self : BufWriter) (bytes : List UInt8) : DiskOp :=
  .append self.path self.written bytes

def flushBuf (self : BufWriter) : List DiskOp × BufWriter :=
  if self.buffer = [] then ([], self)
  else
    ([self.appendOp self.buffer],
      { self with
        written := self.written + self.buffer.length
        buffer := [] })

/-- Bytes that do not fit make room; too many of them are not buffered. -/
def writeAll (self : BufWriter) (bytes : List UInt8) :
    List DiskOp × BufWriter :=
  if bytes.length < self.spareCapacity then
    ([], { self with buffer := self.buffer ++ bytes })
  else
    let (ops, self) :=
      if bytes.length > self.spareCapacity then self.flushBuf else ([], self)
    if bytes.length ≥ capacity then
      (ops ++ [self.appendOp bytes],
        { self with written := self.written + bytes.length })
    else (ops, { self with buffer := self.buffer ++ bytes })

end BufWriter

/-! ## The world of the writer -/

/-- What stays the same while the writer runs. -/
structure LogMachine where
  components : String → LogPath
  zstd : Zstd
  processId : Nat

/-- The clocks, the failures and what retention finds, in one turn. -/
structure LogHost where
  instant : Nat
  timestamp : String
  fails : DiskOp → Bool
  retention : RetentionHost

/-- A call of `finish` with a segment that is open. -/
structure FinishCall where
  path : LogPath
  writer : BufWriter
  disk : Disk

/-- A call of `apply_retention`. -/
structure RetentionCall where
  configuration : ExecutionConfiguration
  host : RetentionHost

/-- The files, and the calls that were made so far. -/
structure LogWorld where
  disk : Disk
  finished : List FinishCall
  retained : List RetentionCall

abbrev LogIo := Stateful LogWorld LogError

section Operations

variable (machine : LogMachine) (host : LogHost)

def RetentionCall.removals (call : RetentionCall) :
    Removals LogPath LogError Unit :=
  applyRetention (machine.components call.configuration.logDirectory)
    call.configuration call.host

def perform (op : DiskOp) : LogIo Unit :=
  ExceptT.mk fun world =>
    if host.fails op then (.error .io, world)
    else
      match world.disk.apply machine.zstd op with
      | .ok disk => (.ok (), { world with disk := disk })
      | .error error => (.error error, world)

def performAll : List DiskOp → LogIo Unit
  | [] => return
  | op :: ops => do
      perform machine host op
      performAll ops

def retain (configuration : ExecutionConfiguration) : LogIo Unit :=
  ExceptT.mk fun world =>
    let call : RetentionCall := ⟨configuration, host.retention⟩
    let removals := call.removals machine
    (removals.result,
      { world with
        disk := removals.paths.foldl (fun disk path => disk.erase path)
          world.disk
        retained := world.retained ++ [call] })

end Operations

/-! ## Segments -/

structure SegmentWriter where
  path : LogPath
  writer : Option BufWriter
  bytes : Nat
  opened : Nat
  deriving DecidableEq, Repr

namespace SegmentWriter

variable (machine : LogMachine) (host : LogHost)

def openSegment (configuration : ExecutionConfiguration)
    (segment : Nat) : LogIo SegmentWriter := do
  let path := machine.components configuration.logDirectory ++
    [openName host.timestamp segment]
  perform machine host (.createNew path)
  return {
    path := path
    writer := some ⟨path, 0, []⟩
    bytes := 0
    opened := host.instant }

/-- Times are in nanoseconds, the age that is allowed in milliseconds. -/
def shouldRotate (self : SegmentWriter) (nextBytes : Nat)
    (configuration : ExecutionConfiguration) : Bool :=
  self.bytes ≠ 0 ∧
    (saturatingAdd (2 ^ 64) self.bytes nextBytes >
        configuration.segmentSize ∨
      host.instant - self.opened ≥ configuration.segmentAgeMs * 10 ^ 6)

def write (self : SegmentWriter) (bytes : List UInt8) :
    LogIo SegmentWriter :=
  match self.writer with
  | none => throw .noWriter
  | some writer => do
      let (ops, writer) := writer.writeAll bytes
      performAll machine host ops
      return { self with
        writer := some writer
        bytes := saturatingAdd (2 ^ 64) self.bytes bytes.length }

def flush (self : SegmentWriter) : LogIo SegmentWriter :=
  match self.writer with
  | none => throw .noWriter
  | some writer => do
      let (ops, writer) := writer.flushBuf
      performAll machine host ops
      return { self with writer := some writer }

end SegmentWriter

/-- What is done with a segment once its buffer is flushed. -/
def closingOps (machine : LogMachine) (path : LogPath) : List DiskOp :=
  let finalized := finalizedPath path
  let compressed := compressedPath finalized
  let temporary := temporaryPath machine.processId finalized
  [.syncAll path, .rename path finalized, .openRead finalized,
    .create temporary, .copyEncode finalized temporary, .syncAll temporary,
    .rename temporary compressed, .removeFile finalized]

def FinishCall.ops (machine : LogMachine) (call : FinishCall) : List DiskOp :=
  call.writer.flushBuf.1 ++ closingOps machine call.path

def SegmentWriter.finish (machine : LogMachine) (host : LogHost)
    (self : SegmentWriter) : LogIo SegmentWriter :=
  match self.writer with
  | none => return self
  | some writer => do
      let call : FinishCall := ⟨self.path, writer, (← get).disk⟩
      modify fun world =>
        { world with finished := world.finished ++ [call] }
      performAll machine host (call.ops machine)
      return { self with writer := none }

/-! ## The loop -/

def applyLoggingPolicy (configuration : ExecutionConfiguration)
    (update : PolicyUpdate) : ExecutionConfiguration :=
  { configuration with
    captureLogs := update.captureLogs
    segmentSize := update.segmentSize
    segmentAgeMs := update.segmentAgeMs
    retentionSize := update.retentionSize
    retentionSizeUnlimited := update.retentionSizeUnlimited
    retentionAgeMs := update.retentionAgeMs
    retentionAgeUnlimited := update.retentionAgeUnlimited }

/-- What a turn of the loop is about. -/
inductive WriterEvent where
  | chunk (chunk : OutputChunk)
  | tick
  | policyChanged (update : Option PolicyUpdate)
  | policyClosed
  deriving Repr

/-- The variables of `run_writer`. -/
structure WriterLocals where
  configuration : ExecutionConfiguration
  nextSegment : Nat
  writer : Option SegmentWriter
  policyOpen : Bool

namespace WriterLocals

variable (machine : LogMachine) (host : LogHost)

/-- Open the next segment; the number is a `u32` that wraps. -/
def openNext (locals : WriterLocals) : LogIo WriterLocals := do
  let writer ← SegmentWriter.openSegment machine host locals.configuration
    locals.nextSegment
  return { locals with
    writer := some writer
    nextSegment := (locals.nextSegment + 1) % 2 ^ 32 }

def createDirectory (locals : WriterLocals) : LogIo Unit :=
  perform machine host
    (.createDirAll (machine.components locals.configuration.logDirectory))

def rotate (locals : WriterLocals) (writer : SegmentWriter) :
    LogIo WriterLocals := do
  let _ ← writer.finish machine host
  retain machine host locals.configuration
  locals.openNext machine host

def writeEntry (locals : WriterLocals) (entry : List UInt8) :
    LogIo WriterLocals :=
  match locals.writer with
  | none => throw .noWriter
  | some writer => do
      let writer ← writer.write machine host entry
      return { locals with writer := some writer }

def receiveChunk (locals : WriterLocals) (chunk : OutputChunk) :
    LogIo WriterLocals :=
  match locals.writer with
  | none => return locals
  | some writer => do
      let entry := encodeEntry locals.configuration chunk
      let locals ←
        if writer.shouldRotate host entry.length locals.configuration then
          locals.rotate machine host writer
        else pure locals
      locals.writeEntry machine host entry

def tick (locals : WriterLocals) : LogIo WriterLocals :=
  match locals.writer with
  | none => return locals
  | some writer => do
      let writer ← writer.flush machine host
      if writer.shouldRotate host 0 locals.configuration then
        locals.rotate machine host writer
      else return { locals with writer := some writer }

/-- Capturing may end or begin, or a limit may have been passed. -/
def adjustWriter (locals : WriterLocals) : LogIo WriterLocals :=
  match locals.configuration.captureLogs, locals.writer with
  | false, some active => do
      let _ ← active.finish machine host
      return { locals with writer := none }
  | true, none => do
      locals.createDirectory machine host
      locals.openNext machine host
  | true, some active =>
      if active.shouldRotate host 0 locals.configuration then do
        let _ ← active.finish machine host
        locals.openNext machine host
      else return locals
  | false, none => return locals

def changePolicy (locals : WriterLocals) (update : PolicyUpdate) :
    LogIo WriterLocals := do
  let locals ← { locals with
    configuration := applyLoggingPolicy locals.configuration update
  }.adjustWriter machine host
  if locals.configuration.captureLogs then
    retain machine host locals.configuration
  return locals

def handle (locals : WriterLocals) : WriterEvent → LogIo WriterLocals
  | .chunk chunk => locals.receiveChunk machine host chunk
  | .tick => locals.tick machine host
  | .policyChanged none => return locals
  | .policyChanged (some update) =>
      if locals.policyOpen then locals.changePolicy machine host update
      else return locals
  | .policyClosed => return { locals with policyOpen := false }

/-- Before the first turn. -/
def start (configuration : ExecutionConfiguration) : LogIo WriterLocals := do
  let locals : WriterLocals := ⟨configuration, 0, none, true⟩
  if configuration.captureLogs then
    locals.createDirectory machine host
    locals.openNext machine host
  else return locals

/-- After the last chunk. -/
def close (locals : WriterLocals) : LogIo Unit :=
  match locals.writer with
  | none => return
  | some writer => do
      let _ ← writer.finish machine host
      retain machine host locals.configuration

end WriterLocals

/-- The state behind some turns.  Each comes with what the host answers. -/
def afterTurns (machine : LogMachine) (configuration : ExecutionConfiguration)
    (first : LogHost) (turns : List (WriterEvent × LogHost)) :
    LogIo WriterLocals := do
  let locals ← WriterLocals.start machine first configuration
  turns.foldlM (fun locals turn => locals.handle machine turn.2 turn.1) locals

def runWriter (machine : LogMachine) (configuration : ExecutionConfiguration)
    (first : LogHost) (turns : List (WriterEvent × LogHost))
    (last : LogHost) : LogIo Unit := do
  let locals ← afterTurns machine configuration first turns
  locals.close machine last

end Susm.Supervisor
