import Mathlib.Logic.Function.Basic
import Susm.Foundation.Numbered
import Susm.Foundation.Transition
import Susm.Supervisor.LogEntry

/-!
# Capturing output

Two tasks read the pipes of a process.  They take numbers from one counter and
put what they have read on one channel, from which the writer of the log takes
it.  A task never waits for the writer: what the channel does not take is
dropped.
-/

namespace Susm.Supervisor

open Susm.Foundation

/-- `OUTPUT_CHUNK_SIZE` -/
def outputChunkSize : Nat := 64 * 1024

/-- `OUTPUT_QUEUE_CHUNKS` -/
def outputQueueChunks : Nat := 128

/-- What one read has put into the buffer. -/
structure ReadPiece where
  bytes : List UInt8
  nonempty : bytes ≠ []
  small : bytes.length ≤ outputChunkSize
  deriving DecidableEq, Repr

/-- The next step of `drain_output`, or whether it has read everything. -/
inductive DrainPhase where
  | reading
  | numbering (piece : ReadPiece)
  | sending (chunk : OutputChunk)
  | returned (atEnd : Bool)
  deriving DecidableEq, Repr

/-- A pipe with its task, and all bytes that were ever written to it. -/
structure Drain where
  written : List UInt8
  pending : List UInt8
  closed : Bool
  phase : DrainPhase
  deriving Repr

namespace Drain

def fresh : Drain := ⟨[], [], false, .reading⟩

def enter (drain : Drain) (phase : DrainPhase) : Drain :=
  { drain with phase := phase }

def holding (drain : Drain) : List UInt8 :=
  match drain.phase with
  | .numbering piece => piece.bytes
  | _ => []

/-- The chunk that is about to be sent. -/
def inFlight (drain : Drain) : List OutputChunk :=
  match drain.phase with
  | .sending chunk => [chunk]
  | _ => []

/-- A write fails once the task has returned. -/
def write (drain : Drain) (bytes : List UInt8) : Option Drain :=
  match drain.phase with
  | .returned _ => none
  | _ =>
      if drain.closed then none
      else some
        { drain with
          written := drain.written ++ bytes
          pending := drain.pending ++ bytes }

/-- `reader.read`, which fails or gives the number of bytes that were read.  The
task returns when there are none, at the end of the pipe or in front of it. -/
def read (drain : Drain) (result : Option Nat) : Option Drain :=
  match drain.phase with
  | .reading =>
      let size := result.getD 0
      if size = 0 then
        some (drain.enter (.returned (drain.closed ∧ drain.pending = [])))
      else if h : drain.pending.take size ≠ [] ∧
          (drain.pending.take size).length ≤ outputChunkSize then
        some
          { drain with
            pending := drain.pending.drop size
            phase := .numbering ⟨drain.pending.take size, h.1, h.2⟩ }
      else none
  | _ => none

end Drain

/-- How a chunk was sent. -/
inductive Sent where
  | accepted
  | full
  | closed
  deriving DecidableEq, Repr

/--
The pipes, the counter and the channel, as long as it has a receiver.  The
chunks that were given a number, what became of those that were sent, and what
the writer has received or has left behind, each in the order of time.
-/
structure Capture where
  drains : OutputStream → Drain
  sequence : Nat
  queue : List OutputChunk
  connected : Bool
  taken : List OutputChunk
  sent : List (OutputChunk × Sent)
  received : List OutputChunk
  abandoned : List OutputChunk

def sentAs (result : Sent) (sent : List (OutputChunk × Sent)) :
    List OutputChunk :=
  (sent.filter fun entry => entry.2 = result).map Prod.fst

def ofStream (stream : OutputStream) (chunks : List OutputChunk) :
    List OutputChunk :=
  chunks.filter fun chunk => chunk.stream = stream

inductive CaptureEvent where
  | write (stream : OutputStream) (bytes : List UInt8)
  | close (stream : OutputStream)
  | read (stream : OutputStream) (result : Option Nat)
  | number (stream : OutputStream) (timestampUnixMs : Int)
  | send (stream : OutputStream)
  | receive
  /-- The writer ends early and drops the receiver. -/
  | disconnect
  deriving Repr

namespace Capture

/-- Before the first byte of an attempt; the counter is that of the whole
execution. -/
def start (sequence : Nat) : Capture where
  drains _ := .fresh
  sequence := sequence
  queue := []
  connected := true
  taken := []
  sent := []
  received := []
  abandoned := []

def setDrain (capture : Capture) (stream : OutputStream) (drain : Drain) :
    Capture :=
  { capture with drains := Function.update capture.drains stream drain }

/-- `fetch_add` and the clock make a chunk of the piece. -/
def number (capture : Capture) (stream : OutputStream) (piece : ReadPiece)
    (timestampUnixMs : Int) : Option OutputChunk :=
  if h : -2 ^ 63 ≤ timestampUnixMs ∧ timestampUnixMs < 2 ^ 63 then
    some
      { stream := stream
        sequence := (capture.sequence + 1) % 2 ^ 64
        timestampUnixMs := timestampUnixMs
        bytes := piece.bytes
        sequence_lt := Nat.mod_lt _ (Nat.two_pow_pos 64)
        timestamp_lower := h.1
        timestamp_upper := h.2
        length_lt := piece.small.trans_lt (by decide) }
  else none

/-- What `try_send` answers. -/
def trySend (capture : Capture) : Sent :=
  if ¬capture.connected then .closed
  else if capture.queue.length < outputQueueChunks then .accepted
  else .full

def step (capture : Capture) : CaptureEvent → Option Capture
  | .write stream bytes =>
      ((capture.drains stream).write bytes).map (capture.setDrain stream)
  | .close stream => some
      (capture.setDrain stream { capture.drains stream with closed := true })
  | .read stream result =>
      ((capture.drains stream).read result).map (capture.setDrain stream)
  | .number stream timestampUnixMs =>
      match (capture.drains stream).phase with
      | .numbering piece =>
          (capture.number stream piece timestampUnixMs).map fun chunk =>
            { capture.setDrain stream
                ((capture.drains stream).enter (.sending chunk)) with
              sequence := chunk.sequence
              taken := capture.taken ++ [chunk] }
      | _ => none
  | .send stream =>
      match (capture.drains stream).phase with
      | .sending chunk => some
          { capture.setDrain stream
              ((capture.drains stream).enter .reading) with
            queue := capture.queue ++
              if capture.trySend = .accepted then [chunk] else []
            sent := capture.sent ++ [(chunk, capture.trySend)] }
      | _ => none
  | .receive =>
      match capture.queue with
      | chunk :: queue => some
          { capture with
            queue := queue
            received := capture.received ++ [chunk] }
      | [] => none
  | .disconnect =>
      if capture.connected then some
        { capture with
          queue := []
          connected := false
          abandoned := capture.queue }
      else none

end Capture

/-! ## What a step does -/

/-- One step, one constructor for each way it can go. -/
inductive Capture.Step (capture : Capture) : Capture → Prop where
  | writes {stream : OutputStream} (bytes : List UInt8)
      (open_ : ∀ atEnd, (capture.drains stream).phase ≠ .returned atEnd) :
      Step capture (capture.setDrain stream
        { capture.drains stream with
          written := (capture.drains stream).written ++ bytes
          pending := (capture.drains stream).pending ++ bytes })
  | closes (stream : OutputStream) :
      Step capture (capture.setDrain stream
        { capture.drains stream with closed := true })
  | returns {stream : OutputStream}
      (phase : (capture.drains stream).phase = .reading) :
      Step capture (capture.setDrain stream
        ((capture.drains stream).enter (.returned
          ((capture.drains stream).closed ∧
            (capture.drains stream).pending = []))))
  | reads {stream : OutputStream} {piece : ReadPiece} {rest : List UInt8}
      (phase : (capture.drains stream).phase = .reading)
      (pending : (capture.drains stream).pending = piece.bytes ++ rest) :
      Step capture (capture.setDrain stream
        { capture.drains stream with
          pending := rest
          phase := .numbering piece })
  | numbers {stream : OutputStream} {piece : ReadPiece} {chunk : OutputChunk}
      (phase : (capture.drains stream).phase = .numbering piece)
      (belongs : chunk.stream = stream)
      (next : chunk.sequence = (capture.sequence + 1) % 2 ^ 64)
      (bytes : chunk.bytes = piece.bytes) :
      Step capture
        { capture.setDrain stream
            ((capture.drains stream).enter (.sending chunk)) with
          sequence := chunk.sequence
          taken := capture.taken ++ [chunk] }
  | sends {stream : OutputStream} {chunk : OutputChunk}
      (phase : (capture.drains stream).phase = .sending chunk)
      (connected : capture.connected = true)
      (room : capture.queue.length < outputQueueChunks) :
      Step capture
        { capture.setDrain stream
            ((capture.drains stream).enter .reading) with
          queue := capture.queue ++ [chunk]
          sent := capture.sent ++ [(chunk, .accepted)] }
  | drops {stream : OutputStream} {chunk : OutputChunk}
      (phase : (capture.drains stream).phase = .sending chunk)
      (full : outputQueueChunks ≤ capture.queue.length)
      (connected : capture.connected = true) :
      Step capture
        { capture.setDrain stream
            ((capture.drains stream).enter .reading) with
          sent := capture.sent ++ [(chunk, .full)] }
  | fails {stream : OutputStream} {chunk : OutputChunk}
      (phase : (capture.drains stream).phase = .sending chunk)
      (gone : capture.connected = false) :
      Step capture
        { capture.setDrain stream
            ((capture.drains stream).enter .reading) with
          sent := capture.sent ++ [(chunk, .closed)] }
  | receives {chunk : OutputChunk} {queue : List OutputChunk}
      (head : capture.queue = chunk :: queue) :
      Step capture
        { capture with
          queue := queue
          received := capture.received ++ [chunk] }
  | disconnects (connected : capture.connected = true) :
      Step capture
        { capture with
          queue := []
          connected := false
          abandoned := capture.queue }

namespace Capture

variable {capture next : Capture} {event : CaptureEvent}

theorem read_step {stream : OutputStream} {result : Option Nat} {drain : Drain}
    (read : (capture.drains stream).read result = some drain) :
    capture.Step (capture.setDrain stream drain) := by
  unfold Drain.read at read
  split at read
  · rename_i phase
    dsimp only at read
    split at read
    · cases read
      exact .returns phase
    · split at read
      · cases read
        exact .reads phase (List.take_append_drop _ _).symm
      · cases read
  · cases read

theorem number_step {stream : OutputStream} {piece : ReadPiece}
    {timestamp : Int} {chunk : OutputChunk}
    (phase : (capture.drains stream).phase = .numbering piece)
    (numbered : capture.number stream piece timestamp = some chunk) :
    capture.Step
      { capture.setDrain stream
          ((capture.drains stream).enter (.sending chunk)) with
        sequence := chunk.sequence
        taken := capture.taken ++ [chunk] } := by
  unfold number at numbered
  split at numbered
  · cases numbered
    exact .numbers phase rfl rfl rfl
  · cases numbered

theorem send_step {stream : OutputStream} {chunk : OutputChunk}
    (phase : (capture.drains stream).phase = .sending chunk) :
    capture.Step
      { capture.setDrain stream
          ((capture.drains stream).enter .reading) with
        queue := capture.queue ++
          if capture.trySend = .accepted then [chunk] else []
        sent := capture.sent ++ [(chunk, capture.trySend)] } := by
  cases connected : capture.connected with
  | false =>
      have sent : capture.trySend = .closed := by simp [trySend, connected]
      simpa [sent, setDrain] using Step.fails phase connected
  | true =>
      by_cases room : capture.queue.length < outputQueueChunks
      · have sent : capture.trySend = .accepted := by
          simp [trySend, connected, room]
        simpa [sent, setDrain] using Step.sends phase connected room
      · have sent : capture.trySend = .full := by
          simp [trySend, connected, room]
        simpa [sent, setDrain] using Step.drops phase (not_lt.mp room) connected

theorem step_cases (moved : capture.step event = some next) :
    capture.Step next := by
  cases event with
  | write stream bytes =>
      obtain ⟨drain, written, rfl⟩ := Option.map_eq_some_iff.mp moved
      unfold Drain.write at written
      split at written
      · cases written
      · rename_i alive
        split at written
        · cases written
        · cases written
          exact .writes bytes alive
  | close stream =>
      cases moved
      exact .closes stream
  | read stream result =>
      obtain ⟨drain, read, rfl⟩ := Option.map_eq_some_iff.mp moved
      exact read_step read
  | number stream timestamp =>
      rw [step] at moved
      split at moved
      · rename_i piece phase
        obtain ⟨chunk, numbered, rfl⟩ := Option.map_eq_some_iff.mp moved
        exact number_step phase numbered
      · cases moved
  | send stream =>
      rw [step] at moved
      split at moved
      · rename_i chunk phase
        cases moved
        exact send_step phase
      · cases moved
  | receive =>
      rw [step] at moved
      split at moved
      · rename_i chunk queue head
        cases moved
        exact .receives head
      · cases moved
  | disconnect =>
      rw [step] at moved
      split at moved
      · rename_i connected
        cases moved
        exact .disconnects connected
      · cases moved

end Capture

end Susm.Supervisor
