import Susm.Diagnostics.Segments
import Susm.Foundation.Transition

/-!
# The queue of diagnostics

Any thread submits the records of its events, and one thread writes them.  The
queue takes a bounded number of messages and of bytes, and counts what it does
not take.  The steps are the accesses to what the threads share: the counters,
the flag and the channel.
-/

namespace Susm.Diagnostics

open Susm.Foundation

/-- `QUEUE_BYTES` -/
def queueBytes : Nat := 1024 * 1024

/-- `QUEUE_MESSAGES` -/
def queueMessages : Nat := 4096

/-- The atomics of the queue and its channel, as long as it has a receiver. -/
structure Queue where
  channel : List Bytes
  connected : Bool
  queuedBytes : Nat
  dropped : Nat
  shutdown : Bool
  deriving DecidableEq, Repr

/-! ## Submitting -/

/-- The next step of `submit`, or how it has ended. -/
inductive SubmitPhase where
  | checking
  | loading
  | exchanging (queued : Nat)
  | sending
  | refunding
  | counting
  | ignored
  | refused
  | accepted
  deriving DecidableEq, Repr

/-- One call of `Queue::submit`. -/
structure Submission where
  bytes : Bytes
  phase : SubmitPhase
  deriving DecidableEq, Repr

namespace Submission

def enter (submission : Submission) (phase : SubmitPhase) : Submission :=
  { submission with phase := phase }

/-- The round of the loop of `reserve` on what was queued. -/
def reserve (submission : Submission) (queued : Nat) : Submission :=
  match checked (2 ^ 64) (queued + submission.bytes.length) with
  | none => submission.enter .counting
  | some next =>
      if queueBytes < next then submission.enter .counting
      else submission.enter (.exchanging queued)

/-- A step of `submit`; a weak exchange may fail without a reason. -/
def advance (spurious : Bool) (queue : Queue) (submission : Submission) :
    Option (Queue × Submission) :=
  let length := submission.bytes.length
  match submission.phase with
  | .checking =>
      if submission.bytes = [] ∨ queue.shutdown then
        some (queue, submission.enter .ignored)
      else if queueBytes < length then
        some (queue, submission.enter .counting)
      else some (queue, submission.enter .loading)
  | .loading => some (queue, submission.reserve queue.queuedBytes)
  | .exchanging queued =>
      if queue.queuedBytes = queued ∧ !spurious then
        some ({ queue with queuedBytes := queued + length },
          submission.enter .sending)
      else some (queue, submission.reserve queue.queuedBytes)
  | .sending =>
      -- `try_send` fails on a full channel and without a receiver
      if queue.connected ∧ queue.channel.length < queueMessages then
        some ({ queue with channel := queue.channel ++ [submission.bytes] },
          submission.enter .accepted)
      else some (queue, submission.enter .refunding)
  | .refunding => some
      ({ queue with
          queuedBytes := wrappingSub (2 ^ 64) queue.queuedBytes length },
        submission.enter .counting)
  | .counting => some
      ({ queue with dropped := wrappingAdd (2 ^ 64) queue.dropped 1 },
        submission.enter .refused)
  | .ignored | .refused | .accepted => none

end Submission

/-! ### What a step of a submission does -/

/-- One step of a submission, one constructor for each way it can go. -/
inductive Submission.Step (queue : Queue) (submission : Submission) :
    Queue → Submission → Prop where
  | ignores (phase : submission.phase = .checking)
      (idle : submission.bytes = [] ∨ queue.shutdown = true) :
      Step queue submission queue (submission.enter .ignored)
  | loads (phase : submission.phase = .checking) :
      Step queue submission queue (submission.enter .loading)
  | refuses
      (phase : submission.phase = .checking ∨ submission.phase = .loading ∨
        ∃ queued, submission.phase = .exchanging queued) :
      Step queue submission queue (submission.enter .counting)
  | retries {queued : Nat}
      (phase : submission.phase = .loading ∨
        ∃ queued, submission.phase = .exchanging queued)
      (fits : queued + submission.bytes.length ≤ queueBytes) :
      Step queue submission queue (submission.enter (.exchanging queued))
  | reserves {queued : Nat} (phase : submission.phase = .exchanging queued)
      (same : queue.queuedBytes = queued) :
      Step queue submission
        { queue with
          queuedBytes := queued + submission.bytes.length }
        (submission.enter .sending)
  | sends (phase : submission.phase = .sending)
      (connected : queue.connected = true)
      (room : queue.channel.length < queueMessages) :
      Step queue submission
        { queue with channel := queue.channel ++ [submission.bytes] }
        (submission.enter .accepted)
  | fails (phase : submission.phase = .sending) :
      Step queue submission queue (submission.enter .refunding)
  | refunds (phase : submission.phase = .refunding) :
      Step queue submission
        { queue with
          queuedBytes := wrappingSub (2 ^ 64) queue.queuedBytes
            submission.bytes.length }
        (submission.enter .counting)
  | counts (phase : submission.phase = .counting) :
      Step queue submission
        { queue with dropped := wrappingAdd (2 ^ 64) queue.dropped 1 }
        (submission.enter .refused)

namespace Submission

variable {queue next : Queue} {submission after : Submission}
  {spurious : Bool}

theorem reserve_cases (submission : Submission) (queued : Nat) :
    submission.reserve queued = submission.enter .counting ∨
      (queued + submission.bytes.length ≤ queueBytes ∧
        submission.reserve queued = submission.enter (.exchanging queued)) := by
  unfold reserve
  split
  · exact .inl rfl
  · rename_i next hnext
    obtain ⟨-, rfl⟩ := checked_eq_some_iff.mp hnext
    split
    · exact .inl rfl
    · rename_i hfits
      exact .inr ⟨not_lt.mp hfits, rfl⟩

theorem reserve_step
    (phase : submission.phase = .loading ∨
      ∃ queued, submission.phase = .exchanging queued) :
    submission.Step queue queue (submission.reserve queue.queuedBytes) := by
  rcases submission.reserve_cases queue.queuedBytes with
    hrefuses | ⟨hfits, hretries⟩
  · rw [hrefuses]
    exact .refuses (.inr phase)
  · rw [hretries]
    exact .retries phase hfits

theorem advance_step
    (advanced : submission.advance spurious queue = some (next, after)) :
    submission.Step queue next after := by
  unfold advance at advanced
  dsimp only at advanced
  split at advanced
  · rename_i hphase
    split at advanced
    · rename_i hidle
      cases advanced
      exact .ignores hphase hidle
    · split at advanced
      · cases advanced
        exact .refuses (.inl hphase)
      · cases advanced
        exact .loads hphase
  · rename_i hphase
    cases advanced
    exact reserve_step (.inl hphase)
  · rename_i queued hphase
    split at advanced
    · rename_i hsame
      cases advanced
      exact .reserves hphase hsame.1
    · cases advanced
      exact reserve_step (.inr ⟨queued, hphase⟩)
  · rename_i hphase
    split at advanced
    · rename_i hroom
      cases advanced
      exact .sends hphase hroom.1 hroom.2
    · cases advanced
      exact .fails hphase
  · rename_i hphase
    cases advanced
    exact .refunds hphase
  · rename_i hphase
    cases advanced
    exact .counts hphase
  all_goals cases advanced

end Submission

/-! ## Writing -/

inductive Handled where
  | message (bytes : Bytes)
  | lost (bytes : Bytes)
  | dropped (count : Nat) (record : Bytes)
  deriving DecidableEq, Repr

@[simp] def Handled.bytes : Handled → Option Bytes
  | .message bytes | .lost bytes => some bytes
  | .dropped .. => none

@[simp] def Handled.count : Handled → Nat
  | .message _ | .lost _ => 0
  | .dropped count _ => count

/-- The line that is to be written. -/
def Handled.record (setup : Setup) : Handled → Option Bytes
  | .message bytes => setup.normalizeRecord bytes
  | .lost _ => none
  | .dropped _ record => some record

/-- The next step of `run_writer`. -/
inductive WriterPhase where
  | receiving
  | releasing (bytes : Bytes) (draining : Bool)
  | reporting (bytes : Bytes)
  | writingDropped (count : Nat) (bytes : Bytes)
  | writing (bytes : Bytes) (draining : Bool)
  | checking
  | draining
  | finalReport
  | writingFinal (count : Nat)
  | finishing
  | ended (drained : Bool)
  deriving DecidableEq, Repr

/--
The queue with all submissions so far, the writer and its disk; what was
accepted in this order, what the writer has handled, and what was still on the
channel when its receiver was dropped.
-/
structure Pipeline where
  queue : Queue
  submissions : List Submission
  writer : WriterPhase
  disk : Disk
  accepted : List Bytes
  handled : List Handled
  abandoned : List Bytes
  deriving DecidableEq

namespace Pipeline

/-- `init` with a segment that was opened. -/
def initial : Pipeline where
  queue := ⟨[], true, 0, 0, false⟩
  submissions := []
  writer := .receiving
  disk := ⟨[], .opened⟩
  accepted := []
  handled := []
  abandoned := []

@[simp] def enter (state : Pipeline) (writer : WriterPhase) : Pipeline :=
  { state with writer := writer }

/-- The thread ends and drops the receiver with what is on its channel. -/
@[simp] def leave (state : Pipeline) (drained : Bool) : Pipeline :=
  { state with
    queue := { state.queue with channel := [], connected := false }
    writer := .ended drained
    abandoned := state.queue.channel }

def write (access : Access) (state : Pipeline) (record : Option Bytes) :
    Written × Disk :=
  match record with
  | none => (.done, state.disk)
  | some record => state.disk.writeRecord access record

/-- A message, or a count, has been handled with this effect on the disk. -/
@[simp] def handle (state : Pipeline) (handled : List Handled) (disk : Disk) :
    Pipeline :=
  { state with disk := disk, handled := state.handled ++ handled }

/-- A step of `run_writer`; nothing while it waits. -/
def stepWriter (setup : Setup) (timeout : Bool) (access : Access)
    (state : Pipeline) : Option Pipeline :=
  match state.writer with
  | .receiving =>
      match state.queue.channel with
      | bytes :: channel => some
          { state with
            queue := { state.queue with channel := channel }
            writer := .releasing bytes false }
      | [] =>
          if timeout then
            match state.disk.tick access with
            | (.done, disk) =>
                some { state with disk := disk, writer := .checking }
            | (_, disk) => some ({ state with disk := disk }.leave false)
          else none
  | .releasing bytes draining => some
      { state with
        queue :=
          { state.queue with
            queuedBytes :=
              wrappingSub (2 ^ 64) state.queue.queuedBytes bytes.length }
        writer := if draining then .writing bytes true else .reporting bytes }
  | .reporting bytes =>
      let count := state.queue.dropped
      some
        { state with
          queue := { state.queue with dropped := 0 }
          writer :=
            if count = 0 then .writing bytes false
            else .writingDropped count bytes }
  | .writingDropped count bytes =>
      let record := setup.droppedRecord access.timestamp count
      match state.write access (some record) with
      | (.done, disk) =>
          some ((state.handle [.dropped count record] disk).enter
            (.writing bytes false))
      | (_, disk) =>
          some ((state.handle [.dropped count record, .lost bytes] disk).leave
            false)
  | .writing bytes draining =>
      match state.write access (setup.normalizeRecord bytes), draining with
      | (.done, disk), false =>
          some ((state.handle [.message bytes] disk).enter .checking)
      | (.failed, disk), false | (.panicked, disk), _ =>
          some ((state.handle [.message bytes] disk).leave false)
      | (_, disk), true =>
          some ((state.handle [.message bytes] disk).enter .draining)
  | .checking =>
      some (state.enter (if state.queue.shutdown then .draining else .receiving))
  | .draining =>
      match state.queue.channel with
      | bytes :: channel => some
          { state with
            queue := { state.queue with channel := channel }
            writer := .releasing bytes true }
      | [] => some (state.enter .finalReport)
  | .finalReport =>
      let count := state.queue.dropped
      some
        { state with
          queue := { state.queue with dropped := 0 }
          writer := if count = 0 then .finishing else .writingFinal count }
  | .writingFinal count =>
      let record := setup.droppedRecord access.timestamp count
      match state.write access (some record) with
      | (.panicked, disk) =>
          some ((state.handle [.dropped count record] disk).leave false)
      | (_, disk) =>
          some ((state.handle [.dropped count record] disk).enter .finishing)
  | .finishing =>
      some ({ state with disk := state.disk.conclude access }.leave true)
  | .ended _ => none

/-! ### What a step of the writer does -/

/-- One step of the writer, one constructor for each way it can go. -/
inductive WriterStep (setup : Setup) (access : Access) (state : Pipeline) :
    Pipeline → Prop where
  | receives {bytes : Bytes} {channel : List Bytes}
      (phase : state.writer = .receiving)
      (front : state.queue.channel = bytes :: channel) :
      WriterStep setup access state
        { state with
          queue := { state.queue with channel := channel }
          writer := .releasing bytes false }
  | ticks {disk : Disk} (phase : state.writer = .receiving)
      (done : state.disk.tick access = (.done, disk)) :
      WriterStep setup access state
        { state with disk := disk, writer := .checking }
  | tickFails {written : Written} {disk : Disk}
      (phase : state.writer = .receiving)
      (failed : state.disk.tick access = (written, disk))
      (notDone : written ≠ .done) :
      WriterStep setup access state ({ state with disk := disk }.leave false)
  | releases {bytes : Bytes} {draining : Bool}
      (phase : state.writer = .releasing bytes draining) :
      WriterStep setup access state
        { state with
          queue :=
            { state.queue with
              queuedBytes :=
                wrappingSub (2 ^ 64) state.queue.queuedBytes bytes.length }
          writer :=
            if draining then .writing bytes true else .reporting bytes }
  | reports {bytes : Bytes} (phase : state.writer = .reporting bytes) :
      WriterStep setup access state
        { state with
          queue := { state.queue with dropped := 0 }
          writer :=
            if state.queue.dropped = 0 then .writing bytes false
            else .writingDropped state.queue.dropped bytes }
  | writesDropped {count : Nat} {bytes : Bytes} {disk : Disk}
      (phase : state.writer = .writingDropped count bytes)
      (done : state.write access
        (some (setup.droppedRecord access.timestamp count)) = (.done, disk)) :
      WriterStep setup access state
        ((state.handle
          [.dropped count (setup.droppedRecord access.timestamp count)]
          disk).enter (.writing bytes false))
  | losesDropped {count : Nat} {bytes : Bytes} {written : Written} {disk : Disk}
      (phase : state.writer = .writingDropped count bytes)
      (failed : state.write access
        (some (setup.droppedRecord access.timestamp count)) = (written, disk))
      (notDone : written ≠ .done) :
      WriterStep setup access state
        ((state.handle
          [.dropped count (setup.droppedRecord access.timestamp count),
            .lost bytes] disk).leave false)
  | writes {bytes : Bytes} {draining : Bool} {written : Written} {disk : Disk}
      (phase : state.writer = .writing bytes draining)
      (done : state.write access (setup.normalizeRecord bytes) =
        (written, disk))
      (goesOn : written = .done ∨ (written = .failed ∧ draining = true)) :
      WriterStep setup access state
        ((state.handle [.message bytes] disk).enter
          (if draining then .draining else .checking))
  | loses {bytes : Bytes} {draining : Bool} {written : Written} {disk : Disk}
      (phase : state.writer = .writing bytes draining)
      (failed : state.write access (setup.normalizeRecord bytes) =
        (written, disk))
      (notDone : written ≠ .done) :
      WriterStep setup access state
        ((state.handle [.message bytes] disk).leave false)
  | checks (phase : state.writer = .checking) :
      WriterStep setup access state
        (state.enter (if state.queue.shutdown then .draining else .receiving))
  | drains {bytes : Bytes} {channel : List Bytes}
      (phase : state.writer = .draining)
      (front : state.queue.channel = bytes :: channel) :
      WriterStep setup access state
        { state with
          queue := { state.queue with channel := channel }
          writer := .releasing bytes true }
  | drained (phase : state.writer = .draining)
      (empty : state.queue.channel = []) :
      WriterStep setup access state (state.enter .finalReport)
  | finalReports (phase : state.writer = .finalReport) :
      WriterStep setup access state
        { state with
          queue := { state.queue with dropped := 0 }
          writer :=
            if state.queue.dropped = 0 then .finishing
            else .writingFinal state.queue.dropped }
  | writesFinal {count : Nat} {written : Written} {disk : Disk}
      (phase : state.writer = .writingFinal count)
      (done : state.write access
        (some (setup.droppedRecord access.timestamp count)) = (written, disk)) :
      WriterStep setup access state
        ((state.handle
          [.dropped count (setup.droppedRecord access.timestamp count)]
          disk).enter .finishing)
  | losesFinal {count : Nat} {disk : Disk}
      (phase : state.writer = .writingFinal count)
      (panicked : state.write access
        (some (setup.droppedRecord access.timestamp count)) =
          (.panicked, disk)) :
      WriterStep setup access state
        ((state.handle
          [.dropped count (setup.droppedRecord access.timestamp count)]
          disk).leave false)
  | finishes (phase : state.writer = .finishing) :
      WriterStep setup access state
        ({ state with disk := state.disk.conclude access }.leave true)

theorem stepWriter_step {setup : Setup} {timeout : Bool} {access : Access}
    {state next : Pipeline}
    (moved : state.stepWriter setup timeout access = some next) :
    WriterStep setup access state next := by
  unfold stepWriter at moved
  split at moved
  · rename_i hphase
    split at moved
    · rename_i hfront
      cases moved
      exact .receives hphase hfront
    · split at moved
      · split at moved
        · rename_i hdone
          cases moved
          exact .ticks hphase hdone
        · rename_i hnotDone hfailed
          cases moved
          exact .tickFails hphase hfailed hnotDone
      · cases moved
  · rename_i hphase
    cases moved
    exact .releases hphase
  · rename_i hphase
    cases moved
    exact .reports hphase
  · rename_i hphase
    dsimp only at moved
    split at moved
    · rename_i hdone
      cases moved
      exact .writesDropped hphase hdone
    · rename_i hnotDone hfailed
      cases moved
      exact .losesDropped hphase hfailed hnotDone
  · rename_i hphase
    split at moved
    · rename_i hdone
      cases moved
      exact .writes hphase hdone (.inl rfl)
    · rename_i hfailed
      cases moved
      exact .loses hphase hfailed nofun
    · rename_i hfailed
      cases moved
      exact .loses hphase hfailed nofun
    · rename_i written disk hnotPanicked hwritten
      cases moved
      refine .writes hphase hwritten ?_
      cases written with
      | done => exact .inl rfl
      | failed => exact .inr ⟨rfl, rfl⟩
      | panicked => exact absurd rfl hnotPanicked
  · rename_i hphase
    cases moved
    exact .checks hphase
  · rename_i hphase
    split at moved
    · rename_i hfront
      cases moved
      exact .drains hphase hfront
    · rename_i hempty
      cases moved
      exact .drained hphase hempty
  · rename_i hphase
    cases moved
    exact .finalReports hphase
  · rename_i hphase
    dsimp only at moved
    split at moved
    · rename_i hpanicked
      cases moved
      exact .losesFinal hphase hpanicked
    · rename_i hwritten
      cases moved
      exact .writesFinal hphase hwritten
  · rename_i hphase
    cases moved
    exact .finishes hphase
  · cases moved

/-! ## All threads -/

inductive Event where
  /-- An event buffer is dropped. -/
  | submit (bytes : Bytes)
  | advance (index : Nat) (spurious : Bool)
  | write (timeout : Bool) (access : Access)
  /-- `Guard::finish` stores the flag. -/
  | shutdown

def acceptedBy (submission : Submission) : List Bytes :=
  if submission.phase = .accepted then [submission.bytes] else []

def step (setup : Setup) (state : Pipeline) : Event → Option Pipeline
  | .submit bytes => some
      { state with submissions := state.submissions ++ [⟨bytes, .checking⟩] }
  | .advance index spurious =>
      state.submissions[index]?.bind fun submission =>
        (submission.advance spurious state.queue).map fun (queue, after) =>
          { state with
            queue := queue
            submissions := state.submissions.set index after
            accepted := state.accepted ++ acceptedBy after }
  | .write timeout access => state.stepWriter setup timeout access
  | .shutdown => some { state with queue := { state.queue with shutdown := true } }

end Pipeline

/-! ## A host with a few events -/

/-- JSON text without escapes, down to some depth. -/
def Value.render : Nat → Value → String
  | 0, _ | _, .null => "null"
  | _ + 1, .bool value => toString value
  | _ + 1, .number digits => digits
  | _ + 1, .string value => "\"" ++ value ++ "\""
  | depth + 1, .array items =>
      "[" ++ ",".intercalate (items.map (render depth)) ++ "]"
  | depth + 1, .object fields =>
      "\x7b" ++ ",".intercalate (fields.map fun field =>
        "\"" ++ field.1 ++ "\":" ++ render depth field.2) ++ "\x7d"

def textBytes (text : String) : Bytes :=
  text.toList.map fun character => UInt8.ofNat character.toNat

/-- An event without fields. -/
def sampleEvent : Bytes := textBytes "\x7b\x7d"

def sampleSetup : Setup where
  component := .host
  pid := 7
  fromSlice bytes := if bytes = sampleEvent then some (.object []) else none
  toVec value := textBytes (value.render 3)

/-- An access in which nothing fails. -/
def smoothAccess : Access where
  aged := false
  finished := true
  name := "20260101T000000.000000000Z-0000000007-000.jsonl"
  directory := some []
  locked := []
  now := 1767225600 * 10 ^ 9
  reopened := true
  written := true
  left := 0
  timestamp := "2026-01-01T00:00:00Z"

def queuedPipeline : Pipeline :=
  { Pipeline.initial with
    queue := ⟨[sampleEvent], true, 2, 0, false⟩
    submissions := [⟨sampleEvent, .accepted⟩]
    accepted := [sampleEvent] }

/-- The writer has it, and another one has been reserved for. -/
def busyPipeline : Pipeline :=
  { queuedPipeline with
    queue := ⟨[], true, 4, 0, false⟩
    submissions := [⟨sampleEvent, .accepted⟩, ⟨sampleEvent, .sending⟩]
    writer := .releasing sampleEvent false }

def queuedEvents : List Pipeline.Event :=
  .submit sampleEvent :: List.replicate 4 (.advance 0 false)

def busyEvents : List Pipeline.Event :=
  [.submit sampleEvent, .advance 1 false, .advance 1 false, .advance 1 true,
    .advance 1 false, .write false smoothAccess]

theorem execute_queuedEvents :
    execute (Pipeline.step sampleSetup) Pipeline.initial queuedEvents =
      some queuedPipeline := by
  decide +kernel

/-- The host ends: the event is written, and its segment closed. -/
def stoppedPipeline : Pipeline :=
  { queuedPipeline with queue := { queuedPipeline.queue with shutdown := true } }

def sampleLine : Bytes :=
  textBytes "\x7b\"component\":\"host\",\"name\":\"event\",\"pid\":7\x7d\n"

def drainedPipeline : Pipeline :=
  { stoppedPipeline with
    queue := ⟨[], false, 0, 0, true⟩
    writer := .ended true
    disk :=
      ⟨[⟨smoothAccess.name, [.whole sampleLine], false⟩],
        ⟨[.whole sampleLine], sampleLine.length, false⟩⟩
    handled := [.message sampleEvent] }

def drainEvents : List Pipeline.Event :=
  List.replicate 8 (.write false smoothAccess)

theorem execute_drainEvents :
    execute (Pipeline.step sampleSetup) stoppedPipeline drainEvents =
      some drainedPipeline := by
  decide +kernel

theorem execute_busyEvents :
    execute (Pipeline.step sampleSetup) queuedPipeline busyEvents =
      some busyPipeline := by
  decide +kernel

theorem busyPipeline_reachable :
    Runs (Pipeline.step sampleSetup) (fun _ _ => True) Pipeline.initial
      busyPipeline :=
  (execute_runs execute_queuedEvents).trans (execute_runs execute_busyEvents)

end Susm.Diagnostics
