import Susm.Controller.LogReader
import Susm.Supervisor.CapturedChunks
import Susm.Supervisor.SegmentRuns

/-!
# From the pipes to the reader

The output of an attempt goes through the channel, the segments of the log and
the decoder of the controller.  What is read back at the end is what the
process has written, but for the chunks that the channel did not take.
-/

namespace Susm.Controller

open Susm.Foundation
open Susm.Foundation.Stateful
open Susm.Protocol
open Susm.Supervisor

/-- Both pipes were read to their ends, and the writer has received all that
there was. -/
structure CaptureEnded (capture : Capture) : Prop where
  returned : ∀ stream, (capture.drains stream).phase = .returned true
  drained : capture.queue = []
  connected : capture.connected = true

def WasDropped (capture : Capture) (chunk : OutputChunk) : Prop :=
  chunk.sequence ∈ (sentAs .full capture.sent).map OutputChunk.sequence

instance (capture : Capture) : DecidablePred (WasDropped capture) :=
  fun _ => inferInstanceAs (Decidable (_ ∈ _))

def recordsOf (stream : OutputStream) (records : List ReadLogsResponse) :
    List ReadLogsResponse :=
  records.filter fun record => record.stream = stream.name

theorem name_inj {first second : OutputStream}
    (same : first.name = second.name) : first = second := by
  revert same
  cases first <;> cases second <;> decide

theorem recordsOf_logRecord (stream : OutputStream) (executionId : String)
    (attempt : Nat) (chunks : List OutputChunk) :
    recordsOf stream (chunks.map (logRecord executionId attempt)) =
      (ofStream stream chunks).map (logRecord executionId attempt) := by
  rw [recordsOf, ofStream, List.filter_map]
  refine congrArg _ (List.filter_congr fun chunk _ => ?_)
  exact decide_eq_decide.mpr ⟨name_inj, congrArg OutputStream.name⟩

theorem sentAs_accepted {sent : List (OutputChunk × Sent)}
    (distinct : ((sent.map Prod.fst).map OutputChunk.sequence).Nodup)
    (open_ : sentAs .closed sent = []) :
    sentAs .accepted sent = (sent.map Prod.fst).filter fun chunk =>
      chunk.sequence ∉ (sentAs .full sent).map OutputChunk.sequence := by
  rw [sentAs, List.filter_map]
  refine congrArg _ (List.filter_congr fun entry hentry => ?_)
  rw [List.map_map] at distinct
  have refused : entry.1.sequence ∈
      (sentAs .full sent).map OutputChunk.sequence ↔ entry.2 = .full := by
    constructor
    · intro hmem
      obtain ⟨chunk, hchunk, number⟩ := List.mem_map.mp hmem
      obtain ⟨other, hother, rfl⟩ := List.mem_map.mp hchunk
      obtain ⟨hother, full⟩ := List.mem_filter.mp hother
      have same := List.inj_on_of_nodup_map distinct hother hentry number
      exact same ▸ of_decide_eq_true full
    · intro full
      refine List.mem_map_of_mem (List.mem_map_of_mem ?_)
      exact List.mem_filter.mpr ⟨hentry, decide_eq_true full⟩
  have notClosed : entry.2 ≠ .closed := by
    intro closed
    have hmem : entry.1 ∈ sentAs .closed sent :=
      List.mem_map_of_mem (List.mem_filter.mpr ⟨hentry, decide_eq_true closed⟩)
    rw [open_] at hmem
    cases hmem
  refine decide_eq_decide.mpr ?_
  rw [refused]
  cases h : entry.2 with
  | accepted => simp
  | full => simp
  | closed => exact absurd h notClosed

/--
The records of a stream are its chunks in their order, without those that were
dropped.  Each number behind the first is that of one record or of one dropped
chunk, and of a stream of which nothing was dropped the messages are what the
process has written.
-/
structure LogsOutput (first : Nat) (capture : Capture) (executionId : String)
    (attempt : Nat) (records : List ReadLogsResponse) : Prop where
  streams : ∀ stream, recordsOf stream records =
    ((ofStream stream capture.taken).filter fun chunk =>
      ¬WasDropped capture chunk).map (logRecord executionId attempt)
  numbers : (records.map ReadLogsResponse.sequence ++
    (sentAs .full capture.sent).map OutputChunk.sequence).Perm
      (List.range' (first + 1) capture.taken.length)
  whole : ∀ stream, ofStream stream (sentAs .full capture.sent) = [] →
    (recordsOf stream records).flatMap ReadLogsResponse.message =
      (capture.drains stream).written

section Ended

variable {first : Nat} {capture : Capture} {stream : OutputStream}

theorem CaptureEnded.accepted (ended : CaptureEnded capture)
    (kept : capture.Kept first) :
    sentAs .accepted capture.sent = capture.received := by
  rw [kept.delivered, ended.drained, (kept.alive ended.connected).1,
    List.append_nil, List.append_nil]

theorem CaptureEnded.inFlight (ended : CaptureEnded capture)
    (stream : OutputStream) : (capture.drains stream).inFlight = [] := by
  simp only [Drain.inFlight, ended.returned stream]

theorem CaptureEnded.sent (ended : CaptureEnded capture)
    (kept : capture.Kept first) (stream : OutputStream) :
    ofStream stream (capture.sent.map Prod.fst) =
      ofStream stream capture.taken := by
  have order := (kept.drains stream).order
  rwa [ended.inFlight, List.append_nil] at order

theorem CaptureEnded.sent_perm (ended : CaptureEnded capture)
    (kept : capture.Kept first) :
    (capture.sent.map Prod.fst).Perm capture.taken := by
  refine (ofStream_perm _).symm.trans ?_
  rw [ended.sent kept, ended.sent kept]
  exact ofStream_perm capture.taken

theorem CaptureEnded.written (ended : CaptureEnded capture)
    (kept : capture.Kept first) (stream : OutputStream) :
    (capture.drains stream).written =
      (ofStream stream capture.taken).flatMap OutputChunk.bytes := by
  have phase := ended.returned stream
  have content := (kept.drains stream).content
  rw [((kept.drains stream).atEnd phase).2, List.append_nil] at content
  simp only [Drain.holding, phase, List.append_nil] at content
  exact content.symm

theorem CaptureEnded.distinct (ended : CaptureEnded capture)
    (kept : capture.Kept first)
    (fits : first + capture.taken.length < 2 ^ 64) :
    ((capture.sent.map Prod.fst).map OutputChunk.sequence).Nodup := by
  rw [((ended.sent_perm kept).map OutputChunk.sequence).nodup_iff,
    kept.numbered fits]
  exact List.nodup_range'

theorem CaptureEnded.received (ended : CaptureEnded capture)
    (kept : capture.Kept first)
    (fits : first + capture.taken.length < 2 ^ 64) (stream : OutputStream) :
    ofStream stream capture.received =
      (ofStream stream capture.taken).filter fun chunk =>
        ¬WasDropped capture chunk := by
  rw [← ended.accepted kept, sentAs_accepted (ended.distinct kept fits)
    (kept.alive ended.connected).2, ← ended.sent kept stream, ofStream,
    ofStream, List.filter_filter, List.filter_filter]
  refine List.filter_congr fun chunk _ => ?_
  rw [Bool.and_comm]
  rfl

theorem CaptureEnded.undropped (ended : CaptureEnded capture)
    (kept : capture.Kept first)
    (fits : first + capture.taken.length < 2 ^ 64)
    (none : ofStream stream (sentAs .full capture.sent) = []) :
    (ofStream stream capture.taken).filter (fun chunk =>
      ¬WasDropped capture chunk) = ofStream stream capture.taken := by
  refine List.filter_eq_self.mpr fun chunk hchunk => decide_eq_true ?_
  intro dropped
  obtain ⟨other, hother, number⟩ := List.mem_map.mp dropped
  obtain ⟨hchunk, belongs⟩ := List.mem_filter.mp hchunk
  have sent : other ∈ capture.sent.map Prod.fst := by
    obtain ⟨entry, hentry, rfl⟩ := List.mem_map.mp hother
    exact List.mem_map_of_mem (List.mem_filter.mp hentry).1
  have same := List.inj_on_of_nodup_map (ended.distinct kept fits) sent
    ((ended.sent_perm kept).mem_iff.mpr hchunk) number
  have left : chunk ∈ ofStream stream (sentAs .full capture.sent) :=
    List.mem_filter.mpr ⟨same ▸ hother, belongs⟩
  rw [none] at left
  cases left

theorem CaptureEnded.logsOutput (ended : CaptureEnded capture)
    (kept : capture.Kept first)
    (fits : first + capture.taken.length < 2 ^ 64) (executionId : String)
    (attempt : Nat) :
    LogsOutput first capture executionId attempt
      (capture.received.map (logRecord executionId attempt)) where
  streams stream := by
    rw [recordsOf_logRecord, ended.received kept fits]
  numbers := by
    have same : (capture.received.map (logRecord executionId attempt)).map
        ReadLogsResponse.sequence =
          capture.received.map OutputChunk.sequence := by
      rw [List.map_map]
      rfl
    rw [← kept.numbered fits, same, ← List.map_append]
    refine .trans ?_ ((ended.sent_perm kept).map OutputChunk.sequence)
    have split := sentAs_perm capture.sent
    rw [ended.accepted kept, (kept.alive ended.connected).2,
      List.append_nil] at split
    exact split.map OutputChunk.sequence
  whole stream undropped := by
    rw [recordsOf_logRecord, ended.written kept, List.flatMap_map]
    rw [ended.received kept fits, ended.undropped kept fits undropped]
    rfl

end Ended

/-- The writer of an attempt has received the chunks and has ended without an
error; it was never told to stop capturing. -/
structure LogWritten (machine : LogMachine)
    (configuration : ExecutionConfiguration) (capture : Capture)
    (before after : LogWorld) : Prop where
  workload : '\n' ∉ configuration.workloadId.toList
  execution : '\n' ∉ configuration.executionId.toList
  enabled : configuration.captureLogs = true
  fresh : before.finished = []
  written : ∃ host turns last done, KeepsCapturing turns ∧
    turns.flatMap (fun turn => turn.1.chunks) = capture.received ∧
    Returns (runWriter machine configuration host turns last) before done after

section Segments

variable {machine : LogMachine} {configuration : ExecutionConfiguration}
  {before after : LogWorld} {first : Nat} {capture : Capture}

theorem LogWritten.segments
    (log : LogWritten machine configuration capture before after)
    (executionId : String) (attempt : Nat) :
    ∃ segments : List (List UInt8),
      List.Forall₂ (fun call segment => call.Stores machine segment)
        after.finished segments ∧
      (segments.flatMap fun segment =>
          decodeJournal segment executionId attempt) =
        capture.received.map (logRecord executionId attempt) := by
  obtain ⟨host, turns, last, done, keeps, arrived, returned⟩ := log.written
  obtain ⟨groups, order, recorded⟩ :=
    recorded_of_runWriter log.enabled keeps log.fresh returned
  refine ⟨groups.map (entries configuration), ?_, ?_⟩
  · refine List.forall₂_iff_get.mpr ⟨by simp [recorded.length], ?_⟩
    intro place hcall hsegment
    rw [List.length_map] at hsegment
    have stored := (recorded.each place _ _
      (List.getElem?_eq_getElem hcall)
      (List.getElem?_eq_getElem hsegment)).stores
    simpa using stored
  · rw [← arrived, ← order, List.flatMap_map, List.map_flatten,
      List.flatMap_def]
    refine congrArg List.flatten (List.map_congr_left fun group _ => ?_)
    exact decodeJournal_whole log.workload log.execution group

/--
When both pipes of an attempt were read to their ends and its writer has ended,
what the decoder finds in the segments, one after another, is the output of the
process but for the chunks that were dropped, and these are missing from the
numbers.
-/
theorem output_logged (reads : capture.Reads first)
    (ended : CaptureEnded capture)
    (fits : first + capture.taken.length < 2 ^ 64)
    (log : LogWritten machine configuration capture before after)
    (executionId : String) (attempt : Nat) :
    ∃ segments : List (List UInt8),
      List.Forall₂ (fun call segment => call.Stores machine segment)
        after.finished segments ∧
      LogsOutput first capture executionId attempt
        (segments.flatMap fun segment =>
          decodeJournal segment executionId attempt) := by
  obtain ⟨segments, stored, read⟩ := log.segments executionId attempt
  exact ⟨segments, stored,
    read ▸ ended.logsOutput reads.kept fits executionId attempt⟩

end Segments

/-! ## A full channel -/

def handOver (stream : OutputStream) (count : Nat) : List CaptureEvent :=
  [.read stream (some count), .number stream 0, .send stream]

/-- The standard output fills the channel, the standard error finds no room, and
the writer makes room for the rest of the output. -/
def crowdedEvents : List CaptureEvent :=
  [.write .stdout (List.replicate 130 0x2A),
    .write .stderr (utf8 "hello".toList)] ++
  (List.replicate 128 (handOver .stdout 1)).flatten ++ handOver .stderr 5 ++
  List.replicate 128 .receive ++ handOver .stdout 2 ++
  [.receive, .close .stdout, .close .stderr, .read .stdout (some 0),
    .read .stderr none]

def crowdedCapture : Capture :=
  (execute Capture.step (Capture.start 2) crowdedEvents).getD
    (Capture.start 2)

theorem crowdedCapture_reads : crowdedCapture.Reads 2 :=
  execute_getD_runs (by decide +kernel)

theorem crowdedCapture_ended : CaptureEnded crowdedCapture := by
  obtain ⟨output, error, drained, connected⟩ :
      (crowdedCapture.drains .stdout).phase = .returned true ∧
        (crowdedCapture.drains .stderr).phase = .returned true ∧
        crowdedCapture.queue = [] ∧ crowdedCapture.connected = true := by
    decide +kernel
  refine ⟨fun stream => ?_, drained, connected⟩
  cases stream with
  | stdout => exact output
  | stderr => exact error

theorem crowdedLog : ∃ world,
    LogWritten attemptMachine oneEntry crowdedCapture emptyWorld world := by
  obtain ⟨count, small⟩ : crowdedCapture.received.length ≤ 129 ∧
      ∀ chunk ∈ crowdedCapture.received, chunk.bytes.length ≤ 2 := by
    decide +kernel
  have each : ∀ chunk ∈ crowdedCapture.received,
      (encodeEntry oneEntry chunk).length ≤ 2 ^ 11 := fun chunk hchunk =>
    (length_encodeEntry_le oneEntry chunk).trans
      ((Nat.add_le_add_right (Nat.add_le_add_left (small chunk hchunk) _)
        _).trans (by decide))
  have fits : (entries oneEntry crowdedCapture.received).length < fileLimit :=
    (length_entries_le each).trans_lt
      ((Nat.mul_le_mul_right _ count).trans_lt (by decide))
  obtain ⟨world, returned⟩ := runWriter_quiet fits
  exact ⟨world, by decide, by decide, rfl, rfl, quietHost 0, _, quietHost 0,
    (), quietTurns_keep _, arrivals_quietTurns _, returned⟩

theorem output_logged_crowded :
    sentAs .full crowdedCapture.sent ≠ [] ∧
      ∃ (world : LogWorld) (segments : List (List UInt8)),
        List.Forall₂ (fun call segment => call.Stores attemptMachine segment)
          world.finished segments ∧
        LogsOutput 2 crowdedCapture "execution" 1
          (segments.flatMap fun segment =>
            decodeJournal segment "execution" 1) := by
  obtain ⟨world, log⟩ := crowdedLog
  refine ⟨?_, world, output_logged crowdedCapture_reads crowdedCapture_ended
    (by decide +kernel) log "execution" 1⟩
  decide +kernel

end Susm.Controller
