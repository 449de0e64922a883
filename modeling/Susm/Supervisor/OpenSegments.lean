import Susm.Supervisor.AttemptWorld
import Susm.Supervisor.SegmentWriter

/-!
# Open segments under retention

Retention takes the files whose name contains `.susm-journal`, and the name of
an open segment does.  An open segment is spared exactly when it is within the
limits itself or when a removal fails before it is its turn.
-/

namespace Susm.Supervisor

open Susm.Foundation
open Susm.Foundation.Retention
open Susm.Protocol

/-- `name.ends_with(".susm-journal.open")` -/
def isOpenName (name : String) : Bool :=
  ".susm-journal.open".toList <:+ name.toList

def isOpenSegment (path : LogPath) : Bool := path.getLast?.any isOpenName

namespace RetentionCall

variable (machine : LogMachine) (call : RetentionCall)

def files : Except LogError (List (FinalizedFile LogPath)) :=
  finalizedFiles (machine.components call.configuration.logDirectory)
    call.host

def KeepsOpen : Prop :=
  ∀ path ∈ (call.removals machine).paths, isOpenSegment path = false

/--
In the order of removal, every chosen file is within the limits, or it or a
file before it cannot be removed.
-/
def WithinLimits (Chosen : LogPath → Prop) : Prop :=
  ∀ files, call.files machine = .ok files →
    let limits := retentionLimits call.configuration
    ∀ before file after,
      limits.order call.host.now files = before ++ file :: after →
      Chosen file.path →
        limits.Within call.host.now files before file ∨
          ∃ other ∈ before ++ [file],
            canRemove call.host.remove other = false

def OpenWithinLimits : Prop :=
  call.WithinLimits machine fun path => isOpenSegment path = true

variable {machine call} {Chosen : LogPath → Prop}

theorem keeps_iff :
    (∀ path ∈ (call.removals machine).paths, ¬ Chosen path) ↔
      call.WithinLimits machine Chosen := by
  unfold WithinLimits removals files
  cases hfiles : finalizedFiles
      (machine.components call.configuration.logDirectory) call.host with
  | error error => simp [applyRetention_error hfiles]
  | ok files =>
      rw [applyRetention_paths hfiles, List.forall_mem_map,
        forall_mem_prefix_iff
          ((List.takeWhile_prefix _).trans Limits.planned_prefix)]
      simp only [Except.ok.injEq, forall_eq']
      refine forall_congr' fun before => forall_congr' fun file =>
        forall_congr' fun after => forall_congr' fun hsplit => ?_
      rw [length_lt_removed_iff hsplit]
      generalize Limits.Within _ _ _ before file = Within
      by_cases hchosen : Chosen file.path
      · by_cases hwithin : Within <;> simp [hchosen, hwithin]
      · simp [hchosen]

theorem keepsOpen_iff :
    call.KeepsOpen machine ↔ call.OpenWithinLimits machine := by
  unfold KeepsOpen OpenWithinLimits
  rw [← keeps_iff]
  simp only [Bool.not_eq_true]

end RetentionCall

/--
In every run, whether it fails or not, a call of `apply_retention` keeps all
open segments exactly when they are within the limits.
-/
theorem openSegments_kept_iff {machine : LogMachine}
    {configuration : ExecutionConfiguration} {first last : LogHost}
    {turns : List (WriterEvent × LogHost)} {world : LogWorld} :
    ∀ call ∈ ((runWriter machine configuration first turns last).run
        world).2.retained,
      call.KeepsOpen machine ↔ call.OpenWithinLimits machine :=
  fun _ _ => RetentionCall.keepsOpen_iff

/-! ## An open segment that is removed -/

/-- A frame that stores its content as it is. -/
def storingZstd : Zstd where
  encode bytes := [0x28, 0xB5, 0x2F, 0xFD] ++ bytes
  decode bytes :=
    if [0x28, 0xB5, 0x2F, 0xFD].isPrefixOf bytes then some (bytes.drop 4)
    else none
  decode_encode bytes := by simp

def attemptDirectory : LogPath := ["tool", "execution", "attempt-000001"]

def attemptMachine : LogMachine where
  components _ := attemptDirectory
  zstd := storingZstd
  processId := 7

def firstOpenName : String := openName "20240101T000000.000000000Z" 0

/-- The listing is that of the open segment with nothing flushed yet. -/
def quietHost (now : Int) : LogHost where
  instant := 0
  timestamp := "20240101T000000.000000000Z"
  fails _ := false
  retention :=
    { readTree := fun _ => .ok [.directory "execution"
        [.directory "attempt-000001" [.file firstOpenName 0 0]]]
      now := now
      remove := fun _ => .ok () }

def emptyWorld : LogWorld := ⟨∅, [], []⟩

/-- Files are kept for one second. -/
def shortAge : PolicyUpdate where
  successExitCodes := [0]
  restartPolicy := .never
  maxRestarts := 0
  maxRestartsUnlimited := false
  restartResetAfterMs := 0
  restartBackoffInitialMs := 0
  restartBackoffMultiplier := 0
  restartBackoffMaximumMs := 0
  stopMethod := .ctrlBreak
  stopTimeoutMs := 5000
  stopExecutable := ""
  stopArguments := []
  captureLogs := true
  segmentSize := 65536
  segmentAgeMs := 60000
  retentionSize := 0
  retentionSizeUnlimited := true
  retentionAgeMs := 1000
  retentionAgeUnlimited := false
  policyHash := []

def helloChunk : OutputChunk where
  stream := .stdout
  sequence := 3
  timestampUnixMs := 0
  bytes := utf8 "hello".toList
  sequence_lt := by decide
  timestamp_lower := by decide
  timestamp_upper := by decide
  length_lt := by decide

def shortAgeTurns : List (WriterEvent × LogHost) :=
  [(.chunk helloChunk, quietHost 0),
    (.policyChanged (some shortAge), quietHost 2000000000)]

/-- The policy changes two seconds after the last write to the segment. -/
theorem openSegment_removed :
    let reached := (afterTurns attemptMachine toolConfiguration (quietHost 0)
      shortAgeTurns).run emptyWorld
    reached.1.map (fun locals => locals.writer.map SegmentWriter.path) =
        .ok (some (attemptDirectory ++ [firstOpenName])) ∧
      reached.2.disk.lookup (attemptDirectory ++ [firstOpenName]) = none ∧
      ∃ call ∈ reached.2.retained, ¬ call.KeepsOpen attemptMachine := by
  refine ⟨by decide +kernel, by decide +kernel, ?_⟩
  have hany : ((afterTurns attemptMachine toolConfiguration (quietHost 0)
      shortAgeTurns).run emptyWorld).2.retained.any (fun call =>
        (call.removals attemptMachine).paths.any isOpenSegment) = true := by
    decide +kernel
  obtain ⟨call, hcall, hopen⟩ := List.any_eq_true.mp hany
  obtain ⟨path, hpath, hsegment⟩ := List.any_eq_true.mp hopen
  refine ⟨call, hcall, fun keeps => ?_⟩
  rw [keeps path hpath] at hsegment
  cases hsegment

/-- The policy changes when the segment is not a second old yet. -/
def youngTurns : List (WriterEvent × LogHost) :=
  [(.chunk helloChunk, quietHost 0),
    (.policyChanged (some shortAge), quietHost 500000000)]

theorem openSegments_kept_iff_quiet :
    ∃ call ∈ ((runWriter attemptMachine toolConfiguration (quietHost 0)
        youngTurns (quietHost 500000000)).run emptyWorld).2.retained,
      call.configuration.retentionAgeUnlimited = false ∧
        call.OpenWithinLimits attemptMachine := by
  have hany : ((runWriter attemptMachine toolConfiguration (quietHost 0)
      youngTurns (quietHost 500000000)).run emptyWorld).2.retained.any
        (fun call => call.configuration.retentionAgeUnlimited = false ∧
          (call.removals attemptMachine).paths = []) = true := by
    decide +kernel
  obtain ⟨call, hcall, hcheck⟩ := List.any_eq_true.mp hany
  obtain ⟨finite, hnone⟩ := of_decide_eq_true hcheck
  refine ⟨call, hcall, finite, (openSegments_kept_iff call hcall).mp ?_⟩
  simp [RetentionCall.KeepsOpen, hnone]

end Susm.Supervisor
