import Susm.Foundation.Integers
import Susm.Foundation.LittleEndian
import Susm.Protocol.Runtime

/-!
# The runtime journal

An append-only file of frames: the payload length, the encoded payload and its
CRC32C.  The Protobuf codec and the checksum come from other packages and are
parameters.
-/

namespace Susm.Supervisor

open Susm.Foundation
open Susm.Protocol

/-- The Protobuf encoding of a frame and the checksum of a payload. -/
structure FrameCodec where
  encodeToVec : RuntimeFrame → List UInt8
  decode : List UInt8 → Except String RuntimeFrame
  crc32c : List UInt8 → UInt32

/-- `MAX_RUNTIME_FRAME_BYTES` -/
def maxRuntimeFrameBytes : Nat := 4 * 1024 * 1024

/-- The exclusive bound of `usize`. -/
def usizeLimit : Nat := 2 ^ 64

/-- File offsets are signed 64-bit integers. -/
def fileLimit : Nat := 2 ^ 63

inductive JournalError where
  | frameTooLarge
  | lengthOverflowed
  | checksumOffsetOverflowed
  | checksumMismatch
  | decode (error : String)
  | unsupportedFrame
  | finalized
  | write
  deriving DecidableEq, Repr

/-- `bytes[first..last]` -/
def slice (bytes : List UInt8) (first last : Nat) : List UInt8 :=
  (bytes.drop first).take (last - first)

/-! ## Reading -/

def checkFrame (codec : FrameCodec) (payload : List UInt8) (expected : Nat) :
    Except JournalError RuntimeFrame :=
  if (codec.crc32c payload).toNat ≠ expected then .error .checksumMismatch
  else
    match codec.decode payload with
    | .error error => .error (.decode error)
    | .ok frame =>
        if frame.format ≠ 1 ∨ frame.record.isNone then
          .error .unsupportedFrame
        else .ok frame

/--
One round of the loop in `read_runtime_frames`: the frame at the offset with
the offset after it, or nothing when the file ends before the frame does.
-/
def readRuntimeFrame (codec : FrameCodec) (bytes : List UInt8)
    (offset : Nat) : Except JournalError (Option (RuntimeFrame × Nat)) :=
  let length := ofLeBytes (slice bytes offset (offset + 4))
  if length > maxRuntimeFrameBytes then .error .frameTooLarge
  else
    let payloadStart := offset + 4
    match checked usizeLimit (payloadStart + length) with
    | none => .error .lengthOverflowed
    | some checksumStart =>
        match checked usizeLimit (checksumStart + 4) with
        | none => .error .checksumOffsetOverflowed
        | some frameEnd =>
            if frameEnd > bytes.length then .ok none
            else
              let payload := slice bytes payloadStart checksumStart
              let expected := ofLeBytes (slice bytes checksumStart frameEnd)
              (checkFrame codec payload expected).map fun frame =>
                some (frame, frameEnd)

theorem readRuntimeFrame_bounds {codec : FrameCodec} {bytes : List UInt8}
    {offset frameEnd : Nat} {frame : RuntimeFrame}
    (h : readRuntimeFrame codec bytes offset = .ok (some (frame, frameEnd))) :
    offset < frameEnd ∧ frameEnd ≤ bytes.length := by
  unfold readRuntimeFrame at h
  dsimp only at h
  generalize ofLeBytes (slice bytes offset (offset + 4)) = length at h
  split at h
  · cases h
  split at h
  · cases h
  rename_i checksumStart hstart
  split at h
  · cases h
  rename_i last hlast
  split at h
  · cases h
  rename_i hend
  have hfirst := (checked_eq_some_iff.mp hstart).2
  have hsecond := (checked_eq_some_iff.mp hlast).2
  have hresult : last = frameEnd := by
    generalize checkFrame codec _ _ = checked at h
    cases checked with
    | error error => cases h
    | ok value =>
        cases h
        rfl
  omega

/-- The loop of `read_runtime_frames` from an offset on. -/
def readFrom (codec : FrameCodec) (bytes : List UInt8) (offset : Nat)
    (frames : List RuntimeFrame) : Except JournalError (List RuntimeFrame) :=
  if bytes.length - offset ≥ 4 then
    match _h : readRuntimeFrame codec bytes offset with
    | .error error => .error error
    | .ok none => .ok frames
    | .ok (some (frame, frameEnd)) =>
        readFrom codec bytes frameEnd (frames ++ [frame])
  else .ok frames
termination_by bytes.length - offset
decreasing_by
  have := readRuntimeFrame_bounds _h
  omega

def readRuntimeFrames (codec : FrameCodec) (file : Option (List UInt8)) :
    Except JournalError (List RuntimeFrame) :=
  match file with
  | none => .ok []
  | some bytes => readFrom codec bytes 0 []

/-! ## The open journal -/

structure RuntimeJournal where
  finalized : Bool
  frames : List RuntimeFrame
  deriving DecidableEq, Repr

structure RuntimeRecovery where
  checkpoint : Option Checkpoint
  lastSequence : Nat
  committedSequence : Nat
  deriving DecidableEq, Repr

namespace RuntimeJournal

/-- Opening for append leaves the bytes of the file as they are. -/
def «open» (codec : FrameCodec) (file : Option (List UInt8)) :
    Except JournalError (RuntimeJournal × List UInt8) :=
  (readRuntimeFrames codec file).map fun frames =>
    (⟨false, frames⟩, file.getD [])

def recovery (journal : RuntimeJournal) : RuntimeRecovery where
  checkpoint := journal.frames.reverse.findSome? fun frame =>
    match frame.record with
    | some (.checkpoint checkpoint) => some checkpoint
    | _ => none
  lastSequence := (journal.frames.filterMap fun frame =>
    match frame.record with
    | some (.observation observation) => some observation.sequence
    | _ => none).foldl max 0
  committedSequence := (journal.frames.filterMap fun frame =>
    match frame.record with
    | some (.acknowledgement acknowledgement) =>
        some acknowledgement.committedSequence
    | some (.checkpoint checkpoint) => some checkpoint.committedSequence
    | _ => none).foldl max 0

/-- The observations that a reader with this cursor has not seen. -/
def observationsAfter (journal : RuntimeJournal) (sequence : Nat) :
    List RuntimeObservation :=
  journal.frames.filterMap fun frame =>
    match frame.record with
    | some (.observation observation) =>
        if observation.sequence > sequence then some observation else none
    | _ => none

/-- The frame that `append_checkpoint` and its siblings build. -/
def frameOf (record : RuntimeRecord) : RuntimeFrame := ⟨1, some record⟩

def encodeFrame (codec : FrameCodec) (frame : RuntimeFrame) : List UInt8 :=
  let payload := codec.encodeToVec frame
  leBytes 4 payload.length ++ payload ++ leBytes 4 (codec.crc32c payload).toNat

/--
What the storage does with a write: all of it reaches the file and the sync
succeeds, or the write or the sync fails after so many bytes.
-/
inductive WriteOutcome where
  | synced
  | failed (count : Nat)
  deriving DecidableEq, Repr

structure Appended where
  result : Except JournalError Unit
  bytes : List UInt8
  journal : RuntimeJournal

def append (codec : FrameCodec) (bytes : List UInt8) (journal : RuntimeJournal)
    (frame : RuntimeFrame) (outcome : WriteOutcome) : Appended :=
  let payload := codec.encodeToVec frame
  if payload.length > maxRuntimeFrameBytes then
    ⟨.error .frameTooLarge, bytes, journal⟩
  else if (checked (2 ^ 32) payload.length).isNone then
    ⟨.error .lengthOverflowed, bytes, journal⟩
  else if journal.finalized then ⟨.error .finalized, bytes, journal⟩
  else if fileLimit ≤ bytes.length + (encodeFrame codec frame).length then
    ⟨.error .write, bytes, journal⟩
  else
    match outcome with
    | .synced =>
        ⟨.ok (), bytes ++ encodeFrame codec frame,
          { journal with frames := journal.frames ++ [frame] }⟩
    | .failed count =>
        ⟨.error .write, bytes ++ (encodeFrame codec frame).take count,
          journal⟩

end RuntimeJournal

end Susm.Supervisor
