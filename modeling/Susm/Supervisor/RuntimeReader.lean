import Susm.Supervisor.JournalDurability

/-!
# What the reader of the runtime journal accepts

A file that was written frame after frame and then cut off anywhere is read
back up to the cut.  The reader with the bounds checks of its slices never
leaves the file, and a frame it returns was stored with the checksum of its
payload.
-/

namespace Susm.Supervisor

open Susm.Foundation
open Susm.Foundation.Framing
open Susm.Protocol

/-! ## Written frames -/

namespace RuntimeJournal

def appendAll (codec : FrameCodec) (bytes : List UInt8)
    (journal : RuntimeJournal) :
    List RuntimeFrame → Except JournalError (List UInt8 × RuntimeJournal)
  | [] => .ok (bytes, journal)
  | frame :: frames =>
      let appended := journal.append codec bytes frame .synced
      match appended.result with
      | .error error => .error error
      | .ok () => appendAll codec appended.bytes appended.journal frames

end RuntimeJournal

/-- The frames that lie wholly within the first bytes of what was written. -/
def framesWithin (codec : FrameCodec) (size : Nat)
    (frames : List RuntimeFrame) : List RuntimeFrame :=
  within (RuntimeJournal.encodeFrame codec) size frames

section Written

variable {codec : FrameCodec} {bytes file : List UInt8}
  {journal last : RuntimeJournal} {frames : List RuntimeFrame}

theorem append_synced (hopen : journal.finalized = false)
    {frame : RuntimeFrame}
    (h : (journal.append codec bytes frame .synced).result = .ok ()) :
    (codec.encodeToVec frame).length ≤ maxRuntimeFrameBytes ∧
      bytes.length + (RuntimeJournal.encodeFrame codec frame).length <
        fileLimit ∧
      journal.append codec bytes frame .synced =
        ⟨.ok (), bytes ++ RuntimeJournal.encodeFrame codec frame,
          { journal with frames := journal.frames ++ [frame] }⟩ := by
  rcases append_cases hopen .synced codec frame with
    ⟨error, heq⟩ | ⟨hfits, hroom, ⟨-, heq⟩ | ⟨count, hfailed, -⟩⟩
  · rw [heq] at h
    cases h
  · exact ⟨hfits, hroom, heq⟩
  · cases hfailed

theorem appendAll_written (hopen : journal.finalized = false)
    (hfile : bytes.length < fileLimit)
    (written : journal.appendAll codec bytes frames = .ok (file, last)) :
    file = bytes ++ frames.flatMap (RuntimeJournal.encodeFrame codec) ∧
      file.length < fileLimit ∧
      ∀ frame ∈ frames,
        (codec.encodeToVec frame).length ≤ maxRuntimeFrameBytes := by
  induction frames generalizing bytes journal with
  | nil =>
      cases written
      simpa using hfile
  | cons frame frames ih =>
      unfold RuntimeJournal.appendAll at written
      dsimp only at written
      split at written
      · cases written
      · rename_i hresult
        obtain ⟨hfits, hroom, heq⟩ := append_synced hopen hresult
        rw [heq] at written
        have hnext : (bytes ++ RuntimeJournal.encodeFrame codec frame).length <
            fileLimit := by
          rw [List.length_append]
          exact hroom
        obtain ⟨hbytes, hlength, hrest⟩ :=
          @ih _ { journal with frames := journal.frames ++ [frame] } hopen
            hnext written
        refine ⟨?_, hlength, ?_⟩
        · rw [hbytes, List.flatMap_cons, List.append_assoc]
        · intro other hmem
          rcases List.mem_cons.mp hmem with rfl | hmem
          · exact hfits
          · exact hrest other hmem

theorem readRuntimeFrames_truncated
    (hfile : (frames.flatMap (RuntimeJournal.encodeFrame codec)).length <
      fileLimit)
    (writable : ∀ frame ∈ frames, Writable codec frame) (size : Nat) :
    readRuntimeFrames codec
        (some ((frames.flatMap (RuntimeJournal.encodeFrame codec)).take
          size)) =
      .ok (framesWithin codec size frames) := by
  obtain ⟨tail, layout⟩ := Layout.truncated writable size
  have parses : Parses (frameReader codec) _ _ tail :=
    layout.parses (fun _ => Writable.readable) rfl
  refine readRuntimeFrames_of_parses ?_ parses
  rw [List.length_take]
  omega

end Written

/-! ## Bounds -/

/-- `bytes[first..last]`, where a range outside the bytes is a panic. -/
def sliceChecked (bytes : List UInt8) (first last : Nat) :
    Option (List UInt8) :=
  if first ≤ last ∧ last ≤ bytes.length then some (slice bytes first last)
  else none

/-- One round of the loop with the bounds checks of the slices it takes. -/
def readRuntimeFrameChecked (codec : FrameCodec) (bytes : List UInt8)
    (offset : Nat) :
    Option (Except JournalError (Option (RuntimeFrame × Nat))) := do
  let header ← sliceChecked bytes offset (offset + 4)
  let length := ofLeBytes header
  if length > maxRuntimeFrameBytes then return .error .frameTooLarge
  let payloadStart := offset + 4
  match checked usizeLimit (payloadStart + length) with
  | none => return .error .lengthOverflowed
  | some checksumStart =>
      match checked usizeLimit (checksumStart + 4) with
      | none => return .error .checksumOffsetOverflowed
      | some frameEnd =>
          if frameEnd > bytes.length then return .ok none
          let payload ← sliceChecked bytes payloadStart checksumStart
          let stored ← sliceChecked bytes checksumStart frameEnd
          return (checkFrame codec payload (ofLeBytes stored)).map
            fun frame => some (frame, frameEnd)

theorem sliceChecked_within {bytes : List UInt8} {first last : Nat}
    (hfirst : first ≤ last) (hlast : last ≤ bytes.length) :
    sliceChecked bytes first last = some (slice bytes first last) :=
  if_pos ⟨hfirst, hlast⟩

theorem readRuntimeFrameChecked_eq (codec : FrameCodec)
    {bytes : List UInt8} {offset : Nat} (h : bytes.length - offset ≥ 4) :
    readRuntimeFrameChecked codec bytes offset =
      some (readRuntimeFrame codec bytes offset) := by
  unfold readRuntimeFrameChecked readRuntimeFrame
  rw [sliceChecked_within (by omega) (by omega)]
  simp only [Option.bind_eq_bind, Option.bind_some]
  generalize ofLeBytes (slice bytes offset (offset + 4)) = length
  split
  · rfl
  cases hstart : checked usizeLimit (offset + 4 + length) with
  | none => rfl
  | some checksumStart =>
      have hfirst := (checked_eq_some_iff.mp hstart).2
      dsimp only
      cases hend : checked usizeLimit (checksumStart + 4) with
      | none => rfl
      | some frameEnd =>
          have hsecond := (checked_eq_some_iff.mp hend).2
          dsimp only
          split
          · rfl
          · rename_i hinside
            rw [sliceChecked_within (by omega) (by omega),
              sliceChecked_within (by omega) (by omega)]
            rfl

/-- The loop of `read_runtime_frames`, each round with its bounds checks. -/
def readFromChecked (codec : FrameCodec) (bytes : List UInt8) (offset : Nat)
    (frames : List RuntimeFrame) :
    Option (Except JournalError (List RuntimeFrame)) :=
  if _hlong : bytes.length - offset ≥ 4 then
    match _h : readRuntimeFrameChecked codec bytes offset with
    | none => none
    | some (.error error) => some (.error error)
    | some (.ok none) => some (.ok frames)
    | some (.ok (some (frame, frameEnd))) =>
        readFromChecked codec bytes frameEnd (frames ++ [frame])
  else some (.ok frames)
termination_by bytes.length - offset
decreasing_by
  rw [readRuntimeFrameChecked_eq codec _hlong] at _h
  have := readRuntimeFrame_bounds (Option.some.inj _h)
  omega

/-- The bounds checks never fail, whatever the bytes are. -/
theorem readFromChecked_eq (codec : FrameCodec) (bytes : List UInt8)
    (offset : Nat) (frames : List RuntimeFrame) :
    readFromChecked codec bytes offset frames =
      some (readFrom codec bytes offset frames) := by
  fun_induction readFrom codec bytes offset frames with
  | case1 offset frames hlong error hround =>
      have hchecked := readRuntimeFrameChecked_eq codec hlong
      rw [hround] at hchecked
      unfold readFromChecked
      rw [dif_pos hlong]
      split <;> simp_all
  | case2 offset frames hlong hround =>
      have hchecked := readRuntimeFrameChecked_eq codec hlong
      rw [hround] at hchecked
      unfold readFromChecked
      rw [dif_pos hlong]
      split <;> simp_all
  | case3 offset frames hlong frame frameEnd hround ih =>
      have hchecked := readRuntimeFrameChecked_eq codec hlong
      rw [hround] at hchecked
      unfold readFromChecked
      rw [dif_pos hlong]
      split <;> simp_all
  | case4 offset frames hshort =>
      unfold readFromChecked
      rw [dif_neg hshort]

def readRuntimeFramesChecked (codec : FrameCodec)
    (file : Option (List UInt8)) :
    Option (Except JournalError (List RuntimeFrame)) :=
  match file with
  | none => some (.ok [])
  | some bytes => readFromChecked codec bytes 0 []

/-! ## What is returned was stored -/

def storePayload (codec : FrameCodec) (payload : List UInt8) : List UInt8 :=
  leBytes 4 payload.length ++ payload ++
    leBytes 4 (codec.crc32c payload).toNat

/-- The payload passes the checks of the reader and decodes to the frame. -/
structure Decoded (codec : FrameCodec) (payload : List UInt8)
    (frame : RuntimeFrame) : Prop where
  decode : codec.decode payload = .ok frame
  format : frame.format = 1
  record : frame.record.isSome

theorem checkFrame_ok {codec : FrameCodec} {payload : List UInt8}
    {expected : Nat} {frame : RuntimeFrame}
    (h : checkFrame codec payload expected = .ok frame) :
    (codec.crc32c payload).toNat = expected ∧ Decoded codec payload frame := by
  unfold checkFrame at h
  split at h
  · cases h
  rename_i hchecksum
  split at h
  · cases h
  rename_i decoded hdecode
  split at h
  · cases h
  rename_i hsupported
  cases h
  simp only [not_or, not_not] at hsupported
  refine ⟨by simpa using hchecksum, hdecode, hsupported.1, ?_⟩
  simpa [Option.isSome_iff_ne_none] using hsupported.2

theorem slice_length {bytes : List UInt8} {first last : Nat}
    (hlast : last ≤ bytes.length) :
    (slice bytes first last).length = last - first := by
  simp [slice]
  omega

theorem slice_slice (bytes : List UInt8) {first middle last : Nat}
    (hfirst : first ≤ middle) (hlast : middle ≤ last) :
    slice bytes first middle ++ slice bytes middle last =
      slice bytes first last := by
  have hmiddle : bytes.drop middle =
      (bytes.drop first).drop (middle - first) := by
    rw [List.drop_drop, Nat.add_sub_cancel' hfirst]
  have hsum : last - first = (middle - first) + (last - middle) := by omega
  rw [slice, slice, slice, hmiddle, hsum, List.take_add]

theorem readRuntimeFrame_stored {codec : FrameCodec} {bytes : List UInt8}
    {offset frameEnd : Nat} {frame : RuntimeFrame}
    (hlong : bytes.length - offset ≥ 4)
    (h : readRuntimeFrame codec bytes offset = .ok (some (frame, frameEnd))) :
    ∃ payload, Decoded codec payload frame ∧
      slice bytes offset frameEnd = storePayload codec payload := by
  have hbounds := readRuntimeFrame_bounds h
  have hheader : (slice bytes offset (offset + 4)).length = 4 := by
    rw [slice_length (by omega)]
    omega
  have hencoded := leBytes_ofLeBytes (slice bytes offset (offset + 4))
  rw [hheader] at hencoded
  unfold readRuntimeFrame at h
  dsimp only at h
  generalize ofLeBytes (slice bytes offset (offset + 4)) = length at *
  split at h
  · cases h
  split at h
  · cases h
  rename_i checksumStart hstart
  obtain ⟨-, rfl⟩ := checked_eq_some_iff.mp hstart
  split at h
  · cases h
  rename_i last hlast
  obtain ⟨-, rfl⟩ := checked_eq_some_iff.mp hlast
  split at h
  · cases h
  rename_i hinside
  generalize hchecked : checkFrame codec _ _ = outcome at h
  cases outcome with
  | error error => cases h
  | ok found =>
      cases h
      obtain ⟨hchecksum, decoded⟩ := checkFrame_ok hchecked
      refine ⟨_, decoded, ?_⟩
      have hpayload : (slice bytes (offset + 4) (offset + 4 + length)).length =
          length := by
        rw [slice_length (by omega)]
        omega
      have hstored : (slice bytes (offset + 4 + length)
          (offset + 4 + length + 4)).length = 4 := by
        rw [slice_length (by omega)]
        omega
      have hsum := leBytes_ofLeBytes (slice bytes (offset + 4 + length)
        (offset + 4 + length + 4))
      rw [hstored, ← hchecksum] at hsum
      rw [storePayload, hpayload, hencoded, hsum,
        slice_slice bytes (by omega) (by omega),
        slice_slice bytes (by omega) (by omega)]

theorem readFrom_stored {codec : FrameCodec} {bytes : List UInt8}
    {offset : Nat} {found frames : List RuntimeFrame}
    (h : readFrom codec bytes offset found = .ok frames)
    (hoffset : offset ≤ bytes.length) :
    ∃ more payloads tail, frames = found ++ more ∧
      List.Forall₂ (Decoded codec) payloads more ∧
      bytes.drop offset = payloads.flatMap (storePayload codec) ++ tail := by
  fun_induction readFrom codec bytes offset found with
  | case1 offset found hlong error hround => cases h
  | case2 offset found hlong hround =>
      cases h
      exact ⟨[], [], bytes.drop offset, by simp, .nil, by simp⟩
  | case3 offset found hlong frame frameEnd hround ih =>
      obtain ⟨payload, decoded, hslice⟩ := readRuntimeFrame_stored hlong hround
      obtain ⟨hlower, hupper⟩ := readRuntimeFrame_bounds hround
      obtain ⟨more, payloads, tail, hframes, hall, hrest⟩ := ih h hupper
      refine ⟨frame :: more, payload :: payloads, tail, ?_,
        .cons decoded hall, ?_⟩
      · simpa using hframes
      · calc
          bytes.drop offset =
              slice bytes offset frameEnd ++ bytes.drop frameEnd := by
            have hdrop : bytes.drop frameEnd =
                (bytes.drop offset).drop (frameEnd - offset) := by
              rw [List.drop_drop, Nat.add_sub_cancel' hlower.le]
            rw [hdrop, slice, List.take_append_drop]
          _ = (payload :: payloads).flatMap (storePayload codec) ++ tail := by
            rw [hslice, hrest, List.flatMap_cons, List.append_assoc]
  | case4 offset found hshort =>
      cases h
      exact ⟨[], [], bytes.drop offset, by simp, .nil, by simp⟩

/--
A file of appended frames that is cut off after any number of bytes is read
back up to the cut.  On any bytes at all the reader ends without leaving them,
and what it returns was stored with the checksum of its payload.
-/
theorem reader_exact (codec : FrameCodec) :
    (∀ (records : List RuntimeRecord) (journal last : RuntimeJournal)
        (empty file : List UInt8),
      (∀ frame ∈ records.map RuntimeJournal.frameOf,
        codec.decode (codec.encodeToVec frame) = .ok frame) →
      RuntimeJournal.open codec none = .ok (journal, empty) →
      journal.appendAll codec empty (records.map RuntimeJournal.frameOf) =
        .ok (file, last) →
      ∀ size, readRuntimeFrames codec (some (file.take size)) =
        .ok (framesWithin codec size
          (records.map RuntimeJournal.frameOf))) ∧
    ∀ bytes : List UInt8,
      readRuntimeFramesChecked codec (some bytes) =
        some (readRuntimeFrames codec (some bytes)) ∧
      ∀ frames, readRuntimeFrames codec (some bytes) = .ok frames →
        ∃ payloads tail, List.Forall₂ (Decoded codec) payloads frames ∧
          bytes = payloads.flatMap (storePayload codec) ++ tail := by
  constructor
  · intro records journal last empty file readable opened written size
    cases opened
    have hempty : ([] : List UInt8).length < fileLimit := by simp [fileLimit]
    obtain ⟨hfile, hlength, hfits⟩ := appendAll_written rfl hempty written
    rw [List.nil_append] at hfile
    subst hfile
    refine readRuntimeFrames_truncated hlength ?_ size
    intro frame hmem
    have hdecode := readable frame hmem
    have hfits := hfits frame hmem
    obtain ⟨record, -, rfl⟩ := List.mem_map.mp hmem
    exact ⟨rfl, rfl, hfits, hdecode⟩
  · intro bytes
    refine ⟨readFromChecked_eq codec bytes 0 [], ?_⟩
    intro frames hread
    obtain ⟨more, payloads, tail, hframes, hall, hbytes⟩ :=
      readFrom_stored hread (Nat.zero_le _)
    rw [List.nil_append] at hframes
    subst hframes
    exact ⟨payloads, tail, hall, hbytes⟩

open JournalWorld in
/-- Two acknowledgements, the second cut off in its checksum. -/
theorem reader_exact_cut :
    readRuntimeFrames sampleCodec
        (some (([sampleRecord 1, sampleRecord 2].flatMap fun record =>
          RuntimeJournal.encodeFrame sampleCodec
            (RuntimeJournal.frameOf record)).take 26)) =
      .ok [RuntimeJournal.frameOf (sampleRecord 1)] := by
  refine ((reader_exact sampleCodec).1 [sampleRecord 1, sampleRecord 2]
    ⟨false, []⟩ ⟨false, [sampleRecord 1, sampleRecord 2].map
      RuntimeJournal.frameOf⟩ [] _ ?_ rfl ?_ 26).trans ?_
  · decide
  · decide +kernel
  · decide +kernel

end Susm.Supervisor
