import Susm.Foundation.Framing
import Susm.Supervisor.Journal

/-!
# Durability of the runtime journal

The offset loop of the reader is related to reading one frame after another
off the front of the file.  Over any sequence of incarnations that open the
journal, append and crash, every acknowledged frame is recovered as long as
nothing is appended behind an incomplete frame.
-/

namespace Susm.Supervisor

open Susm.Foundation
open Susm.Foundation.Framing
open Susm.Protocol

/-! ## The reader, one frame at a time -/

theorem slice_append (before middle after : List UInt8) {first last : Nat}
    (hfirst : first = before.length)
    (hlast : last = before.length + middle.length) :
    slice (before ++ (middle ++ after)) first last = middle := by
  subst hfirst hlast
  simp [slice]

theorem slice_drop (bytes : List UInt8) (offset first last : Nat) :
    slice (bytes.drop offset) first last =
      slice bytes (offset + first) (offset + last) := by
  simp [slice, List.drop_drop, Nat.add_sub_add_left]

/-- The rest of a round whose offsets cannot overflow. -/
def readWithin (codec : FrameCodec) (bytes : List UInt8) (offset : Nat) :
    Except JournalError (Option (RuntimeFrame × Nat)) :=
  let length := ofLeBytes (slice bytes offset (offset + 4))
  if length > maxRuntimeFrameBytes then .error .frameTooLarge
  else if offset + 4 + length + 4 > bytes.length then .ok none
  else
    (checkFrame codec (slice bytes (offset + 4) (offset + 4 + length))
        (ofLeBytes (slice bytes (offset + 4 + length)
          (offset + 4 + length + 4)))).map
      fun frame => some (frame, offset + 4 + length + 4)

theorem readRuntimeFrame_eq (codec : FrameCodec) (bytes : List UInt8)
    {offset : Nat} (h : offset < fileLimit) :
    readRuntimeFrame codec bytes offset = readWithin codec bytes offset := by
  unfold readRuntimeFrame readWithin
  dsimp only
  generalize ofLeBytes (slice bytes offset (offset + 4)) = length
  split
  · rfl
  · rename_i hlength
    have hend : offset + 4 + length + 4 < usizeLimit := by
      unfold fileLimit at h
      unfold maxRuntimeFrameBytes at hlength
      unfold usizeLimit
      omega
    rw [checked_of_lt (by omega)]
    dsimp only
    rw [checked_of_lt hend]

def frameReader (codec : FrameCodec) :
    Reader UInt8 RuntimeFrame JournalError := fun input =>
  if input.length ≥ 4 then
    (readWithin codec input 0).map
      (Option.map fun front => (front.1, input.drop front.2))
  else .ok none

theorem readWithin_drop (codec : FrameCodec) (bytes : List UInt8)
    {offset : Nat} (h : offset ≤ bytes.length) :
    readWithin codec bytes offset =
      (readWithin codec (bytes.drop offset) 0).map
        (Option.map fun front => (front.1, offset + front.2)) := by
  unfold readWithin
  simp only [slice_drop, List.length_drop, Nat.add_zero, Nat.zero_add,
    ← Nat.add_assoc]
  generalize ofLeBytes (slice bytes offset (offset + 4)) = length
  split
  · rfl
  · by_cases hend : offset + 4 + length + 4 > bytes.length
    · rw [if_pos hend, if_pos (by omega)]
      rfl
    · rw [if_neg hend, if_neg (by omega)]
      generalize checkFrame codec _ _ = checked
      cases checked <;> simp [Except.map, Nat.add_assoc]

theorem frameReader_eq_some {codec : FrameCodec} {input rest : List UInt8}
    {frame : RuntimeFrame}
    (h : frameReader codec input = .ok (some (frame, rest))) :
    4 ≤ input.length ∧ ∃ consumed,
      readWithin codec input 0 = .ok (some (frame, consumed)) ∧
        rest = input.drop consumed := by
  unfold frameReader at h
  split at h
  · rename_i hlong
    refine ⟨hlong, ?_⟩
    generalize readWithin codec input 0 = front at h
    cases front with
    | error error => cases h
    | ok front =>
        cases front with
        | none => cases h
        | some front =>
            cases h
            exact ⟨front.2, rfl, rfl⟩
  · cases h

theorem frameReader_eq_none {codec : FrameCodec} {input : List UInt8}
    (h : frameReader codec input = .ok none) :
    input.length < 4 ∨ readWithin codec input 0 = .ok none := by
  unfold frameReader at h
  split at h
  · generalize readWithin codec input 0 = front at h ⊢
    cases front with
    | error error => cases h
    | ok front =>
        cases front with
        | some front => cases h
        | none => exact .inr rfl
  · rename_i hshort
    exact .inl (by omega)

theorem readFrom_of_parses {codec : FrameCodec} {bytes : List UInt8}
    (hbytes : bytes.length < fileLimit) {input tail : List UInt8}
    {frames : List RuntimeFrame}
    (parses : Parses (frameReader codec) input frames tail) {offset : Nat}
    (hoffset : offset ≤ bytes.length) (hinput : input = bytes.drop offset)
    (found : List RuntimeFrame) :
    readFrom codec bytes offset found = .ok (found ++ frames) := by
  induction parses generalizing offset found with
  | stop incomplete =>
      subst hinput
      rw [List.append_nil, readFrom]
      split
      · rename_i hlong
        rcases frameReader_eq_none incomplete with hshort | hnone
        · rw [List.length_drop] at hshort
          omega
        · have hround : readRuntimeFrame codec bytes offset = .ok none := by
            rw [readRuntimeFrame_eq codec bytes (by omega),
              readWithin_drop codec bytes hoffset, hnone]
            rfl
          split
          · rename_i heq
            rw [hround] at heq
            cases heq
          · rfl
          · rename_i heq
            rw [hround] at heq
            cases heq
      · rfl
  | @next input rest tail frame frames head more ih =>
      subst hinput
      obtain ⟨hlong, consumed, hfront, hrest⟩ := frameReader_eq_some head
      have hround : readRuntimeFrame codec bytes offset =
          .ok (some (frame, offset + consumed)) := by
        rw [readRuntimeFrame_eq codec bytes (by omega),
          readWithin_drop codec bytes hoffset, hfront]
        rfl
      have hbound := (readRuntimeFrame_bounds hround).2
      rw [List.length_drop] at hlong
      rw [List.drop_drop] at hrest
      rw [readFrom, if_pos hlong]
      split
      · rename_i heq
        rw [hround] at heq
        cases heq
      · rename_i heq
        rw [hround] at heq
        cases heq
      · rename_i heq
        rw [hround] at heq
        cases heq
        rw [ih hbound hrest, List.append_assoc]
        rfl

theorem readRuntimeFrames_of_parses {codec : FrameCodec}
    {bytes tail : List UInt8} {frames : List RuntimeFrame}
    (hbytes : bytes.length < fileLimit)
    (parses : Parses (frameReader codec) bytes frames tail) :
    readRuntimeFrames codec (some bytes) = .ok frames :=
  readFrom_of_parses hbytes parses (Nat.zero_le _) rfl []

/-! ## Frames that the supervisor writes -/

/-- A frame that `append` accepts and that survives the Protobuf codec. -/
structure Writable (codec : FrameCodec) (frame : RuntimeFrame) : Prop where
  format : frame.format = 1
  record : frame.record.isSome
  fits : (codec.encodeToVec frame).length ≤ maxRuntimeFrameBytes
  roundTrip : codec.decode (codec.encodeToVec frame) = .ok frame

section Writable

variable {codec : FrameCodec} {frame : RuntimeFrame}

open RuntimeJournal

theorem length_encodeFrame (codec : FrameCodec) (frame : RuntimeFrame) :
    (encodeFrame codec frame).length =
      (codec.encodeToVec frame).length + 8 := by
  simp [encodeFrame]
  omega

theorem Writable.length_header (writable : Writable codec frame) :
    ofLeBytes (leBytes 4 (codec.encodeToVec frame).length) =
      (codec.encodeToVec frame).length := by
  apply ofLeBytes_leBytes_of_lt
  have := writable.fits
  unfold maxRuntimeFrameBytes at this
  omega

theorem Writable.checkFrame (writable : Writable codec frame) :
    checkFrame codec (codec.encodeToVec frame)
        (ofLeBytes (leBytes 4
          (codec.crc32c (codec.encodeToVec frame)).toNat)) =
      .ok frame := by
  have hcrc : (codec.crc32c (codec.encodeToVec frame)).toNat < 256 ^ 4 :=
    UInt32.toNat_lt _
  have hrecord : frame.record.isNone = false := by
    simpa using writable.record
  rw [ofLeBytes_leBytes_of_lt hcrc]
  unfold Supervisor.checkFrame
  simp [writable.roundTrip, writable.format, hrecord]

theorem Writable.whole (writable : Writable codec frame)
    (rest : List UInt8) :
    frameReader codec (encodeFrame codec frame ++ rest) =
      .ok (some (frame, rest)) := by
  have hfits := writable.fits
  have hcheck := writable.checkFrame
  have hheader := writable.length_header
  unfold encodeFrame
  dsimp only
  generalize codec.encodeToVec frame = payload at *
  have hheaderLength : (leBytes 4 payload.length).length = 4 :=
    length_leBytes _ _
  have hsumLength : (leBytes 4 (codec.crc32c payload).toNat).length = 4 :=
    length_leBytes _ _
  generalize leBytes 4 payload.length = header at *
  generalize leBytes 4 (codec.crc32c payload).toNat = checksum at *
  have hinput : header ++ payload ++ checksum ++ rest =
      header ++ (payload ++ (checksum ++ rest)) := by simp
  have hfirst : slice (header ++ payload ++ checksum ++ rest) 0 (0 + 4) =
      header := by
    rw [hinput]
    exact slice_append [] header _ rfl (by simp [hheaderLength])
  have hpayload : slice (header ++ payload ++ checksum ++ rest) (0 + 4)
      (0 + 4 + payload.length) = payload := by
    rw [hinput]
    exact slice_append header payload _ (by omega) (by omega)
  have hchecksum : slice (header ++ payload ++ checksum ++ rest)
      (0 + 4 + payload.length) (0 + 4 + payload.length + 4) = checksum := by
    rw [List.append_assoc]
    exact slice_append (header ++ payload) checksum rest
      (by simp [hheaderLength]) (by simp [hheaderLength, hsumLength])
  have hend : (header ++ payload ++ checksum).length =
      0 + 4 + payload.length + 4 := by
    simp [hheaderLength, hsumLength]
    omega
  have hfront : readWithin codec (header ++ payload ++ checksum ++ rest) 0 =
      .ok (some (frame, 0 + 4 + payload.length + 4)) := by
    unfold readWithin
    dsimp only
    rw [hfirst, hheader, hpayload, hchecksum, hcheck, if_neg (by omega),
      if_neg (by rw [List.length_append, hend]; omega)]
    rfl
  unfold frameReader
  rw [if_pos (by rw [List.length_append, hend]; omega), hfront, ← hend]
  simp only [Except.map, Option.map_some, List.drop_left]

theorem Writable.part (writable : Writable codec frame) {tail : List UInt8}
    (hstart : tail <+: encodeFrame codec frame)
    (hne : tail ≠ encodeFrame codec frame) :
    frameReader codec tail = .ok none := by
  have hlength := length_encodeFrame codec frame
  have hshort : tail.length < (encodeFrame codec frame).length := by
    rcases Nat.lt_or_ge tail.length (encodeFrame codec frame).length with h | h
    · exact h
    · exact absurd (hstart.eq_of_length_le h) hne
  unfold frameReader
  split
  · rename_i hlong
    have hfirst : slice tail 0 (0 + 4) =
        leBytes 4 (codec.encodeToVec frame).length := by
      have hsame : slice tail 0 (0 + 4) =
          slice (encodeFrame codec frame) 0 (0 + 4) := by
        obtain ⟨more, hmore⟩ := hstart
        rw [← hmore]
        simp [slice, List.take_append_of_le_length hlong]
      rw [hsame, encodeFrame, List.append_assoc]
      exact slice_append [] (leBytes 4 (codec.encodeToVec frame).length) _ rfl
        (by simp)
    have hfront : readWithin codec tail 0 = .ok none := by
      have hfits := writable.fits
      unfold readWithin
      dsimp only
      rw [hfirst, writable.length_header, if_neg (by omega),
        if_pos (by omega)]
    rw [hfront]
    rfl
  · rfl

theorem Writable.readable (writable : Writable codec frame) :
    Readable (frameReader codec) (encodeFrame codec) frame :=
  ⟨writable.whole, fun _ => writable.part⟩

end Writable

theorem append_cases {bytes : List UInt8} {journal : RuntimeJournal}
    (hopen : journal.finalized = false) (outcome : RuntimeJournal.WriteOutcome)
    (codec : FrameCodec) (frame : RuntimeFrame) :
    (∃ error, journal.append codec bytes frame outcome =
        ⟨.error error, bytes, journal⟩) ∨
      (codec.encodeToVec frame).length ≤ maxRuntimeFrameBytes ∧
        bytes.length + (RuntimeJournal.encodeFrame codec frame).length <
          fileLimit ∧
        (outcome = .synced ∧
            journal.append codec bytes frame outcome =
              ⟨.ok (), bytes ++ RuntimeJournal.encodeFrame codec frame,
                { journal with frames := journal.frames ++ [frame] }⟩ ∨
          ∃ count, outcome = .failed count ∧
            journal.append codec bytes frame outcome =
              ⟨.error .write,
                bytes ++ (RuntimeJournal.encodeFrame codec frame).take count,
                journal⟩) := by
  unfold RuntimeJournal.append
  dsimp only
  split
  · exact .inl ⟨_, rfl⟩
  rename_i hfits
  split
  · exact .inl ⟨_, rfl⟩
  rw [hopen, if_neg (by decide)]
  split
  · exact .inl ⟨_, rfl⟩
  rename_i hroom
  refine .inr ⟨by omega, by omega, ?_⟩
  cases outcome with
  | synced => exact .inl ⟨rfl, rfl⟩
  | failed count => exact .inr ⟨count, rfl, rfl⟩

/-! ## Incarnations that open, append and crash -/

/-- The journal file, the incarnation that has it open, and what `append`
acknowledged so far. -/
structure JournalWorld where
  file : Option (List UInt8)
  journal : Option RuntimeJournal
  acknowledged : List RuntimeFrame
  deriving DecidableEq, Repr

inductive JournalEvent where
  | opened
  | appended (record : RuntimeRecord) (outcome : RuntimeJournal.WriteOutcome)
  | crashed
  deriving DecidableEq, Repr

namespace JournalWorld

def initial : JournalWorld := ⟨none, none, []⟩

def step (codec : FrameCodec) (world : JournalWorld) :
    JournalEvent → JournalWorld
  | .opened =>
      match RuntimeJournal.open codec world.file with
      | .ok (journal, bytes) =>
          { world with file := some bytes, journal := some journal }
      | .error _ => { world with journal := none }
  | .appended record outcome =>
      match world.file, world.journal with
      | some bytes, some journal =>
          let appended := journal.append codec bytes
            (RuntimeJournal.frameOf record) outcome
          { file := some appended.bytes
            journal := some appended.journal
            acknowledged :=
              match appended.result with
              | .ok () => world.acknowledged ++ [RuntimeJournal.frameOf record]
              | .error _ => world.acknowledged }
      | _, _ => world
  | .crashed => { world with journal := none }

def run (codec : FrameCodec) (world : JournalWorld)
    (events : List JournalEvent) : JournalWorld :=
  events.foldl (step codec) world

end JournalWorld

/-- The write stopped inside a frame. -/
def JournalEvent.Tears (codec : FrameCodec) : JournalEvent → Prop
  | .appended record (.failed count) =>
      (codec.encodeToVec (RuntimeJournal.frameOf record)).length ≤
          maxRuntimeFrameBytes ∧
        0 < count ∧
        count < (RuntimeJournal.encodeFrame codec
          (RuntimeJournal.frameOf record)).length
  | .appended _ .synced | .opened | .crashed => False

def JournalEvent.Appends : JournalEvent → Prop
  | .appended .. => True
  | .opened | .crashed => False

def JournalEvent.RoundTrips (codec : FrameCodec) : JournalEvent → Prop
  | .appended record _ =>
      codec.decode (codec.encodeToVec (RuntimeJournal.frameOf record)) =
        .ok (RuntimeJournal.frameOf record)
  | .opened | .crashed => True

namespace JournalWorld

open RuntimeJournal

structure Holds (codec : FrameCodec) (world : JournalWorld)
    (written : List RuntimeFrame) (tail : List UInt8) : Prop where
  layout : Layout (encodeFrame codec) (Writable codec) (world.file.getD [])
    written tail
  missing : world.file = none → written = []
  length : (world.file.getD []).length < fileLimit
  acknowledged : world.acknowledged.Sublist written
  unfinalized : ∀ journal, world.journal = some journal →
    journal.finalized = false

section Holds

variable {codec : FrameCodec} {world : JournalWorld}
  {written : List RuntimeFrame} {tail : List UInt8}

theorem initial_holds (codec : FrameCodec) : initial.Holds codec [] [] where
  layout := .empty
  missing _ := rfl
  length := by decide
  acknowledged := List.Sublist.refl _
  unfinalized journal h := by cases h

theorem Holds.readRuntimeFrames (holds : world.Holds codec written tail) :
    readRuntimeFrames codec world.file = .ok written := by
  cases hfile : world.file with
  | none =>
      rw [holds.missing hfile]
      rfl
  | some bytes =>
      have hlayout := holds.layout
      have hlength := holds.length
      rw [hfile] at hlayout hlength
      exact readRuntimeFrames_of_parses hlength
        (hlayout.parses (fun _ writable => writable.readable) rfl)

theorem Holds.open (holds : world.Holds codec written tail) :
    RuntimeJournal.open codec world.file =
      .ok (⟨false, written⟩, world.file.getD []) := by
  unfold RuntimeJournal.open
  rw [holds.readRuntimeFrames]
  rfl

theorem Holds.opened (holds : world.Holds codec written tail) :
    (step codec world .opened).Holds codec written tail := by
  unfold step
  rw [holds.open]
  refine ⟨holds.layout, ?_, holds.length, holds.acknowledged, ?_⟩
  · intro h
    cases h
  · intro journal h
    cases h
    rfl

theorem Holds.crashed (holds : world.Holds codec written tail) :
    (step codec world .crashed).Holds codec written tail := by
  refine ⟨holds.layout, holds.missing, holds.length, holds.acknowledged, ?_⟩
  intro journal h
  cases h

/-- An append behind whole frames adds its own, or fails and leaves the start
of it at most. -/
theorem Holds.extended (holds : world.Holds codec written [])
    {record : RuntimeRecord} {outcome : WriteOutcome} {bytes : List UInt8}
    {journal : RuntimeJournal}
    (roundTrips : (JournalEvent.appended record outcome).RoundTrips codec)
    (hfile : world.file = some bytes) (hjournal : world.journal = some journal) :
    let appended := journal.append codec bytes (frameOf record) outcome
    (appended.bytes = bytes ++ encodeFrame codec (frameOf record) ∧
        (step codec world (.appended record outcome)).Holds codec
          (written ++ [frameOf record]) []) ∨
      ∃ error tail, appended.result = .error error ∧
        appended.bytes = bytes ++ tail ∧
        tail.length < (encodeFrame codec (frameOf record)).length ∧
        (step codec world (.appended record outcome)).Holds codec written
          tail ∧
        (tail ≠ [] → (JournalEvent.appended record outcome).Tears codec) := by
  have hopen := holds.unfinalized journal hjournal
  have hlayout := holds.layout
  have hlength := holds.length
  rw [hfile, Option.getD_some] at hlayout hlength
  have hlong : 0 < (encodeFrame codec (frameOf record)).length := by
    rw [length_encodeFrame]
    omega
  have hunfinalized : ∀ other, some journal = some other →
      other.finalized = false := by
    intro other h
    cases h
    exact hopen
  simp only [step, hfile, hjournal]
  rcases append_cases hopen outcome codec (frameOf record) with
    ⟨error, happend⟩ | ⟨hfits, hroom, ⟨rfl, happend⟩ | ⟨count, rfl, happend⟩⟩
  · rw [happend]
    exact .inr ⟨error, [], rfl, (List.append_nil _).symm, hlong,
      ⟨hlayout, nofun, hlength, holds.acknowledged, hunfinalized⟩,
      fun h => absurd rfl h⟩
  · have hwritable : Writable codec (frameOf record) :=
      ⟨rfl, rfl, hfits, roundTrips⟩
    rw [happend]
    refine .inl ⟨rfl, hlayout.write hwritable, nofun, ?_, ?_, ?_⟩
    · simpa using hroom
    · exact holds.acknowledged.append (List.Sublist.refl _)
    · intro other h
      cases h
      exact hopen
  · have hwritable : Writable codec (frameOf record) :=
      ⟨rfl, rfl, hfits, roundTrips⟩
    rw [happend]
    by_cases hcount : count < (encodeFrame codec (frameOf record)).length
    · refine .inr ⟨_, _, rfl, rfl, by simpa using hcount,
        ⟨hlayout.tear hwritable hcount, nofun, ?_, holds.acknowledged,
          hunfinalized⟩, ?_⟩
      · simp only [Option.getD_some, List.length_append, List.length_take]
        omega
      · intro htail
        refine ⟨hfits, ?_, hcount⟩
        rcases Nat.eq_zero_or_pos count with rfl | h
        · exact absurd List.take_zero htail
        · exact h
    · rw [List.take_of_length_le (by omega)]
      refine .inl ⟨rfl, hlayout.write hwritable, nofun, ?_, ?_, hunfinalized⟩
      · simpa using hroom
      · exact holds.acknowledged.trans (List.sublist_append_left _ _)

theorem step_appended_of_closed {record : RuntimeRecord}
    {outcome : WriteOutcome}
    (closed : world.file = none ∨ world.journal = none) :
    step codec world (.appended record outcome) = world := by
  unfold step
  rcases closed with h | h
  · simp [h]
  · cases world.file <;> simp [h]

theorem Holds.appended (holds : world.Holds codec written [])
    {record : RuntimeRecord} {outcome : WriteOutcome}
    (roundTrips : (JournalEvent.appended record outcome).RoundTrips codec) :
    ∃ written tail,
      (step codec world (.appended record outcome)).Holds codec written tail ∧
        (tail ≠ [] → (JournalEvent.appended record outcome).Tears codec) := by
  cases hfile : world.file with
  | none =>
      rw [step_appended_of_closed (.inl hfile)]
      exact ⟨written, [], holds, fun h => absurd rfl h⟩
  | some bytes =>
  cases hjournal : world.journal with
  | none =>
      rw [step_appended_of_closed (.inr hjournal)]
      exact ⟨written, [], holds, fun h => absurd rfl h⟩
  | some journal =>
  rcases holds.extended roundTrips hfile hjournal with
    ⟨-, hnext⟩ | ⟨error, tail, -, -, -, hnext, htorn⟩
  · exact ⟨_, [], hnext, fun h => absurd rfl h⟩
  · exact ⟨written, tail, hnext, htorn⟩

/-- Behind a torn frame nothing changes as long as nothing is appended. -/
theorem Holds.quiet (holds : world.Holds codec written tail)
    {events : List JournalEvent}
    (quiet : ∀ event ∈ events, ¬ event.Appends) :
    (run codec world events).Holds codec written tail := by
  induction events generalizing world with
  | nil => exact holds
  | cons event events ih =>
      have hrest : ∀ event ∈ events, ¬ event.Appends := fun later hlater =>
        quiet later (List.mem_cons_of_mem event hlater)
      cases event with
      | opened => exact ih holds.opened hrest
      | crashed => exact ih holds.crashed hrest
      | appended => exact absurd trivial (quiet _ List.mem_cons_self)

theorem Holds.run (holds : world.Holds codec written [])
    {events : List JournalEvent}
    (roundTrips : ∀ event ∈ events, event.RoundTrips codec)
    (untorn : events.Pairwise fun earlier later =>
      earlier.Tears codec → ¬ later.Appends) :
    ∃ written tail, (run codec world events).Holds codec written tail := by
  induction events generalizing world written with
  | nil => exact ⟨written, [], holds⟩
  | cons event events ih =>
      have hrest : ∀ event ∈ events, event.RoundTrips codec :=
        fun later hlater => roundTrips later (List.mem_cons_of_mem event hlater)
      obtain ⟨hfirst, huntorn⟩ := List.pairwise_cons.mp untorn
      cases event with
      | opened => exact ih holds.opened hrest huntorn
      | crashed => exact ih holds.crashed hrest huntorn
      | appended record outcome =>
          obtain ⟨next, tail, hnext, htorn⟩ :=
            holds.appended (roundTrips _ List.mem_cons_self)
          by_cases htail : tail = []
          · subst htail
            exact ih hnext hrest huntorn
          · exact ⟨next, tail,
              hnext.quiet fun later hmem => hfirst later hmem (htorn htail)⟩

end Holds

/--
Over any sequence of incarnations that open the journal, append and stop at
any point, the next open recovers every acknowledged frame in order, as long
as nothing is appended once a write stopped inside a frame.
-/
theorem run_recovers {codec : FrameCodec} {events : List JournalEvent}
    (roundTrips : ∀ event ∈ events, event.RoundTrips codec)
    (untorn : events.Pairwise fun earlier later =>
      earlier.Tears codec → ¬ later.Appends) :
    ∃ journal bytes,
      RuntimeJournal.open codec (run codec initial events).file =
          .ok (journal, bytes) ∧
        (run codec initial events).acknowledged.Sublist journal.frames := by
  obtain ⟨written, tail, holds⟩ :=
    (initial_holds codec).run roundTrips untorn
  exact ⟨_, _, holds.open, holds.acknowledged⟩

/-! ## A torn write of an acknowledgement -/

def crc32cRound (crc : UInt32) : UInt32 :=
  if crc &&& 1 = 1 then (crc >>> 1) ^^^ 0x82F63B78 else crc >>> 1

def crc32c (bytes : List UInt8) : UInt32 :=
  (bytes.foldl (fun crc byte => crc32cRound^[8] (crc ^^^ byte.toUInt32))
    0xFFFFFFFF) ^^^ 0xFFFFFFFF

def sampleRecord (sequence : Nat) : RuntimeRecord :=
  .acknowledgement ⟨sequence⟩

/-- The Protobuf encoding of acknowledgements below 128, the real checksum. -/
def sampleCodec : FrameCodec where
  encodeToVec frame :=
    match frame.record with
    | some (.acknowledgement acknowledgement) =>
        [0x08, 0x01, 0x22, 0x02, 0x08,
          UInt8.ofNat acknowledgement.committedSequence]
    | _ => []
  decode bytes :=
    match bytes with
    | [0x08, 0x01, 0x22, 0x02, 0x08, sequence] =>
        .ok (frameOf (sampleRecord sequence.toNat))
    | _ => .error "failed to decode Protobuf message"
  crc32c := crc32c

/-- The second acknowledgement is torn after its length. -/
def tornEvents : List JournalEvent :=
  [.opened, .appended (sampleRecord 1) .synced,
    .appended (sampleRecord 2) (.failed 4), .crashed, .opened]

theorem tornEvents_roundTrip :
    ∀ event ∈ tornEvents, event.RoundTrips sampleCodec := by
  simp only [tornEvents, List.forall_mem_cons, JournalEvent.RoundTrips,
    true_and]
  exact ⟨rfl, rfl, List.forall_mem_nil _⟩

theorem run_recovers_torn :
    ∃ journal bytes,
      RuntimeJournal.open sampleCodec
          (run sampleCodec initial tornEvents).file = .ok (journal, bytes) ∧
        (run sampleCodec initial tornEvents).acknowledged.Sublist
          journal.frames :=
  run_recovers tornEvents_roundTrip
    (by simp [tornEvents, JournalEvent.Tears, JournalEvent.Appends])

/--
The next incarnation opens the torn file, repeats the write with success and
stops; the file cannot be opened any more.
-/
theorem append_behind_torn_frame :
    (∀ event ∈ tornEvents ++ [.appended (sampleRecord 2) .synced, .crashed],
        event.RoundTrips sampleCodec) ∧
      (run sampleCodec initial
          (tornEvents ++
            [.appended (sampleRecord 2) .synced, .crashed])).acknowledged =
        [frameOf (sampleRecord 1), frameOf (sampleRecord 2)] ∧
      RuntimeJournal.open sampleCodec
          (run sampleCodec initial
            (tornEvents ++
              [.appended (sampleRecord 2) .synced, .crashed])).file =
        .error .checksumMismatch := by
  refine ⟨?_, by decide +kernel, by decide +kernel⟩
  intro event hmem
  rcases List.mem_append.mp hmem with h | h
  · exact tornEvents_roundTrip event h
  · rcases List.mem_pair.mp h with rfl | rfl
    · rfl
    · trivial

end JournalWorld

end Susm.Supervisor
