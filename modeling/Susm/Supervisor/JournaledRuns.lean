import Susm.Protocol.Protobuf
import Susm.Supervisor.JournalDurability
import Susm.Supervisor.RunnerRecovery

/-!
# Supervisors on one journal file

The supervisors of an execution open the journal file one after another and
append to it, each append as the storage lets it.  As long as nothing is
appended behind an append that stopped inside its frame, each recovers what was
appended before it, frame by frame.
-/

namespace Susm.Supervisor

open Susm.Foundation
open Susm.Protocol
open RuntimeJournal
open JournalWorld (step initial)

/-! ## Appends to the file -/

def frameLeft (codec : FrameCodec) (bytes after : List UInt8)
    (frame : RuntimeFrame) : FrameLeft :=
  if after = bytes then .nothing
  else if after = bytes ++ encodeFrame codec frame then .whole
  else .part

inductive Answered (codec : FrameCodec) (bytes : List UInt8)
    (frame : RuntimeFrame) (appended : Appended) : AppendAnswer → Prop
  | synced (ok : appended.result = .ok ()) :
      Answered codec bytes frame appended .synced
  | failed {error : JournalError} (source : String)
      (failed : appended.result = .error error) :
      Answered codec bytes frame appended
        (.failed source (frameLeft codec bytes appended.bytes frame))

/-- The appends of a supervisor to its journal, in their order, and the
acknowledgements that its link appends between them. -/
inductive Carried (codec : FrameCodec) : JournalWorld →
    List (Occurrence SupervisorOp SupervisorAnswer) → List JournalEvent → Prop
  | done (world : JournalWorld) : Carried codec world [] []
  | other {world : JournalWorld} {op : SupervisorOp}
      {answer : SupervisorAnswer op}
      {history : List (Occurrence SupervisorOp SupervisorAnswer)}
      {events : List JournalEvent} (silent : ∀ record, op ≠ .append record)
      (rest : Carried codec world history events) :
      Carried codec world (⟨op, answer⟩ :: history) events
  | append {world : JournalWorld} {bytes : List UInt8}
      {journal : RuntimeJournal} {record : RuntimeRecord}
      {outcome : WriteOutcome} {answer : AppendAnswer}
      {history : List (Occurrence SupervisorOp SupervisorAnswer)}
      {events : List JournalEvent} (file : world.file = some bytes)
      (opened : world.journal = some journal)
      (answered : Answered codec bytes (frameOf record)
        (journal.append codec bytes (frameOf record) outcome) answer)
      (rest : Carried codec (step codec world (.appended record outcome))
        history events) :
      Carried codec world (⟨.append record, answer⟩ :: history)
        (.appended record outcome :: events)
  | acknowledge {world : JournalWorld} {committed : Acknowledgement}
      {outcome : WriteOutcome} {bytes : List UInt8} {journal : RuntimeJournal}
      {history : List (Occurrence SupervisorOp SupervisorAnswer)}
      {events : List JournalEvent} (file : world.file = some bytes)
      (opened : world.journal = some journal)
      (rest : Carried codec
        (step codec world (.appended (.acknowledgement committed) outcome))
        history events) :
      Carried codec world history
        (.appended (.acknowledgement committed) outcome :: events)

/-- The supervisors of one execution, the last one first, and what happened to
their journal file.  A supervisor that cannot open the file ends at once. -/
inductive Supervised (codec : FrameCodec) :
    List Incarnation → List JournalEvent → Prop
  | none : Supervised codec [] []
  | replaced {earlier : List Incarnation} {events more : List JournalEvent}
      {incarnation : Incarnation} {journal : RuntimeJournal}
      {bytes : List UInt8} (before : Supervised codec earlier events)
      (opened : RuntimeJournal.open codec (initial.run codec events).file =
        .ok (journal, bytes))
      (recovered : incarnation.recovered = journal.frames)
      (lived : incarnation.Lived)
      (carried : Carried codec (initial.run codec (events ++ [.opened]))
        incarnation.history more) :
      Supervised codec (incarnation :: earlier)
        (events ++ [.opened] ++ more ++ [.crashed])
  | refused {earlier : List Incarnation} {events : List JournalEvent}
      {error : JournalError} (before : Supervised codec earlier events)
      (unreadable : RuntimeJournal.open codec
        (initial.run codec events).file = .error error) :
      Supervised codec earlier (events ++ [.opened, .crashed])

/-! ## One supervisor -/

section Carried

variable {codec : FrameCodec} {world : JournalWorld}
  {history : List (Occurrence SupervisorOp SupervisorAnswer)}
  {events : List JournalEvent} {written : List RuntimeFrame}

theorem run_append (earlier later : List JournalEvent) :
    world.run codec (earlier ++ later) =
      (world.run codec earlier).run codec later :=
  List.foldl_append

theorem journaled_append
    (first second : List (Occurrence SupervisorOp SupervisorAnswer)) :
    journaled (first ++ second) = journaled first ++ journaled second :=
  List.filterMap_append

theorem journaled_cons (occurrence : Occurrence SupervisorOp SupervisorAnswer)
    (history : List (Occurrence SupervisorOp SupervisorAnswer)) :
    journaled (occurrence :: history) =
      journaled [occurrence] ++ journaled history :=
  journaled_append [occurrence] history

theorem journaled_other {op : SupervisorOp} {answer : SupervisorAnswer op}
    (silent : ∀ record, op ≠ .append record) :
    journaled [⟨op, answer⟩] = [] := by
  cases op with
  | append record => exact absurd rfl (silent record)
  | _ => rfl

theorem Carried.appends (carried : Carried codec world history events) :
    ∀ event ∈ events, event.Appends := by
  induction carried with
  | done => nofun
  | other silent rest ih => exact ih
  | append file opened answered rest ih =>
      exact List.forall_mem_cons.mpr ⟨trivial, ih⟩
  | acknowledge file opened rest ih =>
      exact List.forall_mem_cons.mpr ⟨trivial, ih⟩

theorem Carried.nothing (carried : Carried codec world history events)
    (quiet : ∀ event ∈ events, ¬ event.Appends) : events = [] :=
  List.eq_nil_iff_forall_not_mem.mpr fun event hmem =>
    quiet event hmem (carried.appends event hmem)

theorem Carried.silent (carried : Carried codec world history events)
    (nothing : events = []) :
    ∀ occurrence ∈ history, ∀ record, occurrence.1 ≠ .append record := by
  induction carried with
  | done => simp
  | other silent rest ih =>
      exact List.forall_mem_cons.mpr ⟨silent, ih nothing⟩
  | append | acknowledge => cases nothing

theorem journaled_silent
    (silent : ∀ occurrence ∈ history, ∀ record, occurrence.1 ≠ .append record) :
    journaled history = [] := by
  induction history with
  | nil => rfl
  | cons occurrence history ih =>
      obtain ⟨first, rest⟩ := List.forall_mem_cons.mp silent
      rw [journaled_cons, journaled_other first, ih rest, List.append_nil]

theorem Answered.whole {bytes : List UInt8} {record : RuntimeRecord}
    {appended : Appended} {answer : AppendAnswer}
    (answered : Answered codec bytes (frameOf record) appended answer)
    (whole : appended.bytes = bytes ++ encodeFrame codec (frameOf record)) :
    cutsFrame (.append record) answer = false ∧
      journaled [⟨.append record, answer⟩] = [frameOf record] := by
  have longer : encodeFrame codec (frameOf record) ≠ [] := by
    intro empty
    have length := length_encodeFrame codec (frameOf record)
    rw [empty] at length
    cases length
  cases answered with
  | synced ok => exact ⟨rfl, rfl⟩
  | failed source failed =>
      have left : frameLeft codec bytes appended.bytes (frameOf record) =
          .whole := by
        rw [frameLeft, whole, if_neg (by simpa using longer), if_pos rfl]
      rw [left]
      exact ⟨rfl, rfl⟩

theorem Answered.short {bytes tail : List UInt8}
    {record : RuntimeRecord} {appended : Appended} {answer : AppendAnswer}
    {error : JournalError}
    (answered : Answered codec bytes (frameOf record) appended answer)
    (failed : appended.result = .error error)
    (start : appended.bytes = bytes ++ tail)
    (shorter : tail.length < (encodeFrame codec (frameOf record)).length) :
    (cutsFrame (.append record) answer = true → tail ≠ []) ∧
      journaled [⟨.append record, answer⟩] = [] := by
  cases answered with
  | synced ok =>
      rw [failed] at ok
      cases ok
  | failed source =>
      by_cases empty : tail = []
      · have left : frameLeft codec bytes appended.bytes (frameOf record) =
            .nothing := by
          rw [frameLeft, start, empty, List.append_nil, if_pos rfl]
        rw [left]
        exact ⟨nofun, rfl⟩
      · have left : frameLeft codec bytes appended.bytes (frameOf record) =
            .part := by
          rw [frameLeft, start, if_neg (by simpa using empty), if_neg]
          intro same
          rw [List.append_cancel_left same] at shorter
          exact lt_irrefl _ shorter
        rw [left]
        exact ⟨fun _ => empty, rfl⟩

/-- What a supervisor has appended is in the file behind what was there. -/
structure Extends (codec : FrameCodec) (world : JournalWorld)
    (written : List RuntimeFrame)
    (history : List (Occurrence SupervisorOp SupervisorAnswer))
    (events : List JournalEvent) (more : List RuntimeFrame)
    (tail : List UInt8) : Prop where
  holds : (world.run codec events).Holds codec (written ++ more) tail
  same : withoutAcknowledgements more =
    withoutAcknowledgements (journaled history)
  torn : tail ≠ [] → ∃ event ∈ events, event.Tears codec
  uncut : Uncut history
  cut : ∀ occurrence ∈ history, cutsFrame occurrence.1 occurrence.2 = true →
    ∃ event ∈ events, event.Tears codec

theorem cutsFrame_silent
    (silent : ∀ occurrence ∈ history, ∀ record, occurrence.1 ≠ .append record) :
    ∀ occurrence ∈ history, cutsFrame occurrence.1 occurrence.2 = false := by
  rintro ⟨op, answer⟩ hmem
  have other := silent _ hmem
  cases op with
  | append record => exact absurd rfl (other record)
  | _ => rfl

theorem Extends.nothing (holds : world.Holds codec written []) :
    Extends codec world written [] [] [] [] where
  holds := by
    rw [List.append_nil]
    exact holds
  same := rfl
  torn h := absurd rfl h
  uncut := .nil
  cut := by simp

theorem Extends.other {more : List RuntimeFrame} {tail : List UInt8}
    {op : SupervisorOp} {answer : SupervisorAnswer op}
    (silent : ∀ record, op ≠ .append record)
    (rest : Extends codec world written history events more tail) :
    Extends codec world written (⟨op, answer⟩ :: history) events more
      tail := by
  have whole : cutsFrame op answer = false := by
    cases op with
    | append record => exact absurd rfl (silent record)
    | _ => rfl
  refine { rest with same := ?_, uncut := ?_, cut := ?_ }
  · rw [journaled_cons, journaled_other silent, List.nil_append, rest.same]
  · refine List.pairwise_cons.mpr ⟨fun _ _ cut => ?_, rest.uncut⟩
    rw [whole] at cut
    cases cut
  · refine List.forall_mem_cons.mpr ⟨fun cut => ?_, rest.cut⟩
    rw [whole] at cut
    cases cut

theorem withoutAcknowledgements_append (first second : List RuntimeFrame) :
    withoutAcknowledgements (first ++ second) =
      withoutAcknowledgements first ++ withoutAcknowledgements second :=
  List.filter_append first second

theorem Extends.cons {event : JournalEvent} {front more : List RuntimeFrame}
    {tail : List UInt8}
    {heads : List (Occurrence SupervisorOp SupervisorAnswer)}
    (whole : ∀ occurrence ∈ heads, cutsFrame occurrence.1 occurrence.2 = false)
    (same : withoutAcknowledgements front =
      withoutAcknowledgements (journaled heads))
    (rest : Extends codec (step codec world event) (written ++ front) history
      events more tail) :
    Extends codec world written (heads ++ history) (event :: events)
      (front ++ more) tail where
  holds := by
    rw [← List.append_assoc]
    exact rest.holds
  same := by
    rw [withoutAcknowledgements_append, same, rest.same,
      ← withoutAcknowledgements_append, journaled_append]
  torn h := by
    obtain ⟨event, hmem, tears⟩ := rest.torn h
    exact ⟨event, List.mem_cons_of_mem _ hmem, tears⟩
  uncut := List.pairwise_append.mpr ⟨Uncut.of_none whole, rest.uncut,
    fun occurrence hmem _ _ cut => by
      rw [whole occurrence hmem] at cut
      cases cut⟩
  cut occurrence hmem cut := by
    rcases List.mem_append.mp hmem with h | h
    · rw [whole occurrence h] at cut
      cases cut
    · obtain ⟨event, hmem, tears⟩ := rest.cut occurrence h cut
      exact ⟨event, List.mem_cons_of_mem _ hmem, tears⟩

theorem Extends.tear {event : JournalEvent} {tail : List UInt8}
    {heads : List (Occurrence SupervisorOp SupervisorAnswer)}
    (holds : (step codec world event).Holds codec written tail)
    (tears : event.Tears codec) (single : Uncut heads)
    (same : withoutAcknowledgements (journaled heads) = [])
    (silent : ∀ occurrence ∈ history, ∀ record,
      occurrence.1 ≠ .append record) :
    Extends codec world written (heads ++ history) [event] [] tail where
  holds := by
    rw [List.append_nil]
    exact holds
  same := by
    rw [journaled_append, withoutAcknowledgements_append, same,
      journaled_silent silent]
    rfl
  torn _ := ⟨event, List.mem_singleton_self event, tears⟩
  uncut := List.pairwise_append.mpr ⟨single,
    Uncut.of_none (cutsFrame_silent silent),
    fun _ _ later hlater _ => silent later hlater⟩
  cut _ _ _ := ⟨event, List.mem_singleton_self event, tears⟩

theorem Carried.extends (carried : Carried codec world history events)
    (holds : world.Holds codec written [])
    (roundTrips : ∀ event ∈ events, event.RoundTrips codec)
    (untorn : events.Pairwise fun earlier later =>
      earlier.Tears codec → ¬ later.Appends) :
    ∃ more tail, Extends codec world written history events more tail := by
  induction carried generalizing written with
  | done => exact ⟨[], [], .nothing holds⟩
  | other silent rest ih =>
      obtain ⟨more, tail, extended⟩ := ih holds roundTrips untorn
      exact ⟨more, tail, extended.other silent⟩
  | @append world bytes journal record outcome answer history events file
      opened answered rest ih =>
      obtain ⟨roundTrip, roundTrips⟩ := List.forall_mem_cons.mp roundTrips
      obtain ⟨behind, untorn⟩ := List.pairwise_cons.mp untorn
      have split : (⟨.append record, answer⟩ :: history : List (Occurrence
          SupervisorOp SupervisorAnswer)) =
            [⟨.append record, answer⟩] ++ history := rfl
      rw [split]
      rcases holds.extended roundTrip file opened with
        ⟨whole, next⟩ | ⟨error, tail, failed, start, shorter, next, torn⟩
      · obtain ⟨uncut, same⟩ := answered.whole whole
        obtain ⟨more, tail, extended⟩ := ih next roundTrips untorn
        exact ⟨_, tail, extended.cons (by simpa using uncut) (by rw [same])⟩
      · obtain ⟨cut, same⟩ := answered.short failed start shorter
        by_cases empty : tail = []
        · subst empty
          obtain ⟨more, tail, extended⟩ :=
            @ih (written ++ []) (by rwa [List.append_nil]) roundTrips untorn
          refine ⟨_, tail, extended.cons ?_ (by rw [same])⟩
          simpa using fun h => cut h rfl
        · have nothing := rest.nothing (behind · · (torn empty))
          subst nothing
          exact ⟨[], tail, .tear next (torn empty) (List.pairwise_singleton _ _)
            (by rw [same]; rfl)
            (rest.silent rfl)⟩
  | @acknowledge world committed outcome bytes journal history events file
      opened rest ih =>
      obtain ⟨roundTrip, roundTrips⟩ := List.forall_mem_cons.mp roundTrips
      obtain ⟨behind, untorn⟩ := List.pairwise_cons.mp untorn
      rw [← List.nil_append history]
      rcases holds.extended roundTrip file opened with
        ⟨whole, next⟩ | ⟨error, tail, failed, start, shorter, next, torn⟩
      · obtain ⟨more, tail, extended⟩ := ih next roundTrips untorn
        refine ⟨_, tail, extended.cons (by simp) ?_⟩
        rfl
      · by_cases empty : tail = []
        · subst empty
          obtain ⟨more, tail, extended⟩ :=
            @ih (written ++ []) (by rwa [List.append_nil]) roundTrips untorn
          exact ⟨_, tail, extended.cons (by simp) rfl⟩
        · have nothing := rest.nothing (behind · · (torn empty))
          subst nothing
          exact ⟨[], tail, .tear next (torn empty) .nil rfl
            (rest.silent rfl)⟩

end Carried

/-! ## All supervisors -/

section Supervised

variable {codec : FrameCodec} {incarnations : List Incarnation}
  {events : List JournalEvent}

/-- The file holds the frames of supervisors that recover whole frames. -/
structure Refined (codec : FrameCodec) (incarnations : List Incarnation)
    (events : List JournalEvent) (frames written : List RuntimeFrame)
    (tail : List UInt8) : Prop where
  run : Incarnations frames incarnations
  holds : (initial.run codec events).Holds codec written tail
  same : withoutAcknowledgements written = withoutAcknowledgements frames
  torn : tail ≠ [] → ∃ event ∈ events, event.Tears codec
  cut : ∀ occurrence ∈ wholeHistory incarnations,
    cutsFrame occurrence.1 occurrence.2 = true →
      ∃ event ∈ events, event.Tears codec

theorem Incarnations.uncut {frames : List RuntimeFrame}
    (run : Incarnations frames incarnations) :
    Uncut (wholeHistory incarnations) := by
  cases run with
  | none => exact .nil
  | recover before recovered lived uncut => exact uncut

theorem Refined.next {frames written more : List RuntimeFrame}
    {tail rest : List UInt8} {incarnation : Incarnation}
    {later : List JournalEvent}
    (refined : Refined codec incarnations events frames written tail)
    (recovered : incarnation.recovered = written) (lived : incarnation.Lived)
    (extended : Extends codec (initial.run codec (events ++ [.opened]))
      written incarnation.history later more rest)
    (quiet : (∃ event ∈ events, event.Tears codec) →
      ∀ occurrence ∈ incarnation.history, ∀ record,
        occurrence.1 ≠ .append record) :
    Refined codec (incarnation :: incarnations)
      (events ++ [.opened] ++ later ++ [.crashed])
      (incarnation.recovered ++ journaled incarnation.history)
      (written ++ more) rest where
  run := by
    refine .recover refined.run ?_ lived ?_
    · rw [recovered, refined.same]
    · rw [wholeHistory_cons]
      exact List.pairwise_append.mpr ⟨refined.run.uncut,
        extended.uncut, fun occurrence hmem _ hlater cut =>
          quiet (refined.cut occurrence hmem cut) _ hlater⟩
  holds := by
    rw [run_append, run_append]
    exact extended.holds.crashed
  same := by
    rw [withoutAcknowledgements_append, withoutAcknowledgements_append,
      recovered, extended.same]
  torn h := by
    obtain ⟨event, hmem, tears⟩ := extended.torn h
    exact ⟨event, by simp [hmem], tears⟩
  cut occurrence hmem cut := by
    rw [wholeHistory_cons] at hmem
    rcases List.mem_append.mp hmem with h | h
    · obtain ⟨event, hmem, tears⟩ := refined.cut occurrence h cut
      exact ⟨event, by simp [hmem], tears⟩
    · obtain ⟨event, hmem, tears⟩ := extended.cut occurrence h cut
      exact ⟨event, by simp [hmem], tears⟩

theorem Refined.idle {frames written : List RuntimeFrame} {tail : List UInt8}
    {incarnation : Incarnation}
    (refined : Refined codec incarnations events frames written tail)
    (recovered : incarnation.recovered = written) (lived : incarnation.Lived)
    (silent : ∀ occurrence ∈ incarnation.history, ∀ record,
      occurrence.1 ≠ .append record) :
    Refined codec (incarnation :: incarnations)
      (events ++ [.opened] ++ [] ++ [.crashed])
      (incarnation.recovered ++ journaled incarnation.history) written
      tail where
  run := by
    refine .recover refined.run ?_ lived ?_
    · rw [recovered, refined.same]
    · rw [wholeHistory_cons]
      exact List.pairwise_append.mpr ⟨refined.run.uncut,
        Uncut.of_none (cutsFrame_silent silent),
        fun _ _ later hlater _ => silent later hlater⟩
  holds := by
    rw [List.append_nil, run_append, run_append]
    exact refined.holds.opened.crashed
  same := by rw [journaled_silent silent, List.append_nil, recovered]
  torn h := by
    obtain ⟨event, hmem, tears⟩ := refined.torn h
    exact ⟨event, by simp [hmem], tears⟩
  cut occurrence hmem cut := by
    rw [wholeHistory_cons] at hmem
    rcases List.mem_append.mp hmem with h | h
    · obtain ⟨event, hmem, tears⟩ := refined.cut occurrence h cut
      exact ⟨event, by simp [hmem], tears⟩
    · rw [cutsFrame_silent silent occurrence h] at cut
      cases cut

theorem Supervised.refined (supervised : Supervised codec incarnations events)
    (roundTrips : ∀ event ∈ events, event.RoundTrips codec)
    (untorn : events.Pairwise fun earlier later =>
      earlier.Tears codec → ¬ later.Appends) :
    ∃ frames written tail,
      Refined codec incarnations events frames written tail := by
  induction supervised with
  | none =>
      exact ⟨[], [], [], .none, JournalWorld.initial_holds codec, rfl,
        fun h => absurd rfl h, by simp [wholeHistory]⟩
  | @replaced earlier events more incarnation journal bytes before opened
      recovered lived carried ih =>
      rw [List.append_assoc, List.append_assoc] at roundTrips untorn
      obtain ⟨roundTripsBefore, roundTrips⟩ :=
        List.forall_mem_append.mp roundTrips
      obtain ⟨untornBefore, untorn, behind⟩ := List.pairwise_append.mp untorn
      obtain ⟨frames, written, tail, refined⟩ :=
        ih roundTripsBefore untornBefore
      rw [refined.holds.open] at opened
      cases opened
      have holds : (initial.run codec (events ++ [.opened])).Holds codec
          written tail := by
        rw [run_append]
        exact refined.holds.opened
      have quiet : (∃ event ∈ events, event.Tears codec) → more = [] := by
        rintro ⟨event, hmem, tears⟩
        exact carried.nothing fun later hlater =>
          behind event hmem later (by simp [hlater]) tears
      by_cases empty : tail = []
      · subst empty
        obtain ⟨front, rest, extended⟩ := carried.extends holds
          (fun event hmem => roundTrips event (by simp [hmem]))
          (List.pairwise_append.mp (List.pairwise_append.mp untorn).2.1).1
        exact ⟨_, _, rest, refined.next recovered lived extended
          fun tears => carried.silent (quiet tears)⟩
      · have nothing := quiet (refined.torn empty)
        subst nothing
        exact ⟨_, _, tail, refined.idle recovered lived (carried.silent rfl)⟩
  | @refused earlier events error before unreadable ih =>
      obtain ⟨roundTrips, -⟩ := List.forall_mem_append.mp roundTrips
      obtain ⟨untorn, -, -⟩ := List.pairwise_append.mp untorn
      obtain ⟨frames, written, tail, refined⟩ := ih roundTrips untorn
      rw [refined.holds.open] at unreadable
      cases unreadable

end Supervised

/-! ## Storage that keeps what is appended -/

/-- The append succeeds, or fails and leaves nothing. -/
def isPlain : Occurrence SupervisorOp SupervisorAnswer → Bool
  | ⟨.append _, .failed _ .part⟩ | ⟨.append _, .failed _ .whole⟩ => false
  | _ => true

def plainEvents (history : List (Occurrence SupervisorOp SupervisorAnswer)) :
    List JournalEvent :=
  history.filterMap fun
    | ⟨.append record, .synced⟩ => some (.appended record .synced)
    | ⟨.append record, .failed _ _⟩ => some (.appended record (.failed 0))
    | _ => none

def askedFrames (history : List (Occurrence SupervisorOp SupervisorAnswer)) :
    List RuntimeFrame :=
  history.filterMap fun
    | ⟨.append record, _⟩ => some (frameOf record)
    | _ => none

/-- The codec reads all frames back, and there is room for them. -/
structure Storable (codec : FrameCodec) (written : List RuntimeFrame)
    (history : List (Occurrence SupervisorOp SupervisorAnswer)) : Prop where
  plain : ∀ occurrence ∈ history, isPlain occurrence = true
  frames : ∀ frame ∈ askedFrames history,
    codec.decode (codec.encodeToVec frame) = .ok frame ∧
      (codec.encodeToVec frame).length ≤ maxRuntimeFrameBytes
  room : ((written ++ askedFrames history).flatMap
    (encodeFrame codec)).length < fileLimit

section Stored

variable {codec : FrameCodec} {world : JournalWorld}
  {written : List RuntimeFrame}

theorem append_of_room {journal : RuntimeJournal} {bytes : List UInt8}
    {frame : RuntimeFrame} (outcome : WriteOutcome)
    (opened : journal.finalized = false)
    (fits : (codec.encodeToVec frame).length ≤ maxRuntimeFrameBytes)
    (room : bytes.length + (encodeFrame codec frame).length < fileLimit) :
    journal.append codec bytes frame outcome =
      match outcome with
      | .synced =>
          ⟨.ok (), bytes ++ encodeFrame codec frame,
            { journal with frames := journal.frames ++ [frame] }⟩
      | .failed count =>
          ⟨.error .write, bytes ++ (encodeFrame codec frame).take count,
            journal⟩ := by
  have checkable : (checked (2 ^ 32)
      (codec.encodeToVec frame).length).isNone = false := by
    unfold maxRuntimeFrameBytes at fits
    rw [checked_of_lt (by omega)]
    rfl
  cases outcome with
  | synced | failed count =>
      unfold RuntimeJournal.append
      dsimp only
      rw [if_neg (by omega), checkable, if_neg Bool.false_ne_true, opened,
        if_neg Bool.false_ne_true, if_neg (by omega)]

theorem JournalWorld.Holds.synced {record : RuntimeRecord} {bytes : List UInt8}
    {journal : RuntimeJournal} (holds : world.Holds codec written [])
    (file : world.file = some bytes) (opened : world.journal = some journal)
    (roundTrip : codec.decode (codec.encodeToVec (frameOf record)) =
      .ok (frameOf record))
    (fits : (codec.encodeToVec (frameOf record)).length ≤ maxRuntimeFrameBytes)
    (room : bytes.length + (encodeFrame codec (frameOf record)).length <
      fileLimit) :
    (step codec world (.appended record .synced)).Holds codec
      (written ++ [frameOf record]) [] := by
  have appended := append_of_room .synced (holds.unfinalized journal opened)
    fits room
  rcases holds.extended roundTrip file opened with
    ⟨-, next⟩ | ⟨error, -, failed, -⟩
  · exact next
  · rw [appended] at failed
    cases failed

theorem JournalWorld.Holds.nothing {record : RuntimeRecord} {bytes : List UInt8}
    {journal : RuntimeJournal} (holds : world.Holds codec written [])
    (file : world.file = some bytes) (opened : world.journal = some journal)
    (roundTrip : codec.decode (codec.encodeToVec (frameOf record)) =
      .ok (frameOf record))
    (fits : (codec.encodeToVec (frameOf record)).length ≤ maxRuntimeFrameBytes)
    (room : bytes.length + (encodeFrame codec (frameOf record)).length <
      fileLimit) :
    (step codec world (.appended record (.failed 0))).Holds codec
      written [] := by
  have appended := append_of_room (.failed 0)
    (holds.unfinalized journal opened) fits room
  rcases holds.extended roundTrip file opened with
    ⟨whole, -⟩ | ⟨error, tail, -, start, -, next, -⟩
  · have length := congrArg List.length whole
    rw [appended, List.length_append, List.length_append, length_encodeFrame,
      List.take_zero, List.length_nil] at length
    omega
  · rw [appended] at start
    obtain rfl : [] = tail := List.append_cancel_left start
    exact next

theorem carried_plain
    {history : List (Occurrence SupervisorOp SupervisorAnswer)}
    {bytes : List UInt8} {journal : RuntimeJournal}
    (holds : world.Holds codec written []) (file : world.file = some bytes)
    (opened : world.journal = some journal)
    (storable : Storable codec written history) :
    Carried codec world history (plainEvents history) ∧
      (world.run codec (plainEvents history)).Holds codec
        (written ++ journaled history) [] := by
  induction history generalizing world bytes journal written with
  | nil =>
      rw [journaled_silent (by simp), List.append_nil]
      exact ⟨.done world, holds⟩
  | cons occurrence history ih =>
      obtain ⟨plain, frames, room⟩ := storable
      obtain ⟨op, answer⟩ := occurrence
      cases op with
      | append record =>
          obtain ⟨first, calm⟩ := List.forall_mem_cons.mp plain
          obtain ⟨⟨roundTrip, fits⟩, others⟩ :=
            List.forall_mem_cons.mp frames
          have length : bytes.length =
              (written.flatMap (encodeFrame codec)).length := by
            have layout := holds.layout.bytes
            rw [file, Option.getD_some, List.append_nil] at layout
            rw [layout]
          change ((written ++ frameOf record :: askedFrames history).flatMap
            (encodeFrame codec)).length < fileLimit at room
          rw [List.flatMap_append, List.flatMap_cons, List.length_append,
            List.length_append] at room
          have here : bytes.length +
              (encodeFrame codec (frameOf record)).length < fileLimit := by
            omega
          rcases answer with _ | ⟨source, _ | _ | _⟩
          · have appended := append_of_room .synced
              (holds.unfinalized journal opened) fits here
            have stepped : step codec world (.appended record .synced) =
                ⟨some (bytes ++ encodeFrame codec (frameOf record)),
                  some { journal with
                    frames := journal.frames ++ [frameOf record] },
                  world.acknowledged ++ [frameOf record]⟩ := by
              simp [step, file, opened, appended]
            have next := holds.synced file opened roundTrip fits here
            obtain ⟨carried, last⟩ := @ih _ _ _ _ next (by rw [stepped])
              (by rw [stepped]) ⟨calm, others, by
                simp only [List.flatMap_append, List.flatMap_cons,
                  List.flatMap_nil, List.append_nil, List.length_append]
                omega⟩
            refine ⟨.append file opened (.synced (by rw [appended])) carried, ?_⟩
            rw [journaled_cons, ← List.append_assoc]
            exact last
          · have appended := append_of_room (.failed 0)
              (holds.unfinalized journal opened) fits here
            have stepped : step codec world (.appended record (.failed 0)) =
                ⟨some bytes, some journal, world.acknowledged⟩ := by
              simp [step, file, opened, appended]
            have next := holds.nothing file opened roundTrip fits here
            obtain ⟨carried, last⟩ := @ih _ _ _ _ next (by rw [stepped])
              (by rw [stepped]) ⟨calm, others, by
                rw [List.flatMap_append, List.length_append]
                omega⟩
            have left : frameLeft codec bytes (journal.append codec bytes
                (frameOf record) (.failed 0)).bytes (frameOf record) =
                  .nothing := by
              rw [appended]
              exact if_pos (List.append_nil bytes)
            refine ⟨.append file opened ?_ carried, ?_⟩
            · rw [← left]
              exact .failed source (by rw [appended])
            · rw [journaled_cons]
              exact last
          · cases first
          · cases first
      | _ =>
          obtain ⟨carried, last⟩ := ih holds file opened
            ⟨(List.forall_mem_cons.mp plain).2, frames, room⟩
          exact ⟨.other (by simp) carried, last⟩

structure Stored (codec : FrameCodec) (incarnations : List Incarnation)
    (written : List RuntimeFrame) (events : List JournalEvent) : Prop where
  supervised : Supervised codec incarnations events
  holds : (initial.run codec events).Holds codec written []
  tame : ∀ event ∈ events, event.RoundTrips codec ∧ ¬ event.Tears codec

theorem Stored.none (codec : FrameCodec) : Stored codec [] [] [] :=
  ⟨.none, JournalWorld.initial_holds codec, by simp⟩

theorem Stored.roundTrips {incarnations : List Incarnation}
    {events : List JournalEvent}
    (stored : Stored codec incarnations written events) :
    ∀ event ∈ events, event.RoundTrips codec :=
  fun event hmem => (stored.tame event hmem).1

theorem Stored.untorn {incarnations : List Incarnation}
    {events : List JournalEvent}
    (stored : Stored codec incarnations written events) :
    events.Pairwise fun earlier later =>
      earlier.Tears codec → ¬ later.Appends :=
  List.pairwise_of_forall_mem_list fun earlier hmem _ _ tears =>
    absurd tears (stored.tame earlier hmem).2

theorem plainEvents_tame
    {history : List (Occurrence SupervisorOp SupervisorAnswer)}
    (storable : Storable codec written history) :
    ∀ event ∈ plainEvents history,
      event.RoundTrips codec ∧ ¬ event.Tears codec := by
  intro event hmem
  obtain ⟨⟨op, answer⟩, hoccurrence, hevent⟩ := List.mem_filterMap.mp hmem
  cases op with
  | append record =>
      obtain ⟨roundTrip, -⟩ := storable.frames (frameOf record)
        (List.mem_filterMap.mpr ⟨_, hoccurrence, rfl⟩)
      rcases answer with _ | ⟨source, left⟩ <;> cases hevent
      · exact ⟨roundTrip, id⟩
      · exact ⟨roundTrip, fun tears => lt_irrefl 0 tears.2.1⟩
  | _ => cases hevent

theorem Stored.next {earlier : List Incarnation} {incarnation : Incarnation}
    {events : List JournalEvent} (stored : Stored codec earlier written events)
    (recovered : incarnation.recovered = written) (lived : incarnation.Lived)
    (storable : Storable codec written incarnation.history) :
    Stored codec (incarnation :: earlier)
      (written ++ journaled incarnation.history)
      (events ++ [.opened] ++ plainEvents incarnation.history ++
        [.crashed]) := by
  have opened := stored.holds.open
  have holds : (initial.run codec (events ++ [.opened])).Holds codec
      written [] := by
    rw [run_append]
    exact stored.holds.opened
  have world : initial.run codec (events ++ [.opened]) =
      ⟨some ((initial.run codec events).file.getD []), some ⟨false, written⟩,
        (initial.run codec events).acknowledged⟩ := by
    rw [run_append]
    change step codec (initial.run codec events) .opened = _
    rw [step, opened]
  obtain ⟨carried, last⟩ := carried_plain holds (by rw [world])
    (by rw [world]) storable
  refine ⟨.replaced stored.supervised opened recovered lived carried, ?_, ?_⟩
  · rw [run_append, run_append]
    exact last.crashed
  · intro event hmem
    simp only [List.mem_append, List.mem_singleton] at hmem
    rcases hmem with ((h | rfl) | h) | rfl
    · exact stored.tame event h
    · exact ⟨trivial, id⟩
    · exact plainEvents_tame storable event h
    · exact ⟨trivial, id⟩

end Stored

/-! ## The tools -/

def frameCodec (frames : List RuntimeFrame) : FrameCodec where
  encodeToVec := Protobuf.runtimeFrame
  decode bytes :=
    match frames.find? fun frame => Protobuf.runtimeFrame frame = bytes with
    | some frame => .ok frame
    | none => .error "failed to decode Protobuf message"
  crc32c := JournalWorld.crc32c

def toolCodec (incarnations : List Incarnation) : FrameCodec :=
  frameCodec (askedFrames (wholeHistory incarnations))

/-- A tool that ends, and the supervisor that replaces the one that was lost. -/
def twoTools (configuration : ExecutionConfiguration) (code : UInt32) :
    List Incarnation :=
  [replacedTool configuration code, finishedTool configuration code]

theorem Stored.twoTools {codec : FrameCodec}
    {configuration : ExecutionConfiguration} {code : UInt32}
    (finished : (firstStop (finishedTool configuration code).history).getD
      false = false)
    (replaced : (firstStop (replacedTool configuration code).history).getD
      false = false)
    (first : Storable codec [] (finishedTool configuration code).history)
    (second : Storable codec
      (journaled (finishedTool configuration code).history)
      (replacedTool configuration code).history) :
    ∃ events, Stored codec (twoTools configuration code)
      (journaled (finishedTool configuration code).history ++
        journaled (replacedTool configuration code).history) events :=
  ⟨_, ((Stored.none codec).next rfl
    (Incarnation.interrupted_lived finished) first).next rfl
      (Incarnation.interrupted_lived replaced) second⟩

theorem stored_tool :
    ∃ events, Stored (toolCodec (twoTools toolConfiguration 1))
      (twoTools toolConfiguration 1)
      (journaled (finishedTool toolConfiguration 1).history ++
        journaled (replacedTool toolConfiguration 1).history) events := by
  refine Stored.twoTools (by decide +kernel) (by decide +kernel) ⟨?_, ?_, ?_⟩
    ⟨?_, ?_, ?_⟩ <;> decide +kernel

/-! ## Outcomes -/

/--
No supervisor takes back an outcome that an earlier one journaled, as long as
recovery settles on the outcomes it finds and nothing is appended behind an
append that stopped inside its frame.
-/
theorem Supervised.terminal_final {codec : FrameCodec}
    {incarnations : List Incarnation} {events : List JournalEvent}
    (supervised : Supervised codec incarnations events)
    (roundTrips : ∀ event ∈ events, event.RoundTrips codec)
    (untorn : events.Pairwise fun earlier later =>
      earlier.Tears codec → ¬ later.Appends)
    (agrees : ∀ incarnation ∈ incarnations, incarnation.Agrees) :
    incarnations.Pairwise fun later earlier =>
      ∀ kind ∈ earlier.outcomes, later.Keeps kind := by
  obtain ⟨frames, written, tail, refined⟩ :=
    supervised.refined roundTrips untorn
  exact refined.run.outcomes_kept agrees

/-- A tool that fails stays failed. -/
theorem Supervised.terminal_final_failed :
    (finishedTool toolConfiguration 1).outcomes = [.failed] ∧
      ∃ events, Supervised (toolCodec (twoTools toolConfiguration 1))
          (twoTools toolConfiguration 1) events ∧
        (twoTools toolConfiguration 1).Pairwise fun later earlier =>
          ∀ kind ∈ earlier.outcomes, later.Keeps kind := by
  obtain ⟨events, stored⟩ := stored_tool
  refine ⟨by decide +kernel, events, stored.supervised,
    stored.supervised.terminal_final stored.roundTrips stored.untorn ?_⟩
  unfold Incarnation.Agrees
  decide +kernel

/-- A completed service is launched again by the supervisor that replaces the
one that journaled its completion. -/
theorem Supervised.completed_relaunched :
    ∃ events, Supervised (toolCodec (twoTools retriedConfiguration 0))
        (twoTools retriedConfiguration 0) events ∧
      (∀ event ∈ events, event.RoundTrips
        (toolCodec (twoTools retriedConfiguration 0)) ∧
        ¬ event.Tears (toolCodec (twoTools retriedConfiguration 0))) ∧
      ¬ (twoTools retriedConfiguration 0).Pairwise fun later earlier =>
        ∀ kind ∈ earlier.outcomes, later.Keeps kind := by
  have written : ∃ events,
      Stored (toolCodec (twoTools retriedConfiguration 0))
        (twoTools retriedConfiguration 0)
        (journaled (finishedTool retriedConfiguration 0).history ++
          journaled (replacedTool retriedConfiguration 0).history) events := by
    refine Stored.twoTools (by decide +kernel) (by decide +kernel) ⟨?_, ?_, ?_⟩
      ⟨?_, ?_, ?_⟩ <;> decide +kernel
  obtain ⟨events, stored⟩ := written
  refine ⟨events, stored.supervised, stored.tame, ?_⟩
  unfold Incarnation.Keeps
  decide +kernel

end Susm.Supervisor
