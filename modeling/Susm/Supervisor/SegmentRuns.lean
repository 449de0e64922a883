import Mathlib.Algebra.Order.BigOperators.Group.List
import Susm.Supervisor.SegmentProgress

/-!
# Runs of the writer

A run in which nothing fails and retention spares the open segment returns, and
has every entry in one segment.  An update of the policy can make retention take
the segment that is written, and then the run ends with an error.  A run can
open more segments than a `u32` can count, and then the numbers start again.
-/

namespace Susm.Supervisor

open Susm.Foundation
open Susm.Foundation.Retention
open Susm.Foundation.Stateful
open Susm.Protocol

/-! ## Conditions on a run -/

def segmentSizes (configuration : ExecutionConfiguration)
    (turns : List (WriterEvent × LogHost)) : List Nat :=
  configuration.segmentSize :: turns.filterMap fun turn =>
    match turn.1 with
    | .policyChanged (some update) => some update.segmentSize
    | _ => none

def timestampsOf (first : LogHost) (turns : List (WriterEvent × LogHost)) :
    List String :=
  first.timestamp :: turns.map fun turn => turn.2.timestamp

def arrivals (turns : List (WriterEvent × LogHost)) : List OutputChunk :=
  turns.flatMap fun turn => turn.1.chunks

/-- No operation fails of itself: the host answers, the log directory is in a
workload's tree, no name is taken and no segment is too large for a file. -/
structure NoErrors (machine : LogMachine)
    (configuration : ExecutionConfiguration) (first : LogHost)
    (turns : List (WriterEvent × LogHost)) (last : LogHost)
    (world : LogWorld) : Prop where
  starts : first.Works
  runs : ∀ turn ∈ turns, turn.2.Works
  ends : last.Works
  tree : 2 ≤ (machine.components configuration.logDirectory).length
  names : FreeNames (machine.components configuration.logDirectory)
    (timestampsOf first turns) world.disk
  fits : ∀ chunks, chunks <:+: arrivals turns →
    Fits configuration (segmentSizes configuration turns) chunks

/--
When retention looks after a policy update, the segment that is open is within
the limits of the update, or something before it cannot be removed.
-/
def SparesSegment (machine : LogMachine)
    (configuration : ExecutionConfiguration) (first : LogHost)
    (turns : List (WriterEvent × LogHost)) (world : LogWorld) : Prop :=
  ∀ earlier update host later,
    turns = earlier ++ (.policyChanged (some update), host) :: later →
    ∀ locals reached writer,
      Returns (afterTurns machine configuration first earlier) world locals
        reached →
      locals.policyOpen = true → locals.writer = some writer →
      (RetentionCall.mk (applyLoggingPolicy locals.configuration update)
        host.retention).WithinLimits machine fun path =>
          path = locals.openedPath machine host writer update

/-! ## Whole runs -/

section Runs

variable {machine : LogMachine} {configuration : ExecutionConfiguration}
  {first last : LogHost} {turns : List (WriterEvent × LogHost)}
  {before : LogWorld}

theorem afterTurns_concat {earlier : List (WriterEvent × LogHost)}
    {turn : WriterEvent × LogHost} {locals next : WriterLocals}
    {middle world : LogWorld}
    (h : Returns (afterTurns machine configuration first earlier) before locals
      middle)
    (hturn : Returns (locals.handle machine turn.2 turn.1) middle next world) :
    Returns (afterTurns machine configuration first (earlier ++ [turn])) before
      next world := by
  obtain ⟨start, started, hstart, hturns⟩ := returns_bind_iff.mp h
  refine returns_bind_iff.mpr ⟨start, started, hstart, ?_⟩
  rw [List.foldlM_append]
  refine returns_bind_iff.mpr ⟨locals, middle, hturns, ?_⟩
  exact returns_bind_iff.mpr ⟨next, world, hturn,
    returns_pure_iff.mpr ⟨rfl, rfl⟩⟩

theorem start_returns (capture : configuration.captureLogs = true)
    (works : NoErrors machine configuration first turns last before) :
    ∃ locals writer world, Returns (WriterLocals.start machine first
        configuration) before locals world ∧
      Opened (machine.components configuration.logDirectory)
        (timestampsOf first turns) (segmentSizes configuration turns) locals
        writer world.disk := by
  obtain ⟨locals, writer, world, hopen, -, -, opened⟩ :=
    @openNext_returns machine first configuration
      ⟨configuration, 0, none, true⟩ before (timestampsOf first turns)
      (segmentSizes configuration turns) works.starts rfl
      List.mem_cons_self List.mem_cons_self works.names
  refine ⟨locals, writer, world, ?_, opened⟩
  unfold WriterLocals.start
  dsimp only
  rw [if_pos capture]
  exact returns_bind_iff.mpr ⟨(), before, perform_returns works.starts rfl,
    hopen⟩

theorem handle_returns {earlier later : List (WriterEvent × LogHost)}
    {turn : WriterEvent × LogHost} {locals : WriterLocals}
    {writer : SegmentWriter} {middle : LogWorld}
    (keeps : KeepsCapturing turns)
    (works : NoErrors machine configuration first turns last before)
    (spares : SparesSegment machine configuration first turns before)
    (hturns : turns = earlier ++ turn :: later)
    (hearlier : Returns (afterTurns machine configuration first earlier) before
      locals middle)
    (capturing : Capturing machine configuration
      (SizeUnchanged configuration turns) (arrivals earlier) locals middle)
    (opened : Opened (machine.components configuration.logDirectory)
      (timestampsOf first turns) (segmentSizes configuration turns) locals
      writer middle.disk) :
    ∃ next last world, Returns (locals.handle machine turn.2 turn.1) middle
        next world ∧
      Opened (machine.components configuration.logDirectory)
        (timestampsOf first turns) (segmentSizes configuration turns) next
        last world.disk := by
  obtain ⟨groups, current, other, buffer, harrived, hwriter, running⟩ :=
    capturing
  obtain rfl := Option.some.inj (opened.active.symm.trans hwriter)
  have hmem : turn ∈ turns := by simp [hturns]
  have hworks := works.runs turn hmem
  have hlisted : turn.2.timestamp ∈ timestampsOf first turns :=
    List.mem_cons_of_mem _ (List.mem_map_of_mem hmem)
  obtain ⟨event, host⟩ := turn
  cases event with
  | chunk chunk =>
      have hchunks : arrivals turns =
          groups.flatten ++ (current ++ [chunk]) ++ arrivals later := by
        simp [arrivals, hturns, WriterEvent.chunks] at harrived ⊢
        simp [← harrived]
      refine receiveChunk_returns running hworks works.tree hlisted
        (works.fits _ ?_) (works.fits _ ?_) opened
      · exact ⟨groups.flatten ++ current, arrivals later, by simp [hchunks]⟩
      · exact ⟨groups.flatten, arrivals later, hchunks.symm⟩
  | tick => exact tick_returns running hworks works.tree hlisted opened
  | policyChanged update =>
      cases update with
      | none =>
          exact ⟨locals, writer, middle, returns_pure_iff.mpr ⟨rfl, rfl⟩,
            opened⟩
      | some update =>
          rw [WriterLocals.handle]
          by_cases hopen : locals.policyOpen = true
          · rw [if_pos hopen]
            refine changePolicy_returns running hworks works.tree hlisted
              (keeps _ hmem update rfl)
              (fun unchanged => unchanged _ hmem update rfl) ?_ ?_ opened
            · exact List.mem_cons_of_mem _
                (List.mem_filterMap.mpr ⟨_, hmem, rfl⟩)
            · intro hremoved
              exact RetentionCall.keeps_iff.mpr (spares earlier update host
                later hturns locals middle writer hearlier hopen hwriter) _
                hremoved rfl
          · rw [if_neg hopen]
            exact ⟨locals, writer, middle, returns_pure_iff.mpr ⟨rfl, rfl⟩,
              opened⟩
  | policyClosed =>
      exact ⟨_, writer, middle, returns_pure_iff.mpr ⟨rfl, rfl⟩,
        { opened with active := opened.active, sized := opened.sized }⟩

theorem turns_return (capture : configuration.captureLogs = true)
    (keeps : KeepsCapturing turns) (fresh : before.finished = [])
    (works : NoErrors machine configuration first turns last before)
    (spares : SparesSegment machine configuration first turns before) :
    ∃ locals writer world, Returns (afterTurns machine configuration first
        turns) before locals world ∧
      Opened (machine.components configuration.logDirectory)
        (timestampsOf first turns) (segmentSizes configuration turns) locals
        writer world.disk := by
  obtain ⟨start, firstWriter, started, hstart, hopened⟩ :=
    start_returns capture works
  have hfirst : Returns (afterTurns machine configuration first []) before
      start started :=
    returns_bind_iff.mpr ⟨start, started, hstart,
      returns_pure_iff.mpr ⟨rfl, rfl⟩⟩
  have progress : ∀ earlier turn later, turns = earlier ++ turn :: later →
      ∀ locals middle,
        (Returns (afterTurns machine configuration first earlier) before locals
          middle ∧
        ∃ writer, Opened (machine.components configuration.logDirectory)
          (timestampsOf first turns) (segmentSizes configuration turns) locals
          writer middle.disk) →
        ∃ next world, Returns (locals.handle machine turn.2 turn.1) middle next
            world ∧
          Returns (afterTurns machine configuration first (earlier ++ [turn]))
            before next world ∧
          ∃ writer, Opened (machine.components configuration.logDirectory)
            (timestampsOf first turns) (segmentSizes configuration turns) next
            writer world.disk := by
    rintro earlier turn later hturns locals middle ⟨hearlier, writer, opened⟩
    have hkeeps : ∀ other ∈ earlier, other.1.Keeps configuration
        (SizeUnchanged configuration turns) := fun other hother =>
      keeps.keeps other (by simp [hturns, hother])
    obtain ⟨next, last, world, hturn, hnext⟩ := handle_returns keeps works
      spares hturns hearlier
      (capturing_afterTurns capture fresh hkeeps hearlier) opened
    exact ⟨next, world, hturn, afterTurns_concat hearlier hturn, last, hnext⟩
  obtain ⟨locals, world, -, hturns, writer, opened⟩ :=
    foldlM_returns _ progress ⟨hfirst, firstWriter, hopened⟩
  exact ⟨locals, writer, world, hturns, opened⟩

theorem runWriter_returns (capture : configuration.captureLogs = true)
    (keeps : KeepsCapturing turns) (fresh : before.finished = [])
    (works : NoErrors machine configuration first turns last before)
    (spares : SparesSegment machine configuration first turns before) :
    ∃ after, Returns (runWriter machine configuration first turns last) before
      () after := by
  obtain ⟨locals, writer, world, hturns, opened⟩ :=
    turns_return capture keeps fresh works spares
  obtain ⟨groups, current, other, buffer, -, hwriter, running⟩ :=
    capturing_afterTurns capture fresh keeps.keeps hturns
  obtain rfl := Option.some.inj (opened.active.symm.trans hwriter)
  obtain ⟨done, closed, hfinish, free⟩ := running.closes works.ends opened
  obtain ⟨after, hretain, -⟩ := free.retain works.ends
    (by rw [running.same.directory]; exact works.tree)
  refine ⟨after, returns_bind_iff.mpr ⟨locals, world, hturns, ?_⟩⟩
  unfold WriterLocals.close
  rw [opened.active]
  exact returns_bind_iff.mpr ⟨done, closed, hfinish, hretain⟩

end Runs

/-! ## The stream -/

/--
When nothing fails and retention spares the segment that is open at a policy
update, every run puts every entry whole into one segment, in the order of
arrival, and keeps it in a file while the segment is finished.
-/
theorem segments_preserve_stream {machine : LogMachine}
    {configuration : ExecutionConfiguration} {first last : LogHost}
    {turns : List (WriterEvent × LogHost)} {before : LogWorld}
    (capture : configuration.captureLogs = true)
    (keeps : KeepsCapturing turns) (fresh : before.finished = [])
    (works : NoErrors machine configuration first turns last before)
    (spares : SparesSegment machine configuration first turns before) :
    ∃ after groups,
      Returns (runWriter machine configuration first turns last) before ()
        after ∧
      Segmented machine configuration (SizeUnchanged configuration turns)
        (arrivals turns) after.finished groups := by
  obtain ⟨after, returned⟩ := runWriter_returns capture keeps fresh works spares
  obtain ⟨groups, order, recorded⟩ :=
    recorded_of_runWriter capture keeps fresh returned
  exact ⟨after, groups, returned, (show _ = arrivals turns from order) ▸
    recorded.segmented⟩

/-! ## Runs on given inputs -/

section Examples

theorem quietHost_works (now : Int) : (quietHost now).Works :=
  ⟨fun _ => rfl, fun _ => ⟨_, rfl⟩, fun _ => rfl⟩

theorem entries_append_list {configuration : ExecutionConfiguration}
    (earlier later : List OutputChunk) :
    entries configuration (earlier ++ later) =
      entries configuration earlier ++ entries configuration later :=
  List.flatMap_append

theorem noErrors_quiet {configuration : ExecutionConfiguration}
    {turns : List (WriterEvent × LogHost)} {now : Int}
    (quiet : ∀ turn ∈ turns, ∃ now, turn.2 = quietHost now)
    (fits : (entries configuration (arrivals turns)).length < fileLimit) :
    NoErrors attemptMachine configuration (quietHost 0) turns (quietHost now)
      emptyWorld where
  starts := quietHost_works 0
  runs turn hturn := by
    obtain ⟨now, hnow⟩ := quiet turn hturn
    exact hnow ▸ quietHost_works now
  ends := quietHost_works now
  tree := by
    change 2 ≤ attemptDirectory.length
    decide
  names _ _ _ := rfl
  fits chunks hinfix _ := by
    obtain ⟨earlier, later, hchunks⟩ := hinfix
    rw [← hchunks, entries_append_list, entries_append_list,
      List.length_append, List.length_append] at fits
    omega

/-- Every entry is larger than a segment should be. -/
def oneEntry : ExecutionConfiguration :=
  { toolConfiguration with segmentSize := 1 }

theorem helloEntry_length :
    1 < (encodeEntry oneEntry helloChunk).length ∧
      (encodeEntry oneEntry helloChunk).length < 2 ^ 13 := by
  decide +kernel

def quietTurns (chunks : List OutputChunk) : List (WriterEvent × LogHost) :=
  chunks.map fun chunk => (.chunk chunk, quietHost 0)

theorem arrivals_quietTurns (chunks : List OutputChunk) :
    arrivals (quietTurns chunks) = chunks := by
  induction chunks with
  | nil => rfl
  | cons chunk chunks ih =>
      exact congrArg (chunk :: ·) ih

theorem quietTurns_update {chunks : List OutputChunk}
    {update : Option PolicyUpdate} {host : LogHost} :
    (.policyChanged update, host) ∉ quietTurns chunks := by
  simp [quietTurns]

theorem quietTurns_keep (chunks : List OutputChunk) :
    KeepsCapturing (quietTurns chunks) := by
  rintro ⟨event, host⟩ hturn update rfl
  exact absurd hturn quietTurns_update

theorem quietTurns_unchanged (chunks : List OutputChunk) :
    SizeUnchanged oneEntry (quietTurns chunks) := by
  rintro ⟨event, host⟩ hturn update rfl
  exact absurd hturn quietTurns_update

theorem runWriter_quiet {chunks : List OutputChunk}
    (fits : (entries oneEntry chunks).length < fileLimit) :
    ∃ world, Returns (runWriter attemptMachine oneEntry (quietHost 0)
      (quietTurns chunks) (quietHost 0)) emptyWorld () world := by
  refine runWriter_returns rfl (quietTurns_keep chunks) rfl
    (noErrors_quiet ?_ ?_) ?_
  · simp [quietTurns]
  · rwa [arrivals_quietTurns]
  · intro earlier update host later hturns
    refine absurd ?_ (@quietTurns_update chunks (some update) host)
    simp [hturns]

def helloTurns (count : Nat) : List (WriterEvent × LogHost) :=
  quietTurns (List.replicate count helloChunk)

theorem length_entries_le {configuration : ExecutionConfiguration}
    {chunks : List OutputChunk} {bound : Nat}
    (each : ∀ chunk ∈ chunks,
      (encodeEntry configuration chunk).length ≤ bound) :
    (entries configuration chunks).length ≤ chunks.length * bound := by
  induction chunks with
  | nil => exact Nat.zero_le _
  | cons chunk chunks ih =>
      obtain ⟨first, rest⟩ := List.forall_mem_cons.mp each
      have total := ih rest
      simp only [entries, List.flatMap_cons, List.length_append,
        List.length_cons, Nat.succ_mul] at total ⊢
      omega

theorem entries_hello (count : Nat) :
    (entries oneEntry (List.replicate count helloChunk)).length =
      count * (encodeEntry oneEntry helloChunk).length := by
  simp [entries, List.length_flatMap]

theorem runWriter_hello {count : Nat} (h : count < 2 ^ 33) :
    ∃ world, Returns (runWriter attemptMachine oneEntry (quietHost 0)
      (helloTurns count) (quietHost 0)) emptyWorld () world := by
  refine runWriter_quiet ?_
  rw [entries_hello]
  have hlength := helloEntry_length.2
  unfold fileLimit
  exact lt_of_le_of_lt (Nat.mul_le_mul h.le hlength.le) (by decide)

end Examples

/-- A segment is closed by an update that keeps files for a second, and another
one is open while retention looks after it. -/
def updateTurns : List (WriterEvent × LogHost) :=
  [(.chunk helloChunk, quietHost 0),
    (.policyChanged (some { shortAge with segmentSize := 1 }), quietHost 0),
    (.chunk helloChunk, quietHost 0)]

theorem segments_preserve_stream_update :
    ∃ (world : LogWorld) (groups : List (List OutputChunk)),
      Returns (runWriter attemptMachine oneEntry (quietHost 0) updateTurns
        (quietHost 0)) emptyWorld () world ∧
      Segmented attemptMachine oneEntry (SizeUnchanged oneEntry updateTurns)
        [helloChunk, helloChunk] world.finished groups := by
  refine segments_preserve_stream rfl ?_ rfl (noErrors_quiet ?_ ?_) ?_
  · simp [KeepsCapturing, updateTurns, shortAge]
  · simp [updateTurns]
  · decide +kernel
  · intro earlier update host later hturns locals reached writer _ _ _
    have hmem : (WriterEvent.policyChanged (some update), host) ∈
        updateTurns := by simp [hturns]
    obtain ⟨rfl, rfl⟩ : update = { shortAge with segmentSize := 1 } ∧
        host = quietHost 0 := by
      simpa [updateTurns] using hmem
    refine RetentionCall.keeps_iff.mp fun path hpath => ?_
    have hnone : (RetentionCall.removals attemptMachine
        ⟨applyLoggingPolicy locals.configuration
          { shortAge with segmentSize := 1 },
          (quietHost 0).retention⟩).paths = [] := rfl
    rw [hnone] at hpath
    cases hpath

theorem hello_segments {count : Nat} {world : LogWorld}
    (returned : Returns (runWriter attemptMachine oneEntry (quietHost 0)
      (helloTurns count) (quietHost 0)) emptyWorld () world) :
    count ≤ world.finished.length := by
  obtain ⟨groups, order, recorded⟩ :=
    recorded_of_runWriter rfl (quietTurns_keep _) rfl returned
  have order : groups.flatten = List.replicate count helloChunk :=
    order.trans (arrivals_quietTurns _)
  have single : ∀ length ∈ groups.map List.length, length ≤ 1 := by
    rw [List.forall_mem_map]
    intro group hgroup
    rcases recorded.segmented.small (quietTurns_unchanged _) group
      hgroup with h | h
    · exact h
    · have hello : group = List.replicate group.length helloChunk :=
        List.eq_replicate_iff.mpr ⟨rfl, fun chunk hchunk =>
          List.eq_of_mem_replicate
            (order ▸ List.mem_flatten_of_mem hgroup hchunk)⟩
      rw [hello, entries_hello] at h
      have hlarge := helloEntry_length.1
      change group.length * _ ≤ 1 at h
      by_contra hmore
      have hproduct := Nat.mul_le_mul (show 2 ≤ group.length by omega)
        hlarge.le
      omega
  calc count = groups.flatten.length := by rw [order, List.length_replicate]
    _ = (groups.map List.length).sum := List.length_flatten
    _ ≤ (groups.map List.length).length • 1 :=
        List.sum_le_card_nsmul _ _ single
    _ = world.finished.length := by
        rw [List.length_map, Nat.nsmul_eq_mul, Nat.mul_one, recorded.length]

/-- One chunk more than a `u32` counts. -/
theorem numbers_wrap :
    ∃ world, Returns (runWriter attemptMachine oneEntry (quietHost 0)
        (helloTurns (2 ^ 32 + 1)) (quietHost 0)) emptyWorld () world ∧
      ∃ first last, world.finished[0]? = some first ∧
        world.finished[2 ^ 32]? = some last ∧
        segmentNumber first.path = some 0 ∧
        segmentNumber last.path = some 0 := by
  obtain ⟨world, hrun⟩ := @runWriter_hello (2 ^ 32 + 1) (by decide)
  have hlength := hello_segments hrun
  obtain ⟨groups, -, recorded⟩ :=
    recorded_of_runWriter rfl (quietTurns_keep _) rfl hrun
  have hnumber : ∀ (place : Nat) call, world.finished[place]? = some call →
      segmentNumber call.path = some (place % 2 ^ 32) := by
    intro place call hcall
    have hmap := congrArg (fun numbers => numbers[place]?) recorded.numbers
    obtain ⟨hplace, -⟩ := List.getElem?_eq_some_iff.mp hcall
    simpa [List.getElem?_map, hcall, List.getElem?_range hplace] using hmap
  have hfirst : 0 < world.finished.length := by omega
  have hlast : 2 ^ 32 < world.finished.length := by omega
  refine ⟨world, hrun, world.finished[0], world.finished[2 ^ 32],
    List.getElem?_eq_getElem hfirst, List.getElem?_eq_getElem hlast, ?_, ?_⟩
  · simpa using hnumber 0 _ (List.getElem?_eq_getElem hfirst)
  · simpa using hnumber (2 ^ 32) _ (List.getElem?_eq_getElem hlast)

/-- The segment that is written is removed, and the run fails though nothing
that it asks for does; what is in the buffer when a segment is finished is in
no file yet; and behind `2 ^ 32` segments the numbers start again. -/
theorem stream_not_preserved :
    (NoErrors attemptMachine toolConfiguration (quietHost 0) shortAgeTurns
        (quietHost 2000000000) emptyWorld ∧
      ¬ ∃ after, Returns (runWriter attemptMachine toolConfiguration
        (quietHost 0) shortAgeTurns (quietHost 2000000000)) emptyWorld ()
        after) ∧
    (∃ world call, Returns (runWriter attemptMachine oneEntry (quietHost 0)
        (helloTurns 1) (quietHost 0)) emptyWorld () world ∧
      world.finished = [call] ∧
      ¬ Present attemptMachine call.path (entries oneEntry [helloChunk])
        call.disk) ∧
    ∃ world, Returns (runWriter attemptMachine oneEntry (quietHost 0)
        (helloTurns (2 ^ 32 + 1)) (quietHost 0)) emptyWorld () world ∧
      ∃ first last, world.finished[0]? = some first ∧
        world.finished[2 ^ 32]? = some last ∧
        segmentNumber first.path = some 0 ∧
        segmentNumber last.path = some 0 := by
  refine ⟨⟨noErrors_quiet ?_ (by decide +kernel), ?_⟩, ?_, numbers_wrap⟩
  · simp [shortAgeTurns]
  · rintro ⟨after, returned⟩
    have failed : ((runWriter attemptMachine toolConfiguration (quietHost 0)
        shortAgeTurns (quietHost 2000000000)).run emptyWorld).1 =
          .error .io := by
      decide +kernel
    rw [returned] at failed
    cases failed
  · have facts : ∃ reached, (runWriter attemptMachine oneEntry (quietHost 0)
          (helloTurns 1) (quietHost 0)).run emptyWorld = reached ∧
        reached.1 = .ok () ∧ reached.2.finished.length = 1 ∧
        ∀ call ∈ reached.2.finished,
          call.disk.lookup call.path ≠ some (entries oneEntry [helloChunk]) ∧
          call.disk.lookup (finalizedPath call.path) = none ∧
          call.disk.lookup (compressedPath (finalizedPath call.path)) =
            none := by
      refine ⟨_, rfl, ?_, ?_, ?_⟩ <;> decide +kernel
    obtain ⟨⟨result, world⟩, run, rfl, single, absent⟩ := facts
    obtain ⟨call, hcall⟩ := List.length_eq_one_iff.mp single
    obtain ⟨hopen, hfinalized, hcompressed⟩ :=
      absent call (by rw [hcall]; exact List.mem_singleton_self call)
    refine ⟨world, call, run, hcall, ?_⟩
    rintro (present | present | ⟨frame, present, -⟩)
    · exact hopen present
    · rw [hfinalized] at present
      cases present
    · rw [hcompressed] at present
      cases present

end Susm.Supervisor
