import Susm.Controller.LogQuery
import Susm.Foundation.EndlessRuns
import Susm.Supervisor.OpenSegments

/-!
# Races between reading and rotation

A file may be renamed or removed between its listing and its reading, and then
the query fails.  As long as this does not happen and no temporary file gives
records of its own, a query in follow mode delivers every record of a segment
that survives, and none of them twice.
-/

namespace Susm.Controller

open Susm.Foundation
open Susm.Protocol
open Susm.Supervisor

/-! ## What is promised -/

namespace LogEvent

/-- A step of the query. -/
def IsRead (event : LogEvent) : Prop := ∃ names, event = .read names

end LogEvent

/-- The record passes all filters. -/
def ReadLogsRequest.Wants (request : ReadLogsRequest)
    (record : ReadLogsResponse) : Prop :=
  request.skipsExecution record.executionId = false ∧
    request.skipsAttempt record.attempt = false ∧
    request.skipsStream record.stream = false

namespace LogState

variable (tree : LogTree) (state : LogState) (segment : Segment)

/-- The entries of the first chunks have left the buffer. -/
def Written (count : Nat) : Prop :=
  count ≤ (tree.chunks segment).length ∧
    ∃ stage, state.stages.lookup segment = some stage ∧
      (((tree.chunks segment).take count).flatMap
        (encodeEntry (tree.configuration segment))).length ≤
        tree.available segment stage

def Survives : Prop :=
  ∃ kind, kind ≠ FileKind.temporary ∧
    (state.disk.lookup (tree.path segment kind)).isSome

end LogState

/-- What a query promises while segments are written, finished and removed. -/
structure ReadsSafely (tree : LogTree) (request : ReadLogsRequest)
    (Admits : LogState → LogEvent → Prop) : Prop where
  never_fails : ∀ state, Runs (logStep tree request) Admits .initial state →
    ∀ error, state.point ≠ .done (.error error)
  at_most_once : ∀ state, Runs (logStep tree request) Admits .initial state →
    ∀ record, state.delivered.count record ≤ 1
  /-- The query takes steps again and again, and the client does not hang up. -/
  exactly_once : request.follow = true →
    ∀ run : Endless (logStep tree request) Admits .initial,
      run.Fair LogEvent.IsRead →
      (∀ time, (run.state time).closed = false) →
      ∀ segment start count,
        (run.state start).Written tree segment count →
        (∀ time, start ≤ time → (run.state time).Survives tree segment) →
        ∀ record ∈ (tree.records segment).take count,
          request.Wants record →
          ∃ time, ∀ later, time ≤ later →
            (run.state later).delivered.count record = 1

/-! ## What is still to be read -/

/-- The round of the loop comes to the record. -/
def LogTree.Covers (tree : LogTree) (segment : Segment)
    (record : ReadLogsResponse) : LogTask → Prop
  | .execution executionId => executionId = segment.executionId
  | .attempt executionId name =>
      executionId = segment.executionId ∧ name = attemptName segment.attempt.toNat
  | .file executionId attempt name =>
      executionId = segment.executionId ∧
        attempt = attemptName segment.attempt.toNat ∧
        ∃ kind, kind ≠ FileKind.temporary ∧
          name = tree.fileName segment kind
  | .record other => other = record

def LogState.Owes (tree : LogTree) (segment : Segment)
    (record : ReadLogsResponse) (state : LogState) : Prop :=
  record.identity ∈ state.seen ∨ state.point = .pass ∨
    ∃ task ∈ state.point.tasks, tree.Covers segment record task

section Coverage

variable {tree : LogTree} {request : ReadLogsRequest} {state next : LogState}
  {segment : Segment} {record : ReadLogsResponse} {count : Nat}

theorem mem_entries {directory path : LogPath} {name : String}
    (hpath : path ∈ state.disk.keys ++ state.stages.keys.map tree.directory)
    (hentry : directory ++ [name] <+: path) :
    name ∈ state.entries tree directory := by
  obtain ⟨rest, rfl⟩ := hentry
  refine List.mem_filterMap.mpr ⟨_, hpath, ?_⟩
  rw [if_pos ⟨[name] ++ rest, by simp⟩]
  simp

theorem LogState.Survives.entry (survives : state.Survives tree segment) :
    ∃ kind, kind ≠ FileKind.temporary ∧ tree.fileName segment kind ∈
      state.entries tree
        (tree.root ++ [segment.executionId, attemptName segment.attempt.toNat]) := by
  obtain ⟨kind, hkind, hfile⟩ := survives
  have hkey : tree.path segment kind ∈ state.disk.keys := by
    rw [← AList.mem_keys, ← AList.lookup_isSome]
    exact hfile
  exact ⟨kind, hkind,
    mem_entries (List.mem_append_left _ hkey) List.prefix_rfl⟩

theorem LogState.Written.directory
    (written : state.Written tree segment count) :
    tree.directory segment ∈
      state.disk.keys ++ state.stages.keys.map tree.directory := by
  obtain ⟨-, stage, hstage, -⟩ := written
  exact List.mem_append_right _
    (List.mem_map_of_mem (mem_keys_of_lookup hstage))

theorem LogState.Written.decoded {kind : FileKind}
    {content bytes : List UInt8} (written : state.Written tree segment count)
    (stored : tree.Stored state) (hkind : kind ≠ .temporary)
    (hcontent : state.disk.lookup (tree.path segment kind) = some content)
    (hbytes : fileBytes tree.zstd (tree.fileName segment kind) content =
      some bytes)
    (hrecord : record ∈ (tree.records segment).take count) :
    record ∈ decodeJournal bytes segment.executionId segment.attempt.toNat := by
  obtain ⟨hcount, stage, hstage, hfits⟩ := written
  obtain ⟨size, hsize, hread⟩ :=
    (stored.holds hstage hcontent).readable hkind
  rw [hread, Option.some.injEq] at hbytes
  subst hbytes
  obtain ⟨whole, hdecoded, hwhole⟩ := decodeJournal_journal tree segment size
  rw [hdecoded]
  exact List.take_subset_take_left _
    (hwhole count hcount (hfits.trans hsize)) hrecord

theorem Quiet.written (quiet : Quiet tree state next)
    (written : state.Written tree segment count) :
    next.Written tree segment count := by
  obtain ⟨hcount, stage, hstage, hfits⟩ := written
  obtain ⟨later, hlater, hgrows⟩ := quiet.grows segment stage hstage
  exact ⟨hcount, later, hlater, hfits.trans hgrows⟩

theorem LogState.Written.step {event : LogEvent}
    (written : state.Written tree segment count)
    (h : logStep tree request state event = some next) :
    next.Written tree segment count := by
  rcases reads_or_quiet h with ⟨names, rfl, reads⟩ | quiet
  · obtain ⟨-, hstages, -⟩ := reads.unchanged
    unfold Written
    rw [hstages]
    exact written
  · exact quiet.written written

theorem directory_of_record (hrecord : record ∈ tree.records segment) :
    record.executionId = segment.executionId ∧
      record.attempt = segment.attempt.toNat := by
  obtain ⟨chunk, -, rfl⟩ := List.mem_map.mp hrecord
  exact ⟨rfl, rfl⟩

/-- No round that comes to a wanted record is skipped, unless it was read. -/
theorem seen_of_skips {task : LogTask}
    (hrecord : record ∈ tree.records segment) (wants : request.Wants record)
    (covers : tree.Covers segment record task)
    (hskip : state.Skips request task) : record.identity ∈ state.seen := by
  obtain ⟨hexecution, hattempt⟩ := directory_of_record hrecord
  obtain ⟨wantsExecution, wantsAttempt, wantsStream⟩ := wants
  cases task with
  | execution executionId =>
      cases covers
      rw [LogState.Skips, ← hexecution, wantsExecution] at hskip
      cases hskip
  | attempt executionId name =>
      obtain ⟨rfl, rfl⟩ := covers
      rw [LogState.Skips, attemptNumber_attemptName segment.attempt.toNat_lt,
        ← hattempt, wantsAttempt] at hskip
      cases hskip
  | file executionId attempt name =>
      obtain ⟨-, -, kind, -, rfl⟩ := covers
      rw [LogState.Skips, LogTree.isJournalName_fileName] at hskip
      cases hskip
  | record other =>
      cases covers
      rcases hskip with hskip | hmem
      · rw [wantsStream] at hskip
        cases hskip
      · exact hmem

theorem Reads.owes_pass (reads : Reads tree request state next)
    (hpass : state.point = .pass)
    (written : state.Written tree segment count) :
    next.Owes tree segment record := by
  cases reads with
  | empty h hnone =>
      obtain ⟨-, stage, hstage, -⟩ := written
      have hkey := mem_keys_of_lookup hstage
      rw [hnone] at hkey
      cases hkey
  | root h hlists =>
      refine .inr (.inr ⟨.execution segment.executionId, ?_, rfl⟩)
      refine List.mem_map_of_mem (hlists.2 _ ?_)
      refine mem_entries written.directory ?_
      exact ⟨[attemptName segment.attempt.toNat], by simp [LogTree.directory]⟩
  | finished h | skip h | execution h | attempt h | file h | missing h
  | invalid h | hungUp h | send h | wake h =>
      rw [hpass] at h
      cases h

section Rounds

variable {task : LogTask} {rest : List LogTask}
  (written : state.Written tree segment count)
  (survives : state.Survives tree segment) (sound : Sound tree request state)
  (hrecord : record ∈ (tree.records segment).take count)
  (wants : request.Wants record)
include written survives sound hrecord wants

theorem Reads.owes_round (reads : Reads tree request state next)
    (healthy : ∀ error, next.point ≠ .done (.error error))
    (hopen : state.closed = false)
    (hpoint : state.point = .reading (task :: rest))
    (covers : tree.Covers segment record task) :
    next.Owes tree segment record := by
  cases reads with
  | empty h | root h | finished h | wake h =>
      rw [hpoint] at h
      cases h
  | missing => exact absurd rfl (healthy _)
  | invalid => exact absurd rfl (healthy _)
  | hungUp h hclosed =>
      rw [hopen] at hclosed
      cases hclosed
  | skip h hskip =>
      rw [hpoint] at h
      cases h
      exact .inl (seen_of_skips (List.mem_of_mem_take hrecord) wants covers
        hskip)
  | execution h hlists =>
      rw [hpoint] at h
      cases h
      cases covers
      refine .inr (.inr ⟨.attempt segment.executionId
        (attemptName segment.attempt.toNat), ?_, rfl, rfl⟩)
      refine List.mem_append_left _ (List.mem_map_of_mem (hlists.2 _ ?_))
      refine mem_entries written.directory ?_
      exact ⟨[], by simp [LogTree.directory]⟩
  | attempt h hlists =>
      rw [hpoint] at h
      cases h
      obtain ⟨rfl, rfl⟩ := covers
      obtain ⟨kind, hkind, hentry⟩ := survives.entry
      refine .inr (.inr ⟨.file segment.executionId
        (attemptName segment.attempt.toNat) (tree.fileName segment kind), ?_,
        rfl, rfl, kind, hkind, rfl⟩)
      exact List.mem_append_left _
        (List.mem_map_of_mem (hlists.2 _ hentry))
  | file h hcontent hbytes =>
      rw [hpoint] at h
      cases h
      obtain ⟨rfl, rfl, kind, hkind, rfl⟩ := covers
      refine .inr (.inr ⟨.record record, ?_, rfl⟩)
      refine List.mem_append_left _ (List.mem_map_of_mem ?_)
      rw [attemptNumber_attemptName segment.attempt.toNat_lt]
      refine written.decoded sound.stored hkind ?_ hbytes hrecord
      rw [LogTree.path, LogTree.directory, List.append_assoc]
      exact hcontent
  | send h hnew =>
      rw [hpoint] at h
      cases h
      cases covers
      exact .inl (List.mem_append_right _ List.mem_cons_self)

theorem Reads.owes (reads : Reads tree request state next)
    (owes : state.Owes tree segment record)
    (healthy : ∀ error, next.point ≠ .done (.error error))
    (hopen : state.closed = false) : next.Owes tree segment record := by
  rcases owes with hmem | hpass | ⟨task, htask, covers⟩
  · exact .inl (reads.seen_subset hmem)
  · exact reads.owes_pass hpass written
  · cases hpoint : state.point with
    | pass | asleep | done result =>
        rw [hpoint] at htask
        cases htask
    | reading tasks =>
        rw [hpoint] at htask
        cases tasks with
        | nil => cases htask
        | cons first rest =>
            rcases List.mem_cons.mp htask with rfl | hmem
            · exact reads.owes_round written survives sound hrecord wants
                healthy hopen hpoint covers
            · -- the round comes later
              rcases reads.rounds hpoint with
                ⟨result, hdone, hclosed⟩ | ⟨inner, hinner, -⟩
              · cases result with
                | error error => exact absurd hdone (healthy error)
                | ok => simp [hopen] at hclosed
              · refine .inr (.inr ⟨task, ?_, covers⟩)
                rw [hinner]
                exact List.mem_append_right inner hmem

end Rounds

end Coverage

/-! ## Passes come to their end -/

section Progress

variable {tree : LogTree} {request : ReadLogsRequest}
  {Admits : LogState → LogEvent → Prop} {first : LogState}
  {run : Endless (logStep tree request) Admits first}

theorem point_of_other (time : Nat) (hread : ¬ (run.event time).IsRead) :
    (run.state (time + 1)).point = (run.state time).point :=
  (quiet_of_step (not_exists.mp hread) (run.moves time)).point

theorem leads_rounds {inner : List LogTask} (rest : List LogTask)
    (rounds : ∀ round ∈ inner, ∀ rest,
      run.LeadsTo (fun state => state.point = .reading (round :: rest))
        (fun state => state.point = .reading rest)) :
    run.LeadsTo (fun state => state.point = .reading (inner ++ rest))
      (fun state => state.point = .reading rest) := by
  induction inner with
  | nil => exact .of_imp fun _ h => h
  | cons round inner ih =>
      exact (rounds round List.mem_cons_self _).trans
        (ih fun other hother => rounds other (List.mem_cons_of_mem _ hother))

variable (fair : run.Fair LogEvent.IsRead)
  (alive : ∀ time result, (run.state time).point ≠ .done result)
include fair alive

theorem leads_next (point : QueryPoint) (After : QueryPoint → Prop)
    (taken : ∀ state next, state.point = point →
      Reads tree request state next →
      After next.point ∨ ∃ result, next.point = .done result) :
    run.LeadsTo (fun state => state.point = point)
      (fun state => After state.point) := by
  refine Endless.LeadsTo.of_next (fun current => current = point) fair
    (fun _ => point_of_other _) ?_
  rintro time hpoint ⟨names, hevent⟩
  have hmoves := run.moves time
  rw [hevent] at hmoves
  rcases taken _ _ hpoint (reads_of_step hmoves) with hafter | ⟨result, hdone⟩
  · exact hafter
  · exact absurd hdone (alive (time + 1) result)

theorem leads_round (task : LogTask) (rest : List LogTask) :
    run.LeadsTo (fun state => state.point = .reading (task :: rest))
      (fun state => state.point = .reading rest) := by
  -- on how many loops there are inside the round
  induction hdepth : task.depth using Nat.strong_induction_on
    generalizing task rest with
  | _ depth ih =>
      have hstep := leads_next fair alive (.reading (task :: rest))
        (fun point => ∃ inner, point = .reading (inner ++ rest) ∧
          ∀ round ∈ inner, round.depth < task.depth)
        fun _ _ hpoint reads => (reads.rounds hpoint).symm.imp_right
          fun ⟨result, hdone, _⟩ => ⟨result, hdone⟩
      intro time hbefore
      obtain ⟨middle, hmiddle, inner, hinner, hdepths⟩ := hstep time hbefore
      have hrounds : ∀ round ∈ inner, ∀ rest,
          run.LeadsTo (fun state => state.point = .reading (round :: rest))
            (fun state => state.point = .reading rest) := by
        intro round hround rest
        have hless := hdepths round hround
        rw [hdepth] at hless
        exact ih round.depth hless round rest rfl
      obtain ⟨later, hlater, hpoint⟩ :=
        leads_rounds rest hrounds middle hinner
      exact ⟨later, le_trans hmiddle hlater, hpoint⟩

theorem leads_reading (tasks : List LogTask) :
    run.LeadsTo (fun state => state.point = .reading tasks)
      (fun state => state.point = .asleep) := by
  have hrounds : run.LeadsTo
      (fun state => state.point = .reading (tasks ++ []))
      (fun state => state.point = .reading []) :=
    leads_rounds [] fun round _ rest => leads_round fair alive round rest
  rw [List.append_nil] at hrounds
  refine hrounds.trans (leads_next fair alive (.reading [])
    (fun point => point = .asleep) ?_)
  intro state next hpoint reads
  cases reads with
  | finished =>
      rw [LogState.endPass]
      cases request.follow with
      | true => exact .inl rfl
      | false => exact .inr ⟨.ok (), rfl⟩
  | empty h | root h | skip h | execution h | attempt h | file h | missing h
  | invalid h | hungUp h | send h | wake h =>
      rw [hpoint] at h
      cases h

theorem leads_pass :
    run.LeadsTo (fun state => state.point = .pass)
      (fun state => state.point = .asleep) := by
  have hfirst := leads_next fair alive .pass
    (fun point => (∃ tasks, point = .reading tasks) ∨ point = .asleep) ?_
  · intro time hpass
    obtain ⟨middle, hmiddle, ⟨tasks, hreading⟩ | hasleep⟩ := hfirst time hpass
    · obtain ⟨later, hlater, hasleep⟩ :=
        leads_reading fair alive tasks middle hreading
      exact ⟨later, le_trans hmiddle hlater, hasleep⟩
    · exact ⟨middle, hmiddle, hasleep⟩
  · intro state next hpoint reads
    cases reads with
    | empty =>
        rw [LogState.endPass]
        cases request.follow with
        | true => exact .inl (.inr rfl)
        | false => exact .inr ⟨.ok (), rfl⟩
    | root => exact .inl (.inl ⟨_, rfl⟩)
    | finished h | skip h | execution h | attempt h | file h | missing h
    | invalid h | hungUp h | send h | wake h =>
        rw [hpoint] at h
        cases h

theorem leads_asleep :
    run.LeadsTo (fun state => state.point = .asleep)
      (fun state => state.point = .pass) := by
  refine leads_next fair alive .asleep (fun point => point = .pass) ?_
  intro state next hpoint reads
  cases reads with
  | wake =>
      cases state.closed with
      | true => exact .inr ⟨.ok (), rfl⟩
      | false => exact .inl rfl
  | empty h | root h | finished h | skip h | execution h | attempt h
  | file h | missing h | invalid h | hungUp h | send h =>
      rw [hpoint] at h
      cases h

theorem pass_follows (start : Nat) :
    ∃ time, start ≤ time ∧ (run.state time).point = .pass ∧
      ∃ later, time ≤ later ∧ (run.state later).point = .asleep := by
  have hbegin : ∃ time, start ≤ time ∧ (run.state time).point = .pass := by
    cases hpoint : (run.state start).point with
    | pass => exact ⟨start, le_rfl, hpoint⟩
    | asleep => exact leads_asleep fair alive start hpoint
    | reading tasks =>
        obtain ⟨middle, hmiddle, hasleep⟩ :=
          leads_reading fair alive tasks start hpoint
        obtain ⟨later, hlater, hpass⟩ :=
          leads_asleep fair alive middle hasleep
        exact ⟨later, le_trans hmiddle hlater, hpass⟩
    | done result => exact absurd hpoint (alive start result)
  obtain ⟨time, htime, hpass⟩ := hbegin
  exact ⟨time, htime, hpass, leads_pass fair alive time hpass⟩

end Progress

/-! ## The promise -/

/-- The invariant of a segment that survives while the client listens. -/
structure Following (tree : LogTree) (request : ReadLogsRequest)
    (segment : Segment) (count : Nat) (record : ReadLogsResponse)
    (state : LogState) : Prop where
  sound : Sound tree request state
  written : state.Written tree segment count
  owes : state.Owes tree segment record

section Promise

variable {tree : LogTree} {request : ReadLogsRequest}
  {Admits : LogState → LogEvent → Prop} {state next : LogState}
  {segment : Segment} {record : ReadLogsResponse} {count : Nat}

theorem Following.step {event : LogEvent}
    (hrecord : record ∈ (tree.records segment).take count)
    (wants : request.Wants record)
    (following : Following tree request segment count record state)
    (undisturbed : state.Undisturbed tree event)
    (survives : state.Survives tree segment) (hopen : state.closed = false)
    (h : logStep tree request state event = some next) :
    Following tree request segment count record next := by
  have sound := following.sound.step undisturbed h
  refine ⟨sound, following.written.step h, ?_⟩
  rcases reads_or_quiet h with ⟨names, rfl, reads⟩ | quiet
  · exact reads.owes following.written survives following.sound
      hrecord wants following.owes sound.healthy hopen
  · have howes := following.owes
    unfold LogState.Owes at howes ⊢
    rw [quiet.point, quiet.seen]
    exact howes

theorem Following.of_runs
    (hrecord : record ∈ (tree.records segment).take count)
    (wants : request.Wants record)
    (following : Following tree request segment count record state)
    (run : Runs (logStep tree request) (fun state event =>
      state.Undisturbed tree event ∧
        (state.Survives tree segment ∧ state.closed = false)) state next) :
    Following tree request segment count record next :=
  run.invariant (fun _ _ _ held admits h =>
    held.step hrecord wants admits.1 admits.2.1 admits.2.2 h) following

theorem LogState.Written.of_runs (written : state.Written tree segment count)
    (run : Runs (logStep tree request) Admits state next) :
    next.Written tree segment count := by
  have keeps : ∀ before event after,
      LogState.Written tree before segment count → Admits before event →
      logStep tree request before event = some after →
      LogState.Written tree after segment count :=
    fun _ _ _ held _ h => held.step h
  have hlast := Runs.invariant keeps run written
  exact hlast

theorem seen_of_runs (hseen : record.identity ∈ state.seen)
    (run : Runs (logStep tree request) Admits state next) :
    record.identity ∈ next.seen := by
  have keeps : ∀ before event after, record.identity ∈ before.seen →
      Admits before event → logStep tree request before event = some after →
      record.identity ∈ after.seen := by
    intro before event after hmem _ h
    rcases reads_or_quiet h with ⟨names, rfl, reads⟩ | quiet
    · exact reads.seen_subset hmem
    · rw [quiet.seen]
      exact hmem
  have hlast := Runs.invariant keeps run hseen
  exact hlast

theorem LogState.Owes.seen (owes : state.Owes tree segment record)
    (hpoint : state.point = .asleep) : record.identity ∈ state.seen := by
  rcases owes with hmem | hpass | ⟨task, htask, -⟩
  · exact hmem
  · rw [hpoint] at hpass
    cases hpass
  · rw [hpoint] at htask
    cases htask

end Promise

/--
The query keeps its promise in every run in which each file that was listed is
there when it is read and temporary files give no records of their own.
-/
theorem readsSafely_undisturbed (tree : LogTree) (request : ReadLogsRequest) :
    ReadsSafely tree request (LogState.Undisturbed tree) where
  never_fails _ run := (sound_of_runs run).healthy
  at_most_once _ run := (sound_of_runs run).count_le_one
  exactly_once := by
    intro hfollow run fair hopen segment start count written survives record
      hrecord wants
    have sound : ∀ time, Sound tree request (run.state time) :=
      fun time => sound_of_runs (run.runs time)
    have alive : ∀ time result, (run.state time).point ≠ .done result := by
      intro time result hdone
      cases result with
      | error error => exact (sound time).healthy error hdone
      | ok =>
          have hended := (sound time).ended hdone
          simp [hopen, hfollow] at hended
    obtain ⟨time, htime, hpass, later, hlater, hasleep⟩ :=
      pass_follows fair alive start
    have hwritten : ∀ time, start ≤ time →
        (run.state time).Written tree segment count :=
      fun _ hle => written.of_runs (run.runs_between hle)
    have hbegin : Following tree request segment count record
        (run.state time) :=
      ⟨sound time, hwritten time htime, .inr (.inl hpass)⟩
    -- the segment survives until the pass has ended
    have hended := hbegin.of_runs hrecord wants
      (run.runs_of_le (fun state =>
        state.Survives tree segment ∧ state.closed = false) hlater
        fun middle hmiddle =>
          ⟨survives middle (le_trans htime hmiddle), hopen middle⟩)
    have hseen := hended.owes.seen hasleep
    refine ⟨later, fun after hafter => ?_⟩
    have hstart := le_trans htime (le_trans hlater hafter)
    obtain ⟨-, stage, hstage, -⟩ := hwritten after hstart
    exact (sound after).count_eq_one (alive after _)
      (mem_logRecords hstage (List.mem_of_mem_take hrecord))
      (seen_of_runs hseen (run.runs_between hafter))

/-! ## A segment that is finished between its listing and its reading -/

def helloTree : LogTree where
  root := ["logs", "tool"]
  zstd := storingZstd
  processId _ := 7
  configuration _ := toolConfiguration
  chunks _ := [helloChunk]
  workload_line _ := by decide
  execution_line _ := by decide
  sequences _ _ _ _ one hone two htwo _ := by
    rw [List.mem_singleton.mp hone, List.mem_singleton.mp htwo]

def firstSegment : Segment where
  executionId := "execution"
  attempt := 1
  timestamp := "20240101T000000.000000000Z"
  number := 0

def followAll : ReadLogsRequest := ⟨"", 0, "all", true⟩

def rotatedEvents : List LogEvent :=
  [.openSegment firstSegment,
    .write firstSegment (helloTree.journal firstSegment).length,
    .read ["execution"],
    .read ["attempt-000001"],
    .read [helloTree.fileName firstSegment .opened],
    .finish firstSegment,
    .close firstSegment,
    .close firstSegment,
    .read []]

theorem rotation_fails_query :
    ¬ ReadsSafely helloTree followAll fun _ _ => True := by
  intro safely
  have hpoint : (execute (logStep helloTree followAll) .initial
      rotatedEvents).map LogState.point =
        some (.done (.error .notFound)) := by
    decide +kernel
  obtain ⟨last, hlast, herror⟩ := Option.map_eq_some_iff.mp hpoint
  exact safely.never_fails last (execute_runs hlast) _ herror

end Susm.Controller
