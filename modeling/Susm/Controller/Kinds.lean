import Susm.Controller.Definitions
import Susm.Controller.Installation
import Susm.Controller.Removals

/-!
# Kinds of active workloads

A reload refuses to change the kind of an active workload, but it checks that
before it stores its definitions and before it installs them.  What is started
in between can run under another kind.
-/

namespace Susm.Controller

open Susm.Foundation
open Susm.Protocol

section Sections

variable {host : Host} {session : String} {now : Nat} {answer : Answer}
  {situation : Situation} {outcome : Outcome} {id : String}

theorem Section.starting {task : ManagerTask}
    (made : Section host session now answer situation task outcome)
    (starts : task.starts = some id) :
    ∃ kind exclusive enabledManagerSession next,
      outcome = startSection host session answer situation id kind exclusive
        enabledManagerSession next := by
  cases made with
  | startService | startJob | rerunIdle | replacementStart =>
      cases starts
      exact ⟨_, _, _, _, rfl⟩
  | givesUp made => cases made <;> cases starts
  | runCancelled waiting => rcases waiting with rfl | rfl | rfl <;> cases starts
  | _ => cases starts

theorem Command.starting {command : Command}
    (starts : command.starts = some id) :
    ∃ kind exclusive,
      command.perform host session answer situation =
        startSection host session answer situation id kind exclusive none
          [] := by
  cases command <;> cases starts <;> exact ⟨_, _, rfl⟩

theorem startSection_snapshot {kind : WorkloadKind} {exclusive : Bool}
    {enabledManagerSession : Option String} {next : List ManagerTask}
    {executionId : String} {row : StoredExecution}
    (absent : situation.database.executions.lookup executionId = none)
    (present : outcome.database.executions.lookup executionId = some row)
    (houtcome : outcome = startSection host session answer situation id kind
      exclusive enabledManagerSession next) :
    row.workloadId = id ∧ (situation.database.accepting id).isSome ∧
      ∃ kind definition,
        situation.state.accepting id = some (kind, some definition) ∧
        row.snapshot.kind = definition.kind := by
  subst houtcome
  unfold startSection at present
  dsimp only at present
  rcases start_cases host session answer situation.state situation.database id
    kind exclusive enabledManagerSession with
    ⟨-, -, hdatabase, -⟩ | ⟨record, accepted, time, creates⟩
  · rw [hdatabase] at present
    cases absent.symm.trans present
  rcases start_inserted host session answer situation.state situation.database
    id kind exclusive enabledManagerSession with
    hsame | ⟨execution, rfl, hinserted⟩
  · rw [hsame] at present
    cases absent.symm.trans present
  rw [creates.executions, Map.lookup_insert_eq] at present
  split at present
  · cases present
    refine ⟨rfl, ?_, record.kind, accepted, ?_, rfl⟩
    · rw [Database.accepting, Option.isSome_map]
      exact insertStarted_workload hinserted
    · simp [State.accepting, creates.found, creates.definition]
  · cases absent.symm.trans present

end Sections

/-- A definition says what kind of workload it is of. -/
def IsTyped (accepting : Accepting) : Prop :=
  ∀ definition ∈ accepting.2, definition.kind = accepting.1

namespace World

variable {host : Host} {world next first : World} {event : Event}
  {manager after : Manager} {id executionId : String} {kind : WorkloadKind}

theorem Moved.inserted_snapshot (moved : Moved host world event next)
    {row : StoredExecution}
    (absent : world.database.executions.lookup executionId = none)
    (present : next.database.executions.lookup executionId = some row) :
    (world.database.accepting row.workloadId).isSome ∧
      ∃ manager kind definition, world.controller = some manager ∧
        manager.state.accepting row.workloadId = some (kind, some definition) ∧
        row.snapshot.kind = definition.kind := by
  have kept : next.database.executions.lookup executionId ≠ none := by
    simp [present]
  cases moved with
  | elapsed | processExited | controllerExited | attach =>
      exact absurd absent kept
  | startup closed =>
      rcases @openManager_closes host _ _ world.database executionId with
        hsame | ⟨row, _, hrow, -⟩
      · exact absurd (hsame.trans absent) kept
      · cases absent.symm.trans hrow
  | @command command answer manager running serving =>
      obtain ⟨hstarts, -⟩ := Command.inserted command absent present
      obtain ⟨kind, exclusive, houtcome⟩ :=
        @Command.starting host manager.session answer
          (world.situation manager) _ command hstarts
      obtain ⟨-, hstored, kind, definition, hmemory, hkind⟩ :=
        startSection_snapshot absent present houtcome
      exact ⟨hstored, manager, kind, definition, running, hmemory, hkind⟩
  | @advance index answer manager task outcome running found made =>
      obtain ⟨hstarts, -⟩ := made.inserted absent present
      obtain ⟨kind, exclusive, enabledManagerSession, tasks, houtcome⟩ :=
        made.starting hstarts
      obtain ⟨-, hstored, kind, definition, hmemory, hkind⟩ :=
        startSection_snapshot absent present houtcome
      exact ⟨hstored, manager, kind, definition, running, hmemory, hkind⟩

/-! ## Definitions and kinds -/

/-- Every definition is of the kind of its workload. -/
structure Typed (world : World) : Prop where
  stored : ∀ id accepting, world.database.accepting id = some accepting →
    IsTyped accepting
  memory : ∀ manager, world.controller = some manager → ∀ id accepting,
    manager.state.accepting id = some accepting → IsTyped accepting
  reloads : ∀ manager, world.controller = some manager →
    ∀ task ∈ manager.tasks, ∀ item ∈ task.definitions,
      IsTyped item.2.accepting

theorem Candidate.typed {candidate : Candidate}
    {item : String × StoredWorkload} (hitem : item ∈ candidate.stored) :
    IsTyped item.2.accepting := by
  obtain ⟨definition, -, rfl⟩ := List.mem_map.mp hitem
  rintro other ⟨⟩
  rfl

theorem Typed.step (typed : Typed world)
    (moved : World.step host world event = some next) : Typed next := by
  have made := step_moved moved
  have stored : ∀ id accepting, next.database.accepting id = some accepting →
      IsTyped accepting := by
    intro id accepting h
    rcases step_stored moved h with
      ⟨before, hbefore, hkind, hsame | hnone⟩ | ⟨item, hitem, -, rfl⟩
    · have htyped := typed.stored id before hbefore
      unfold IsTyped at htyped ⊢
      rwa [hsame, ← hkind]
    · intro definition hdefinition
      rw [hnone] at hdefinition
      cases hdefinition
    · obtain ⟨manager, running, task, htask, hmem⟩ := commits_subset hitem
      exact typed.reloads manager running task htask item hmem
  refine ⟨stored, ?_, ?_⟩
  · intro after runs id accepting h
    cases running : world.controller with
    | some manager =>
        rcases made.memory running runs h with
          hbefore | ⟨task, htask, item, hitem, -, rfl⟩
        · exact typed.memory manager running id accepting hbefore
        · exact typed.reloads manager running task htask item hitem
    | none =>
        cases made with
        | elapsed | processExited => cases running.symm.trans runs
        | controllerExited => cases runs
        | startup closed =>
            obtain ⟨state, hstate, rfl⟩ := Option.map_eq_some_iff.mp runs
            refine typed.stored id accepting ?_
            exact (openManager_accepting hstate id).symm.trans h
        | command controller | attach controller | advance controller =>
            cases running.symm.trans controller
  · intro after runs task htask item hitem
    obtain ⟨manager, running, ⟨other, hother, hmem⟩ | hrow |
      ⟨-, candidate, hmem, -⟩⟩ := made.definitions runs htask hitem
    · exact typed.reloads manager running other hother item hmem
    · exact typed.stored item.1 item.2.accepting
        (by simp [Database.accepting, hrow])
    · exact Candidate.typed hmem

theorem Reachable.typed (reachable : Reachable host world) : Typed world := by
  refine Reachable.invariant ?_ Runs.refl reachable ?_
  · exact fun world event next _ typed _ moved => typed.step moved
  · constructor
    · intro id accepting h
      simp [Database.accepting, initial, Database.empty] at h
    · intro manager running
      cases running
    · intro manager running
      cases running

/-! ## Agreement on a kind -/

/-- Memory, tables and the reloads under way give one kind to a workload. -/
structure Agrees (database : Database) (manager : Manager) (id : String)
    (kind : WorkloadKind) : Prop where
  memory : (manager.state.accepting id).map Prod.fst = some kind
  stored : (database.accepting id).map Prod.fst = some kind
  reloads : ∀ task ∈ manager.tasks, ∀ item ∈ task.definitions, item.1 = id →
    item.2.kind = kind

/-- The kind of a workload stays what it is while reloads that go on have been
checked against it. -/
theorem Agrees.step (agrees : Agrees world.database manager id kind)
    (moved : World.step host world event = some next)
    (running : world.controller = some manager)
    (runs : next.controller = some after)
    (checked : world.starts event = none →
      ∀ definitions : List (String × StoredWorkload),
        manager.state.kindChangeActive definitions = none →
        ∀ item ∈ definitions, item.1 = id → item.2.kind = kind) :
    Agrees next.database after id kind := by
  have made := step_moved moved
  obtain ⟨remembered, hmemory, hremembered⟩ :=
    Option.map_eq_some_iff.mp agrees.memory
  obtain ⟨stored, hstored, hkind⟩ := Option.map_eq_some_iff.mp agrees.stored
  constructor
  · have hsome := made.memory_isSome running runs
      (Option.isSome_of_eq_some hmemory)
    obtain ⟨accepting, hafter⟩ := Option.isSome_iff_exists.mp hsome
    rw [hafter, Option.map_some, Option.some.injEq]
    rcases made.memory running runs hafter with
      hbefore | ⟨task, htask, item, hitem, hid, rfl⟩
    · cases hmemory.symm.trans hbefore
      exact hremembered
    · exact agrees.reloads task htask item hitem hid
  · have hsome := made.stored_isSome (Option.isSome_of_eq_some hstored)
    obtain ⟨accepting, hafter⟩ := Option.isSome_iff_exists.mp hsome
    rw [hafter, Option.map_some, Option.some.injEq]
    rcases step_stored moved hafter with
      ⟨before, hbefore, hsame, -⟩ | ⟨item, hitem, hid, rfl⟩
    · cases hstored.symm.trans hbefore
      exact hsame.symm.trans hkind
    · obtain ⟨other, hother, task, htask, hmem⟩ := commits_subset hitem
      cases running.symm.trans hother
      exact agrees.reloads task htask item hmem hid
  · intro task htask item hitem hid
    obtain ⟨other, hother, ⟨before, hbefore, hmem⟩ | hrow |
      ⟨unstarted, candidate, hmem, passed⟩⟩ := made.definitions runs htask hitem
    · cases running.symm.trans hother
      exact agrees.reloads before hbefore item hmem hid
    · have hsame : world.database.accepting id = some item.2.accepting := by
        rw [← hid, Database.accepting, hrow]
        rfl
      cases hstored.symm.trans hsame
      exact hkind
    · cases running.symm.trans hother
      exact checked unstarted candidate.stored passed item hmem hid

/-! ## Runs that keep the kinds -/

def given (world : World) (id : String) : List WorkloadKind :=
  let reloads := (world.controller.map fun manager =>
    manager.tasks.flatMap ManagerTask.definitions).getD []
  ((reloads ++ world.database.loadWorkloads).filter fun item =>
    item.1 = id).map fun item => item.2.kind

def remembered (world : World) (id : String) : Option WorkloadKind :=
  world.controller.bind fun manager =>
    (manager.state.accepting id).map Prod.fst

/-- What is started has the same kind everywhere. -/
def StartsAgreed (world : World) (event : Event) : Prop :=
  ∀ id ∈ world.starts event, ∀ kind ∈ world.given id,
    world.remembered id = some kind

/-- An unfinished execution without an entry keeps the kind of its workload. -/
def CommitsAgreed (world : World) (event : Event) : Prop :=
  ∀ entry ∈ world.database.loadActiveExecutions,
    world.occupied entry.1 = false →
    ∀ item ∈ world.commits event, item.1 = entry.2.workloadId →
      item.2.kind = entry.2.snapshot.kind

/-- No execution that has ended becomes unfinished again. -/
def EndsKept (host : Host) (world : World) (event : Event) : Prop :=
  ∀ id ∈ world.rewrites host event,
    ∀ row ∈ world.database.executions.lookup id, row.endedUnixMs ≠ 0 →
      world.ending event ≠ some 0

def KeepsKinds (host : Host) (world : World) (event : Event) : Prop :=
  StartsAgreed world event ∧ CommitsAgreed world event ∧
    EndsKept host world event

instance : Decidable (KeepsKinds host world event) :=
  inferInstanceAs (Decidable ((∀ id ∈ world.starts event, _) ∧
    (∀ entry ∈ world.database.loadActiveExecutions, _ → ∀ item ∈ _, _ → _) ∧
    ∀ id ∈ world.rewrites host event, ∀ row ∈ _, _ → _))

theorem Moved.snapshot (moved : Moved host world event next)
    (all : AllTasks ManagerTask.HasOutcome world) {before row : StoredExecution}
    (found : world.database.executions.lookup executionId = some before)
    (present : next.database.executions.lookup executionId = some row) :
    SameExecution before row := by
  rcases moved.rows all executionId with
    hspared | ⟨-, other, rewritten, hother, hrewritten, rewrites⟩ |
    ⟨other, closed, hother, -, hclosed, same, -⟩
  · rw [found, present] at hspared
    cases hspared with
    | kept | acknowledged => exact ⟨rfl, rfl, rfl⟩
  · cases found.symm.trans hother
    cases present.symm.trans hrewritten
    exact rewrites.same
  · cases found.symm.trans hother
    cases present.symm.trans hclosed
    exact same

/-- A row that is unfinished after a step that keeps the ends was so before, or
is new. -/
theorem Moved.still_unfinished (moved : Moved host world event next)
    (all : AllTasks ManagerTask.HasOutcome world)
    (ends : EndsKept host world event) {row : StoredExecution}
    (found : next.database.executions.lookup executionId = some row)
    (unfinished : row.endedUnixMs = 0) :
    world.database.executions.lookup executionId = none ∨
      ∃ before, world.database.executions.lookup executionId = some before ∧
        before.endedUnixMs = 0 := by
  cases hbefore : world.database.executions.lookup executionId with
  | none => exact .inl rfl
  | some before =>
      refine .inr ⟨before, rfl, ?_⟩
      rcases moved.rows all executionId with
        hspared | ⟨htarget, other, rewritten, hother, hrewritten, rewrites⟩ |
        ⟨other, closed, hother, hopen, -⟩
      · rw [hbefore, found] at hspared
        cases hspared with
        | kept | acknowledged => exact unfinished
      · cases hbefore.symm.trans hother
        cases found.symm.trans hrewritten
        cases rewrites with
        | launched same state endedUnixMs => rwa [← endedUnixMs]
        | progressed same state endedUnixMs => rwa [← endedUnixMs]
        | ended same state endedUnixMs =>
            by_contra hended
            exact ends executionId htarget before hbefore hended
              (unfinished ▸ endedUnixMs)
      · cases hbefore.symm.trans hother
        exact hopen

theorem inserted_agrees (typed : Typed world)
    (moved : Moved host world event next) (agreed : StartsAgreed world event)
    {row : StoredExecution}
    (absent : world.database.executions.lookup executionId = none)
    (present : next.database.executions.lookup executionId = some row) :
    ∃ manager, world.controller = some manager ∧
      Agrees world.database manager row.workloadId row.snapshot.kind := by
  obtain ⟨hstored, manager, kind, definition, running, hmemory, hsnapshot⟩ :=
    moved.inserted_snapshot absent present
  obtain ⟨starts, -⟩ := moved.inserted absent present
  have hkind : row.snapshot.kind = kind :=
    hsnapshot.trans (typed.memory manager running _ _ hmemory definition rfl)
  have same : ∀ other ∈ world.given row.workloadId, other = kind := by
    intro other hother
    have hremembered := agreed row.workloadId starts other hother
    simpa [remembered, running, hmemory, eq_comm] using hremembered
  refine ⟨manager, running, ?_, ?_, ?_⟩
  · rw [hmemory, hkind]
    rfl
  · rw [Database.accepting, Option.isSome_map] at hstored
    obtain ⟨stored, hlookup⟩ := Option.isSome_iff_exists.mp hstored
    have hgiven : stored.kind ∈ world.given row.workloadId :=
      List.mem_map.mpr ⟨(row.workloadId, stored), List.mem_filter.mpr
        ⟨List.mem_append_right _ (Map.mem_toList.mpr hlookup),
          decide_eq_true rfl⟩, rfl⟩
    rw [Database.accepting, hlookup, hkind]
    exact congrArg some (same _ hgiven)
  · intro task htask item hitem hid
    have hgiven : item.2.kind ∈ world.given row.workloadId := by
      refine List.mem_map.mpr ⟨item, List.mem_filter.mpr
        ⟨List.mem_append_left _ ?_, decide_eq_true hid⟩, rfl⟩
      simp only [running, Option.map_some, Option.getD_some]
      exact List.mem_flatMap.mpr ⟨task, htask, hitem⟩
    exact (same _ hgiven).trans hkind.symm

structure KindsHold (world : World) : Prop where
  active : ∀ manager, world.controller = some manager →
    ∀ id executionId row, manager.state.activeId id = some executionId →
      world.database.executions.lookup executionId = some row →
      Agrees world.database manager id row.snapshot.kind
  unfinished : ∀ executionId row,
    world.database.executions.lookup executionId = some row →
    row.endedUnixMs = 0 →
      (world.database.accepting row.workloadId).map Prod.fst =
        some row.snapshot.kind

theorem KindsHold.active_step (reachable : Reachable host world)
    (held : KindsHold world) (agreed : StartsAgreed world event)
    (moved : World.step host world event = some next) {row : StoredExecution}
    (runs : next.controller = some after)
    (active : after.state.activeId id = some executionId)
    (present : next.database.executions.lookup executionId = some row) :
    Agrees next.database after id row.snapshot.kind := by
  have made := step_moved moved
  have all := reachable.hasOutcome
  cases running : world.controller with
  | some manager =>
      rcases made.activeId_before running runs active with hbefore | habsent
      · obtain ⟨before, hrow, -⟩ :=
          (reachable.recorded manager running).entries id executionId hbefore
        have agrees := held.active manager running id executionId before
          hbefore hrow
        rw [(made.snapshot all hrow present).snapshot]
        refine agrees.step moved running runs ?_
        intro _ definitions passed item hitem hid
        obtain ⟨accepting, hmemory, hkind⟩ :=
          Option.map_eq_some_iff.mp agrees.memory
        exact (kindChangeActive_none passed hbefore hmemory hitem hid).trans
          hkind
      · obtain ⟨starts, other, hother, hplace⟩ := made.inserted habsent present
        cases runs.symm.trans hother
        have hid : row.workloadId = id :=
          activeId_unique (reachable.tail trivial moved) runs hplace active
        obtain ⟨before, hbefore, agrees⟩ :=
          inserted_agrees reachable.typed made agreed habsent present
        rw [← hid]
        refine agrees.step moved hbefore runs ?_
        intro unstarted
        cases starts.symm.trans unstarted
  | none =>
      cases made with
      | elapsed | processExited => cases running.symm.trans runs
      | controllerExited => cases runs
      | command controller | attach controller | advance controller =>
          cases running.symm.trans controller
      | @startup session answers closed =>
          have again := step_moved moved
          obtain ⟨state, hstate, rfl⟩ := Option.map_eq_some_iff.mp runs
          obtain ⟨entry, hentry, rfl⟩ := State.activeId_eq_some.mp active
          obtain ⟨other, before, hrow, hended, hid, -, rfl⟩ :=
            openManager_entry hstate hentry
          have hstored := held.unfinished other before hrow hended
          rw [hid] at hstored
          rw [(again.snapshot all hrow present).snapshot]
          refine ⟨?_, ?_, ?_⟩
          · rw [openManager_accepting hstate]
            exact hstored
          · rw [Database.accepting_eq] at hstored ⊢
            rw [opened, openManager_standing]
            exact hstored
          · intro task htask item hitem
            cases List.mem_singleton.mp htask
            cases hitem

theorem KindsHold.unfinished_step (reachable : Reachable host world)
    (held : KindsHold world) (keeps : KeepsKinds host world event)
    (moved : World.step host world event = some next) {row : StoredExecution}
    (present : next.database.executions.lookup executionId = some row)
    (unfinished : row.endedUnixMs = 0) :
    (next.database.accepting row.workloadId).map Prod.fst =
      some row.snapshot.kind := by
  obtain ⟨agreed, commits, ends⟩ := keeps
  have made := step_moved moved
  have all := reachable.hasOutcome
  rcases made.still_unfinished all ends present unfinished with
    habsent | ⟨before, hbefore, hopen⟩
  · obtain ⟨starts, after, runs, -⟩ := made.inserted habsent present
    obtain ⟨manager, running, agrees⟩ :=
      inserted_agrees reachable.typed made agreed habsent present
    refine (agrees.step moved running runs ?_).stored
    intro unstarted
    cases starts.symm.trans unstarted
  have same := made.snapshot all hbefore present
  have hstored := held.unfinished executionId before hbefore hopen
  rw [same.workloadId, same.snapshot]
  obtain ⟨stored, hlookup, hkind⟩ := Option.map_eq_some_iff.mp hstored
  obtain ⟨accepting, hafter⟩ := Option.isSome_iff_exists.mp
    (made.stored_isSome (Option.isSome_of_eq_some hlookup))
  rw [hafter, Option.map_some, Option.some.injEq]
  rcases step_stored moved hafter with
    ⟨other, hother, hsame, -⟩ | ⟨item, hitem, hid, rfl⟩
  · cases hlookup.symm.trans hother
    exact hsame.symm.trans hkind
  cases hoccupied : world.occupied executionId with
  | false =>
      exact commits (executionId, before)
        (Database.mem_loadActiveExecutions.mpr ⟨hbefore, hopen⟩) hoccupied item
        hitem hid
  | true =>
      obtain ⟨manager, place, running, hactive⟩ := occupied_iff.mp hoccupied
      have hplace : place = before.workloadId :=
        HasRow.unique ((reachable.recorded manager running).entries place
          executionId hactive) ⟨before, hbefore, rfl⟩
      obtain ⟨other, hother, task, htask, hmem⟩ := commits_subset hitem
      cases running.symm.trans hother
      exact (held.active manager running place executionId before hactive
        hbefore).reloads task htask item hmem (hid.trans hplace.symm)

theorem KindsHold.run
    (run : Runs (World.step host) (KeepsKinds host) initial world) :
    KindsHold world := by
  refine Reachable.invariant ?_ Runs.refl run ?_
  · intro world event next reachable held keeps moved
    constructor
    · intro after runs id executionId row active present
      exact held.active_step reachable keeps.1 moved runs active present
    · intro executionId row present unfinished
      exact held.unfinished_step reachable keeps moved present unfinished
  · constructor
    · intro manager running
      cases running
    · intro executionId row present
      simp [initial, Database.empty] at present

def KindsAgree (world : World) : Prop :=
  ∀ manager, world.controller = some manager →
    ∀ id active, manager.state.active.lookup id = some active →
      ∃ record row, manager.state.workloads.lookup id = some record ∧
        world.database.executions.lookup active.executionId = some row ∧
        record.kind = row.snapshot.kind

/--
In runs that start nothing while a reload is about to change its kind, commit
no other kind over an unfinished execution without an entry, and let what has
ended stay so, every active execution has the kind of its workload.
-/
theorem active_kind_kept
    (run : Runs (World.step host) (KeepsKinds host) initial world) :
    KindsAgree world := by
  have reachable : Reachable host world := run.mono fun _ _ _ => trivial
  have held := KindsHold.run run
  intro manager running id active hactive
  have hid : manager.state.activeId id = some active.executionId :=
    State.activeId_eq_some.mpr ⟨active, hactive, rfl⟩
  obtain ⟨row, hrow, -⟩ :=
    (reachable.recorded manager running).entries id _ hid
  have agrees := held.active manager running id _ row hid hrow
  obtain ⟨accepting, hmemory, hkind⟩ := Option.map_eq_some_iff.mp agrees.memory
  obtain ⟨record, hrecord, rfl⟩ := Option.map_eq_some_iff.mp hmemory
  exact ⟨record, row, hrecord, hrow, hkind⟩

def changedDefinition : ExecutionConfiguration :=
  setExecutionHash installation { toolDefinition with kind := .job }

def reloadedEvents : List Event :=
  startupEvents [toolDefinition] ++
    [.command .reload (loadCandidate [changedDefinition])] ++
    List.replicate 3 (.advance 0 calm) ++
    [.command (.runJob "tool") { calm with uuid := "e1" }]

theorem active_kind_kept_reloaded :
    KindsAgree (worldAfter World.initial reloadedEvents) ∧
      (worldAfter World.initial reloadedEvents).remembered "tool" =
        some .job :=
  ⟨active_kind_kept (runs_worldAfter (by decide +kernel)), by decide +kernel⟩

def changedWorld : World :=
  worldAfter servingWorld
    [.command .reload (loadCandidate [changedDefinition]),
      .command (.startService "tool") { calm with uuid := "e1" },
      .advance 0 calm, .advance 1 calm, .advance 1 calm]

theorem active_kind_changed :
    ¬ ∀ (host : Host) (world : World), Reachable host world →
      KindsAgree world := by
  intro h
  have reachable : Reachable installation changedWorld :=
    servingWorld_reachable.trans (runs_worldAfter (by decide +kernel))
  obtain ⟨hactive, hremembered, hsnapshot⟩ :
      changedWorld.controller.bind (fun manager =>
          (manager.state.active.lookup "tool").map
            ActiveExecution.executionId) = some "e1" ∧
        changedWorld.remembered "tool" = some .job ∧
        (changedWorld.database.executions.lookup "e1").map
          (fun row => row.snapshot.kind) = some .service := by
    decide +kernel
  obtain ⟨manager, running, hplace⟩ := Option.bind_eq_some_iff.mp hactive
  obtain ⟨active, hentry, hid⟩ := Option.map_eq_some_iff.mp hplace
  obtain ⟨record, row, hrecord, hrow, hsame⟩ :=
    h installation changedWorld reachable manager running "tool" active hentry
  rw [hid] at hrow
  simp only [remembered, running, Option.bind_some, State.accepting, hrecord,
    Option.map_some, Option.some.injEq] at hremembered
  rw [hrow, Option.map_some, Option.some.injEq, ← hsame, hremembered]
    at hsnapshot
  cases hsnapshot

end World

end Susm.Controller
