import Susm.Controller.FinishedRows
import Susm.Controller.Successors

/-!
# Executions and their rows

Every execution that the controller knows, as an active entry or in one of its
tasks, has a row of its workload.  Rows are never deleted, and only a start
inserts one.
-/

namespace Susm.Controller

open Susm.Foundation
open Susm.Protocol

def HasRow (database : Database) (executionId workloadId : String) : Prop :=
  ∃ row, database.executions.lookup executionId = some row ∧
    row.workloadId = workloadId

theorem HasRow.unique {database : Database} {executionId first second : String}
    (one : HasRow database executionId first)
    (two : HasRow database executionId second) : first = second := by
  obtain ⟨row, hrow, rfl⟩ := one
  obtain ⟨other, hother, rfl⟩ := two
  cases hrow.symm.trans hother
  rfl

def ManagerTask.execution : ManagerTask → Option (String × String)
  | .monitorPoll executionId stored _ _
  | .monitorTick executionId stored _ _
  | .terminalRemove executionId stored _
  | .terminalFinish executionId stored _ _ _
  | .recordCheck _ executionId stored _
  | .recordCommit _ executionId stored _ _
  | .recordTerminal _ executionId stored _
  | .recordProgress _ executionId stored _ =>
      some (executionId, stored.workloadId)
  | .attachSupervisor hello stored =>
      some (hello.executionId, stored.workloadId)
  | .runPrepare run | .runLoop run | .runSpawned run _ | .runLaunching run _
  | .runWaiting run _ | .runStopping run _ | .runExited run _
  | .runBackoff run | .completeLoad run _ | .completeFinish run _ _
  | .completeRemove run _ => some (run.executionId, run.workloadId)
  | _ => none

/-! ## Insertions -/

theorem lookup_modify_none {rows : Map String StoredExecution}
    {executionId id : String} {change : StoredExecution → StoredExecution}
    (absent : rows.lookup executionId = none) :
    (rows.modify id change).lookup executionId = none := by
  rw [Map.lookup_modify, absent]
  simp

theorem commitObservation_none {database after : Database}
    {executionId id : String} {sequence : Nat} {update : ObservationUpdate}
    {committed : Bool}
    (absent : database.executions.lookup executionId = none)
    (h : database.commitObservation id sequence update =
      .ok (committed, after)) :
    after.executions.lookup executionId = none := by
  obtain ⟨row, hrow, ⟨-, rfl, -⟩ | ⟨-, -, rfl⟩⟩ :=
    Database.commitObservation_ok h
  · exact absent
  · rw [Map.lookup_insert_eq]
    split
    · subst executionId
      cases absent.symm.trans hrow
    · exact absent

section Sections

variable {host : Host} {session : String} {now : Nat} {answer : Answer}
  {situation : Situation} {outcome : Outcome}

theorem Section.inserted {task : ManagerTask}
    (made : Section host session now answer situation task outcome)
    {executionId : String} {row : StoredExecution}
    (absent : situation.database.executions.lookup executionId = none)
    (present : outcome.database.executions.lookup executionId = some row) :
    task.starts = some row.workloadId ∧
      situation.state.startable row.workloadId = true ∧
      outcome.state.activeId row.workloadId = some executionId := by
  have kept : outcome.database.executions.lookup executionId ≠ none := by
    simp [present]
  cases made with
  | startService | startJob | rerunIdle | replacementStart =>
      obtain ⟨rfl, -, hidle, hactive⟩ := startSection_inserted absent present rfl
      exact ⟨rfl, hidle, hactive⟩
  | replaceDefinitions =>
      refine absurd ?_ kept
      simp only [Situation.leave, Situation.withDatabase,
        Database.replaceDefinitions]
      split <;> exact absent
  | terminalFinished | completeFinished =>
      exact absurd (lookup_modify_none absent) kept
  | attachedLocally | runStored =>
      exact absurd (lookup_modify_none absent) kept
  | recordRepeated committed =>
      exact absurd (commitObservation_none absent committed) kept
  | recordEnded committed =>
      exact absurd (commitObservation_none absent committed) kept
  | recordAdvanced committed =>
      exact absurd (commitObservation_none absent committed) kept
  | _ => exact absurd absent kept

theorem Command.inserted (command : Command) {executionId : String}
    {row : StoredExecution}
    (absent : situation.database.executions.lookup executionId = none)
    (present : (command.perform host session answer
      situation).database.executions.lookup executionId = some row) :
    command.starts = some row.workloadId ∧
      situation.state.startable row.workloadId = true ∧
      (command.perform host session answer situation).state.activeId
        row.workloadId = some executionId := by
  cases command with
  | startService id | runJob id =>
      obtain ⟨rfl, -, hidle, hactive⟩ := startSection_inserted absent present rfl
      exact ⟨rfl, hidle, hactive⟩
  | setEnabled id enabled =>
      simp only [Command.perform] at present
      split at present <;> cases absent.symm.trans present
  | _ => cases absent.symm.trans present

theorem Occupies.hasRow {answer : Answer} {situation : Situation}
    {outcome : Outcome} {id executionId : String}
    (occupies : Occupies answer situation outcome id)
    (active : outcome.state.activeId id = some executionId) :
    HasRow outcome.database executionId id := by
  obtain ⟨row, hrow, hworkload⟩ := occupies.inserted
  rw [State.activeId_eq, occupies.occupant] at active
  cases active
  exact ⟨row, hrow, hworkload⟩

theorem PlaceAfter.entry {task : ManagerTask} {answer : Answer}
    {situation : Situation} {outcome : Outcome} {id executionId : String}
    (place : PlaceAfter task answer situation outcome id)
    (active : outcome.state.activeId id = some executionId) :
    situation.state.activeId id = some executionId ∨
      (task.starts = some id ∧ Occupies answer situation outcome id) := by
  cases place with
  | kept same => exact .inl ((State.activeId_congr same).symm.trans active)
  | vacated removes before empty =>
      rw [State.activeId_eq, empty] at active
      cases active
  | occupied starts occupies => exact .inr ⟨starts, occupies⟩
  | raised rerun before after =>
      rw [State.activeId_eq, after] at active
      rw [State.activeId_eq, before]
      exact .inl active

theorem Caller.execution_tasks {caller : Caller} {task : ManagerTask}
    (htask : task ∈ caller.tasks) : task.execution = none := by
  cases caller with
  | client => cases htask
  | startup | stream =>
      cases List.mem_singleton.mp htask
      rfl

theorem supervisorFailed_execution (run : RunExecution)
    (unavailable : ExecutionFinish) :
    (supervisorFailed run unavailable).execution =
      some (run.executionId, run.workloadId) := by
  unfold supervisorFailed
  dsimp only
  split <;> rfl

/-- The executions of new tasks are those of the task before, of a row that was
read, or of a row that was inserted. -/
theorem Section.executions {task : ManagerTask}
    (made : Section host session now answer situation task outcome)
    (entries : ∀ id executionId,
      situation.state.activeId id = some executionId →
      HasRow situation.database executionId id)
    {other : ManagerTask} (hother : other ∈ outcome.tasks)
    {executionId workloadId : String}
    (about : other.execution = some (executionId, workloadId)) :
    task.execution = some (executionId, workloadId) ∨
      HasRow situation.database executionId workloadId ∨
      HasRow outcome.database executionId workloadId := by
  cases made.succeeds hother with
  | returned calls returns =>
      cases (Caller.execution_tasks returns).symm.trans about
  | started starts occupies =>
      cases about
      exact .inr (.inr occupies.inserted)
  | monitorLoaded found | terminalLoaded found | streamObserved found =>
      cases about
      exact .inr (.inl ⟨_, found, rfl⟩)
  | monitorReplaces active =>
      cases about
      exact .inr (.inl (entries _ _ active))
  | streamEnds | recorded => cases about
  | runFinished runs =>
      rcases runs with rfl | rfl | rfl | ⟨cancelled, rfl⟩ <;> exact .inl about
  | runFailed runs =>
      rw [supervisorFailed_execution] at about
      rcases runs with rfl | rfl <;> exact .inl about
  | _ =>
      first
        | exact .inl about
        | cases about

theorem Command.activeId (command : Command) (id : String) :
    let outcome := command.perform host session answer situation
    outcome.state.activeId id = situation.state.activeId id ∨
      (command.starts = some id ∧ Occupies answer situation outcome id) := by
  intro outcome
  cases command with
  | startService workloadId | runJob workloadId =>
      rcases startSection_occupant host session answer situation workloadId id
        _ _ _ _ with hsame | ⟨rfl, occupies⟩
      · exact .inl (State.activeId_congr hsame)
      · exact .inr ⟨rfl, occupies⟩
  | stopService | cancelJob | restartService => exact .inl State.activeId_cancel
  | setEnabled workloadId enabled =>
      refine .inl ?_
      simp only [outcome, Command.perform]
      split <;> rfl
  | endSession => exact .inl State.activeId_endSession
  | _ => exact .inl rfl

theorem Command.execution (command : Command) {task : ManagerTask}
    (htask : task ∈ (command.perform host session answer situation).tasks)
    {executionId workloadId : String}
    (about : task.execution = some (executionId, workloadId)) :
    HasRow (command.perform host session answer situation).database executionId
      workloadId := by
  cases Command.leaves htask with
  | started starts occupies =>
      cases about
      exact occupies.inserted
  | _ => cases about

end Sections

namespace World

variable {host : Host} {world next : World} {event : Event}

def starts (world : World) (event : Event) : Option String :=
  let attempt :=
    match event, world.advancedTask event with
    | .command command _, _ => command.starts
    | _, some task => task.starts
    | _, none => none
  attempt.filter fun id =>
    world.controller.any fun manager => manager.state.startable id

def removes (world : World) (event : Event) : Option (String × String) :=
  (world.advancedTask event).bind ManagerTask.removes

theorem starts_command {manager : Manager} {command : Command} {answer : Answer}
    {id : String} (running : world.controller = some manager)
    (starts : command.starts = some id)
    (startable : manager.state.startable id = true) :
    world.starts (.command command answer) = some id := by
  simp [World.starts, running, starts, startable]

theorem starts_advance {manager : Manager} {index : Nat} {answer : Answer}
    {task : ManagerTask} {id : String}
    (running : world.controller = some manager)
    (found : manager.tasks[index]? = some task)
    (starts : task.starts = some id)
    (startable : manager.state.startable id = true) :
    world.starts (.advance index answer) = some id := by
  simp [World.starts, advancedTask, running, found, starts, startable]

/-! ## Rows stay -/

theorem Moved.hasRow (moved : Moved host world event next)
    (all : AllTasks ManagerTask.HasOutcome world)
    {executionId workloadId : String}
    (held : HasRow world.database executionId workloadId) :
    HasRow next.database executionId workloadId := by
  obtain ⟨row, hrow, hworkload⟩ := held
  rcases moved.rows all executionId with
    hspared | ⟨-, other, rewritten, hother, hrewritten, rewrites⟩ |
    ⟨other, closed, hother, -, hclosed, same, -⟩
  · rw [hrow] at hspared
    generalize hafter : next.database.executions.lookup executionId = after
      at hspared
    cases hspared with
    | kept => exact ⟨row, hafter, hworkload⟩
    | acknowledged _ sequence => exact ⟨_, hafter, hworkload⟩
  · cases hrow.symm.trans hother
    exact ⟨rewritten, hrewritten, rewrites.same.workloadId.trans hworkload⟩
  · cases hrow.symm.trans hother
    exact ⟨closed, hclosed, same.workloadId.trans hworkload⟩

theorem Moved.inserted (moved : Moved host world event next)
    {executionId : String} {row : StoredExecution}
    (absent : world.database.executions.lookup executionId = none)
    (present : next.database.executions.lookup executionId = some row) :
    world.starts event = some row.workloadId ∧
      ∃ manager, next.controller = some manager ∧
        manager.state.activeId row.workloadId = some executionId := by
  have kept : next.database.executions.lookup executionId ≠ none := by
    simp [present]
  cases moved with
  | elapsed | processExited | controllerExited | attach =>
      exact absurd absent kept
  | startup closed =>
      rcases @openManager_closes host _ _ world.database executionId with
        hsame | ⟨row, _, hrow, -⟩
      · exact absurd (hsame.trans absent) kept
      · cases absent.symm.trans hrow
  | command running serving =>
      obtain ⟨hstarts, hstartable, hactive⟩ := Command.inserted _ absent present
      exact ⟨starts_command running hstarts hstartable, _, rfl, hactive⟩
  | advance running found made =>
      obtain ⟨hstarts, hstartable, hactive⟩ := made.inserted absent present
      exact ⟨starts_advance running found hstarts hstartable, _, rfl, hactive⟩

/-- What a step of a controller that goes on does to a place. -/
inductive PlaceMoved (world : World) (event : Event) (before after : State)
    (id : String) : Prop where
  | kept (same : after.activeId id = before.activeId id)
  | vacated {executionId : String}
      (removes : world.removes event = some (id, executionId))
      (active : before.activeId id = some executionId)
      (empty : after.activeId id = none)
  | occupied (starts : world.starts event = some id)
      (idle : before.activeId id = none)

theorem placeMoved_advance {manager : Manager} {index : Nat} {answer : Answer}
    {task : ManagerTask} {outcome : Outcome} {id : String}
    (running : world.controller = some manager)
    (found : manager.tasks[index]? = some task)
    (place : PlaceAfter task answer (world.situation manager) outcome id) :
    PlaceMoved world (.advance index answer) manager.state outcome.state
      id := by
  cases place with
  | kept same => exact .kept (State.activeId_congr same)
  | vacated removes active empty =>
      refine .vacated ?_ active ?_
      · simp [World.removes, advancedTask, running, found, removes]
      · rw [State.activeId_eq, empty]
        rfl
  | occupied starts occupies =>
      exact .occupied (starts_advance running found starts occupies.startable)
        (State.startable_idle occupies.startable)
  | raised rerun before after =>
      refine .kept ?_
      have hbefore : manager.state.occupant id = _ := before
      rw [State.activeId_eq, after, State.activeId_eq, hbefore]
      rfl

theorem Moved.place (moved : Moved host world event next) {manager : Manager}
    (running : world.controller = some manager) {after : Manager}
    (runs : next.controller = some after) (id : String) :
    PlaceMoved world event manager.state after.state id := by
  cases moved with
  | elapsed | processExited =>
      cases running.symm.trans runs
      exact .kept rfl
  | controllerExited => cases runs
  | startup closed => cases closed.symm.trans running
  | command controller serving =>
      cases running.symm.trans controller
      cases runs
      rcases Command.activeId _ id with hsame | ⟨hstarts, occupies⟩
      · exact .kept hsame
      · exact .occupied (starts_command running hstarts occupies.startable)
          (State.startable_idle occupies.startable)
  | attach controller serving =>
      cases running.symm.trans controller
      cases runs
      exact .kept rfl
  | advance controller found made =>
      cases running.symm.trans controller
      cases runs
      exact placeMoved_advance running found (made.occupant id)

/-! ## Bookkeeping -/

/-- Entries and tasks are about executions that have rows. -/
structure Recorded (database : Database) (manager : Manager) : Prop where
  entries : ∀ id executionId, manager.state.activeId id = some executionId →
    HasRow database executionId id
  tasks : ∀ task ∈ manager.tasks, ∀ executionId workloadId,
    task.execution = some (executionId, workloadId) →
    HasRow database executionId workloadId

def AllRecorded (world : World) : Prop :=
  ∀ manager, world.controller = some manager →
    Recorded world.database manager

theorem attachTasks_execution {database : Database} {hello : Hello}
    {stored : Bool} {task : ManagerTask}
    (htask : task ∈ attachTasks database hello stored)
    {executionId workloadId : String}
    (about : task.execution = some (executionId, workloadId)) :
    HasRow database executionId workloadId := by
  obtain ⟨row, hrow, rfl⟩ := mem_attachTasks htask
  cases about
  exact ⟨row, hrow, rfl⟩

theorem Recorded.step (all : AllTasks ManagerTask.HasOutcome world)
    (held : AllRecorded world) (moved : Moved host world event next)
    {after : Manager}
    (running : next.controller = some after) :
    Recorded next.database after := by
  have stays : ∀ {executionId workloadId : String},
      HasRow world.database executionId workloadId →
      HasRow next.database executionId workloadId := moved.hasRow all
  cases moved with
  | elapsed | processExited => exact held after running
  | controllerExited => cases running
  | startup closed =>
      obtain ⟨state, hstate, rfl⟩ := Option.map_eq_some_iff.mp running
      constructor
      · intro id executionId hactive
        obtain ⟨active, hfound, rfl⟩ := State.activeId_eq_some.mp hactive
        obtain ⟨other, row, hrow, -, hworkload, -, rfl⟩ :=
          openManager_entry hstate hfound
        exact stays ⟨row, hrow, hworkload⟩
      · intro task htask executionId workloadId about
        cases List.mem_singleton.mp htask
        cases about
  | command controller serving =>
      rename_i command answer manager
      have before := held manager controller
      cases running
      constructor
      · intro id executionId hactive
        rcases Command.activeId command id with hsame | ⟨-, occupies⟩
        · exact stays (before.entries id executionId (hsame.symm.trans hactive))
        · exact occupies.hasRow hactive
      · intro task htask executionId workloadId about
        rcases List.mem_append.mp htask with htask | htask
        · exact stays (before.tasks task htask executionId workloadId about)
        · exact Command.execution command htask about
  | attach controller serving =>
      have before := held _ controller
      cases running
      refine ⟨before.entries, ?_⟩
      intro task htask executionId workloadId about
      rcases List.mem_append.mp htask with htask | htask
      · exact before.tasks task htask executionId workloadId about
      · exact attachTasks_execution htask about
  | advance controller found made =>
      have before := held _ controller
      cases running
      constructor
      · intro id executionId hactive
        rcases (made.occupant id).entry hactive with hactive | ⟨-, occupies⟩
        · exact stays (before.entries id executionId hactive)
        · exact occupies.hasRow hactive
      · intro task htask executionId workloadId about
        rcases List.mem_append.mp htask with htask | htask
        · exact stays (before.tasks task (List.mem_of_mem_eraseIdx htask)
            executionId workloadId about)
        · rcases made.executions before.entries htask about with
            hsame | hrow | hrow
          · exact stays (before.tasks _ (List.mem_of_getElem? found)
              executionId workloadId hsame)
          · exact stays hrow
          · exact hrow

theorem Reachable.recorded (reachable : Reachable host world) :
    AllRecorded world := by
  refine Reachable.invariant ?_ Runs.refl reachable ?_
  · intro world event next hreachable held _ moved after running
    exact Recorded.step hreachable.hasOutcome held (step_moved moved) running
  · intro manager running
    cases running

end World

end Susm.Controller
