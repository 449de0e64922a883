import Susm.Controller.Manager
import Susm.Foundation.Transition

/-!
# The controller and its surroundings

The database and the supervisor processes outlive the controller, which may end
at any point and be started again.  While one runs, its tasks, the commands of
its clients and the attachments of supervisors interleave section by section.
-/

namespace Susm.Controller

open Susm.Foundation
open Susm.Protocol

/-! ## Opening -/

def openedWorkload (row : StoredWorkload) : WorkloadRecord where
  kind := row.kind
  definition := row.definition
  enabled := row.enabled
  lastOutcome := row.lastOutcome

/-- The entry of an unfinished execution of the session. -/
def openedExecution (host : Host) (id : String) (row : StoredExecution) :
    ActiveExecution where
  executionId := id
  supervisorProcessId := row.supervisorProcessId
  workloadProcessId := row.workloadProcessId
  attempt := row.attempt
  error := row.error
  state := if row.state = .stopping then .stopping else .recovering
  locallyOwned := false
  restartAfter := false
  processDefinitionHash := row.snapshot.processDefinitionHash
  policyHash := (policyUpdate host row.snapshot).policyHash
  restartRequired := false
  policySyncPending := false
  attachmentId := none

def staleRow (row : StoredExecution) (ended : Int) : StoredExecution :=
  { row with
    state :=
      match row.snapshot.kind with
      | .job => .outcomeUnknown
      | .service => .stopped
    supervisorProcessId := 0
    workloadProcessId := 0
    endedUnixMs := ended
    exitCode := none
    error := "execution belonged to an ended manager session" }

/-- The maps of the state that `Manager::open` builds. -/
structure Opening where
  workloads : Map String WorkloadRecord
  active : Map String ActiveExecution

/--
The loop of `Manager::open` over the unfinished executions, with one answer for
each row that is closed; nothing is opened when closing one fails.
-/
def openExecutions (host : Host) (session : String) :
    List (String × StoredExecution) → List Answer → Database → Opening →
      Database × Option Opening
  | [], _, database, opening => (database, some opening)
  | (id, row) :: rows, answers, database, opening =>
      if row.snapshot.managerSessionId = session then
        openExecutions host session rows answers database
          { opening with
            active := opening.active.insert row.workloadId
              (openedExecution host id row) }
      else
        match answers with
        | [] => (database, none)
        | answer :: answers =>
            match unixMs answer.systemTime, answer.stored with
            | some ended, true =>
                let closed := staleRow row ended
                openExecutions host session rows answers
                  (database.finishExecution id closed)
                  { opening with
                    workloads := opening.workloads.modify row.workloadId
                      fun record =>
                        { record with lastOutcome := some closed.state } }
            | _, _ => (database, none)

/-- `Manager::open` -/
def openManager (host : Host) (session : String) (answers : List Answer)
    (database : Database) : Database × Option State :=
  let (database, opening) :=
    openExecutions host session database.loadActiveExecutions answers database
      ⟨database.workloads.mapValues fun _ => openedWorkload, ∅⟩
  (database, opening.map fun opening =>
    { workloads := opening.workloads
      active := opening.active
      revision := 0
      sessionEnding := false
      cancelled := []
      receivers := [] })

/-! ## Commands -/

inductive Command where
  | startService (id : String)
  | stopService (id : String)
  | restartService (id : String)
  | runJob (id : String)
  | cancelJob (id : String)
  | rerunJob (id : String)
  | setEnabled (id : String) (enabled : Bool)
  | reload
  | endSession
  deriving DecidableEq, Repr

def Command.perform (host : Host) (session : String) (answer : Answer)
    (situation : Situation) : Command → Outcome
  | .startService id =>
      startSection host session answer situation id .service false none []
  | .runJob id =>
      startSection host session answer situation id .job true none []
  | .stopService id =>
      (situation.withState (situation.state.cancel id .service false).2).leave
        []
  | .cancelJob id =>
      (situation.withState (situation.state.cancel id .job false).2).leave []
  | .restartService id =>
      (situation.withState (situation.state.cancel id .service true).2).leave []
  | .rerunJob id =>
      situation.leave [.rerunJob id (situation.state.active.lookup id).isSome]
  | .setEnabled id enabled =>
      if answer.stored then
        let (changed, database) := situation.database.setEnabled id enabled
        (situation.withDatabase database).leave
          [.setEnabled id enabled changed]
      else situation.leave []
  | .reload =>
      situation.leave
        (reloadTasks answer.candidate situation.state .client).2
  | .endSession =>
      (situation.withState situation.state.endSession).leave []

/-! ## The world -/

structure Manager where
  session : String
  state : State
  tasks : List ManagerTask
  deriving DecidableEq

structure World where
  controller : Option Manager
  database : Database
  processes : List SupervisorProcess
  now : Nat
  deriving DecidableEq

inductive Event where
  | elapse (millis : Nat)
  | processExited (process : Nat)
  | controllerExited
  | startup (session : String) (answers : List Answer)
  | command (command : Command) (answer : Answer)
  | attach (hello : Hello) (answer : Answer)
  | advance (task : Nat) (answer : Answer)

/-- `main` serves once its startup is done. -/
def Manager.isServing (manager : Manager) : Bool :=
  manager.tasks.all fun task => !task.isStartup

namespace World

def initial : World := ⟨none, .empty, [], 0⟩

def situation (world : World) (manager : Manager) : Situation :=
  ⟨manager.state, world.database, world.processes⟩

def settle (world : World) (manager : Manager)
    (others : List ManagerTask) (outcome : Outcome) : World :=
  { world with
    controller := some
      { manager with
        state := outcome.state
        tasks := others ++ outcome.tasks }
    database := outcome.database
    processes := outcome.processes }

/-- `attach_supervisor` up to its section. -/
def attachTasks (database : Database) (hello : Hello) (stored : Bool) :
    List ManagerTask :=
  match database.getExecution hello.executionId, stored with
  | some row, true =>
      if identityMatches hello row.snapshot then [.attachSupervisor hello row]
      else []
  | _, _ => []

theorem mem_attachTasks {database : Database} {hello : Hello} {stored : Bool}
    {task : ManagerTask} (htask : task ∈ attachTasks database hello stored) :
    ∃ row, database.getExecution hello.executionId = some row ∧
      task = .attachSupervisor hello row := by
  unfold attachTasks at htask
  split at htask
  · rename_i row hrow
    split at htask
    · exact ⟨row, hrow, List.mem_singleton.mp htask⟩
    · cases htask
  · cases htask

def step (host : Host) (world : World) : Event → Option World
  | .elapse millis => some { world with now := world.now + millis }
  | .processExited process => some
      { world with processes := endProcess world.processes process }
  | .controllerExited => some { world with controller := none }
  | .startup session answers =>
      match world.controller with
      | some _ => none
      | none =>
          let (database, state) :=
            openManager host session answers world.database
          some
            { world with
              database := database
              controller := state.map fun state =>
                ⟨session, state, [.initialReload]⟩ }
  | .command command answer =>
      world.controller.bind fun manager =>
        if manager.isServing then
          some (world.settle manager manager.tasks
            (command.perform host manager.session answer
              (world.situation manager)))
        else none
  | .attach hello answer =>
      world.controller.bind fun manager =>
        if manager.isServing then
          some (world.settle manager manager.tasks
            ((world.situation manager).leave
              (attachTasks world.database hello answer.stored)))
        else none
  | .advance index answer =>
      world.controller.bind fun manager =>
        manager.tasks[index]?.bind fun task =>
          (task.advance host manager.session world.now answer
            (world.situation manager)).map
            (world.settle manager (manager.tasks.eraseIdx index))

/-! ## Inversion -/

section Inversion

variable {host : Host} {world next : World} {answer : Answer}

theorem step_startup {session : String} {answers : List Answer}
    (moved : step host world (.startup session answers) = some next) :
    world.controller = none ∧
      next =
        { world with
          database := (openManager host session answers world.database).1
          controller :=
            (openManager host session answers world.database).2.map
              fun state => ⟨session, state, [.initialReload]⟩ } := by
  simp only [step] at moved
  split at moved
  · cases moved
  · rename_i hnone
    exact ⟨hnone, (Option.some.inj moved).symm⟩

theorem step_command {command : Command}
    (moved : step host world (.command command answer) = some next) :
    ∃ manager, world.controller = some manager ∧ manager.isServing = true ∧
      next = world.settle manager manager.tasks
        (command.perform host manager.session answer
          (world.situation manager)) := by
  obtain ⟨manager, hmanager, moved⟩ := Option.bind_eq_some_iff.mp moved
  split at moved
  · rename_i hserving
    exact ⟨manager, hmanager, hserving, (Option.some.inj moved).symm⟩
  · cases moved

theorem step_attach {hello : Hello}
    (moved : step host world (.attach hello answer) = some next) :
    ∃ manager, world.controller = some manager ∧ manager.isServing = true ∧
      next = world.settle manager manager.tasks
        ((world.situation manager).leave
          (attachTasks world.database hello answer.stored)) := by
  obtain ⟨manager, hmanager, moved⟩ := Option.bind_eq_some_iff.mp moved
  split at moved
  · rename_i hserving
    exact ⟨manager, hmanager, hserving, (Option.some.inj moved).symm⟩
  · cases moved

theorem step_advance {index : Nat}
    (moved : step host world (.advance index answer) = some next) :
    ∃ manager task outcome, world.controller = some manager ∧
      manager.tasks[index]? = some task ∧
      task.advance host manager.session world.now answer
        (world.situation manager) = some outcome ∧
      next = world.settle manager (manager.tasks.eraseIdx index) outcome := by
  obtain ⟨manager, hmanager, moved⟩ := Option.bind_eq_some_iff.mp moved
  obtain ⟨task, htask, moved⟩ := Option.bind_eq_some_iff.mp moved
  obtain ⟨outcome, houtcome, hnext⟩ := Option.map_eq_some_iff.mp moved
  exact ⟨manager, task, outcome, hmanager, htask, houtcome, hnext.symm⟩

end Inversion

/-- The worlds that an installation can get into. -/
def Reachable (host : Host) : World → Prop :=
  Runs (step host) (fun _ _ => True) initial

end World

end Susm.Controller
