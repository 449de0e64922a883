import Susm.Foundation.EventMachine
import Susm.Foundation.Integers
import Susm.Foundation.Map
import Susm.Protocol.Supervisor

/-!
# Controller storage

The tables of `state.db`, each a map from its primary key to the other columns,
and the transactions on them.  A transaction that fails leaves the tables as
they were; which ones fail is decided by the caller of these functions.  The
encoded definitions and snapshots are the configurations they decode to.
-/

namespace Susm.Controller

open Susm.Foundation
open Susm.Protocol

/-- The states of executions, in memory and in the table. -/
inductive StateName where
  | starting
  | launching
  | running
  | launchFailed
  | attemptExited
  | supervisorLost
  | restartBackoff
  | stopping
  | recovering
  | completed
  | failed
  | stopped
  | cancelled
  | outcomeUnknown
  | supervisorUnavailable
  deriving DecidableEq, Repr

def StateName.name : StateName → String
  | .starting => "starting"
  | .launching => "launching"
  | .running => "running"
  | .launchFailed => "launch-failed"
  | .attemptExited => "attempt-exited"
  | .supervisorLost => "supervisor-lost"
  | .restartBackoff => "restart-backoff"
  | .stopping => "stopping"
  | .recovering => "recovering"
  | .completed => "completed"
  | .failed => "failed"
  | .stopped => "stopped"
  | .cancelled => "cancelled"
  | .outcomeUnknown => "outcome-unknown"
  | .supervisorUnavailable => "supervisor-unavailable"

/-- The states in which an execution has ended. -/
def StateName.isOutcome : StateName → Bool
  | .completed | .failed | .stopped | .cancelled | .outcomeUnknown
  | .supervisorUnavailable => true
  | _ => false

def terminalState : ObservationKind → Option StateName
  | .completed => some .completed
  | .failed => some .failed
  | .stopped => some .stopped
  | .cancelled => some .cancelled
  | .outcomeUnknown => some .outcomeUnknown
  | _ => none

theorem terminalState_isOutcome {kind : ObservationKind} {state : StateName}
    (h : terminalState kind = some state) : state.isOutcome = true := by
  cases kind <;> cases h <;> rfl

/-! ## Tables -/

structure StoredWorkload where
  kind : WorkloadKind
  definition : Option ExecutionConfiguration
  enabled : Bool
  lastTriggeredSession : String
  lastOutcome : Option StateName
  deriving DecidableEq, Repr

structure StoredExecution where
  workloadId : String
  state : StateName
  supervisorProcessId : Nat
  workloadProcessId : Nat
  attempt : Nat
  startedUnixMs : Int
  endedUnixMs : Int
  exitCode : Option UInt32
  error : String
  snapshot : ExecutionConfiguration
  committedSequence : Nat
  deriving DecidableEq, Repr

inductive StorageError where
  | unavailable
  | sqlite
  | invalidInteger
  | observationOutOfOrder (expected actual : Nat)
  deriving DecidableEq, Repr

structure TerminalObservation where
  state : StateName
  endedUnixMs : Int
  exitCode : Option UInt32
  error : String
  attempt : Nat
  deriving DecidableEq, Repr

structure ProgressObservation where
  state : StateName
  workloadProcessId : Nat
  attempt : Nat
  error : Option String
  deriving DecidableEq, Repr

inductive ObservationUpdate where
  | acknowledge
  | progress (progress : ProgressObservation)
  | terminal (terminal : TerminalObservation)
  deriving DecidableEq, Repr

structure Database where
  configGeneration : Option (List UInt8)
  workloads : Map String StoredWorkload
  executions : Map String StoredExecution
  deriving DecidableEq

namespace Database

/-- The tables after the first migration. -/
def empty : Database := ⟨none, ∅, ∅⟩

/-! ## Definitions -/

/--
`INSERT ... ON CONFLICT(id) DO UPDATE SET kind, definition`; a new row has the
defaults of the columns that the statement leaves out.
-/
def upsertDefinition (workloads : Map String StoredWorkload)
    (definition : String × StoredWorkload) : Map String StoredWorkload :=
  match workloads.lookup definition.1 with
  | none => workloads.insert definition.1
      { definition.2 with lastTriggeredSession := "", lastOutcome := none }
  | some row => workloads.insert definition.1
      { row with
        kind := definition.2.kind
        definition := definition.2.definition }

/-- Whether the generation differs from the stored one, and the tables. -/
def replaceDefinitions (database : Database) (generation : List UInt8)
    (definitions : List (String × StoredWorkload)) : Bool × Database :=
  if database.configGeneration = some generation then (false, database)
  else
    let cleared := database.workloads.mapValues fun _ row =>
      { row with definition := none }
    (true,
      { database with
        configGeneration := some generation
        workloads := definitions.foldl upsertDefinition cleared })

def loadWorkloads (database : Database) : List (String × StoredWorkload) :=
  database.workloads.toList

def setEnabled (database : Database) (id : String) (enabled : Bool) :
    Bool × Database :=
  ((database.workloads.lookup id).isSome,
    { database with
      workloads := database.workloads.modify id fun row =>
        { row with enabled := enabled } })

/-- `UPDATE workloads SET last_outcome = ?2 WHERE id = ?1` -/
def setLastOutcome (workloads : Map String StoredWorkload) (id : String)
    (outcome : StateName) : Map String StoredWorkload :=
  workloads.modify id fun row => { row with lastOutcome := some outcome }

/-! ## Executions -/

/--
The key must be new and the workload must exist; the columns that the
statement leaves out have their defaults.
-/
def insertExecution (database : Database) (id : String)
    (execution : StoredExecution) : Except StorageError Database :=
  if (database.executions.lookup id).isSome then .error .sqlite
  else if (database.workloads.lookup execution.workloadId).isNone then
    .error .sqlite
  else .ok
    { database with
      executions := database.executions.insert id
        { execution with
          endedUnixMs := 0
          exitCode := none
          error := ""
          committedSequence := 0 } }

def insertEnabledJobExecution (database : Database) (id : String)
    (execution : StoredExecution) (managerSessionId : String) :
    Except StorageError (Bool × Database) :=
  match database.workloads.lookup execution.workloadId with
  | none => .ok (false, database)
  | some row =>
      if row.kind = .job ∧ row.enabled = true ∧
          row.lastTriggeredSession ≠ managerSessionId then
        let claimed := database.workloads.insert execution.workloadId
          { row with lastTriggeredSession := managerSessionId }
        (insertExecution { database with workloads := claimed } id
          execution).map fun inserted => (true, inserted)
      else .ok (false, database)

def setExecutionSupervisor (database : Database) (id : String)
    (supervisorProcessId : Nat) : Database :=
  { database with
    executions := database.executions.modify id fun row =>
      { row with
        state := .launching
        supervisorProcessId := supervisorProcessId } }

def finishExecution (database : Database) (id : String)
    (execution : StoredExecution) : Database where
  configGeneration := database.configGeneration
  executions := database.executions.modify id fun row =>
    { row with
      state := execution.state
      supervisorProcessId := execution.supervisorProcessId
      workloadProcessId := execution.workloadProcessId
      attempt := execution.attempt
      endedUnixMs := execution.endedUnixMs
      exitCode := execution.exitCode
      error := execution.error }
  workloads :=
    setLastOutcome database.workloads execution.workloadId execution.state

def observed (row : StoredExecution) (sequence : Nat) :
    ObservationUpdate → StoredExecution
  | .acknowledge => { row with committedSequence := sequence }
  | .progress progress =>
      { row with
        state := progress.state
        workloadProcessId := progress.workloadProcessId
        attempt := progress.attempt
        error := progress.error.getD row.error
        committedSequence := sequence }
  | .terminal terminal =>
      { row with
        state := terminal.state
        workloadProcessId := 0
        attempt := terminal.attempt
        endedUnixMs := terminal.endedUnixMs
        exitCode := terminal.exitCode
        error := terminal.error
        committedSequence := sequence }

def observedWorkloads (workloads : Map String StoredWorkload)
    (workloadId : String) :
    ObservationUpdate → Map String StoredWorkload
  | .terminal terminal => setLastOutcome workloads workloadId terminal.state
  | _ => workloads

/-- Whether the observation was new. -/
def commitObservation (database : Database) (id : String) (sequence : Nat)
    (update : ObservationUpdate) : Except StorageError (Bool × Database) :=
  match checked (2 ^ 63) sequence with
  | none => .error .invalidInteger
  | some sequence =>
      match database.executions.lookup id with
      | none => .error .sqlite
      | some row =>
          if sequence ≤ row.committedSequence then .ok (false, database)
          else
            match checked (2 ^ 63) (row.committedSequence + 1) with
            | none => .error .invalidInteger
            | some expected =>
                if sequence ≠ expected then
                  .error (.observationOutOfOrder expected sequence)
                else .ok (true,
                  { database with
                    executions := database.executions.insert id
                      (observed row sequence update)
                    workloads := observedWorkloads database.workloads
                      row.workloadId update })

def getExecution (database : Database) (id : String) :
    Option StoredExecution :=
  database.executions.lookup id

def loadActiveExecutions (database : Database) :
    List (String × StoredExecution) :=
  (database.executions.toList.filter fun entry =>
    entry.2.endedUnixMs = 0).insertionSort fun first second =>
      first.2.startedUnixMs ≤ second.2.startedUnixMs

theorem mem_loadActiveExecutions {database : Database} {id : String}
    {row : StoredExecution} :
    (id, row) ∈ database.loadActiveExecutions ↔
      database.executions.lookup id = some row ∧ row.endedUnixMs = 0 := by
  simp [loadActiveExecutions, List.mem_insertionSort, Map.mem_toList]

/-! ## Specifications -/

variable {database after : Database} {id : String}

theorem insertExecution_ok {execution : StoredExecution}
    (h : database.insertExecution id execution = .ok after) :
    database.executions.lookup id = none ∧
      (database.workloads.lookup execution.workloadId).isSome ∧
      after =
        { database with
          executions := database.executions.insert id
            { execution with
              endedUnixMs := 0
              exitCode := none
              error := ""
              committedSequence := 0 } } := by
  unfold insertExecution at h
  split at h
  · cases h
  · rename_i hid
    split at h
    · cases h
    · rename_i hworkload
      cases h
      refine ⟨by simpa using hid, ?_, rfl⟩
      simpa [Option.isSome_iff_ne_none] using hworkload

theorem commitObservation_ok {sequence : Nat} {update : ObservationUpdate}
    {committed : Bool}
    (h : database.commitObservation id sequence update =
      .ok (committed, after)) :
    ∃ row, database.executions.lookup id = some row ∧
      ((committed = false ∧ after = database ∧
          sequence ≤ row.committedSequence) ∨
        (committed = true ∧ sequence = row.committedSequence + 1 ∧
          after =
            { database with
              executions := database.executions.insert id
                (observed row sequence update)
              workloads := observedWorkloads database.workloads
                row.workloadId update })) := by
  unfold commitObservation at h
  split at h
  · cases h
  rename_i number hsequence
  obtain ⟨-, rfl⟩ := checked_eq_some_iff.mp hsequence
  split at h
  · cases h
  rename_i row hrow
  refine ⟨row, hrow, ?_⟩
  split at h
  · rename_i hle
    cases h
    exact .inl ⟨rfl, rfl, hle⟩
  split at h
  · cases h
  rename_i expected hexpected
  obtain ⟨-, rfl⟩ := checked_eq_some_iff.mp hexpected
  split at h
  · cases h
  rename_i hnext
  cases h
  exact .inr ⟨rfl, not_not.mp hnext, rfl⟩

end Database

end Susm.Controller
