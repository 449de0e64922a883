import Susm.Controller.Snapshot
import Susm.Controller.Storage

/-!
# Controller state

What the controller keeps in memory, and the sections of its methods that run
under the state lock.  A cancellation token is the membership of its execution
in a list; the receivers of the broadcast channels are kept beside the active
executions, since a receiver still delivers what was sent before its execution
was removed.
-/

namespace Susm.Controller

open Susm.Foundation
open Susm.Protocol

structure WorkloadRecord where
  kind : WorkloadKind
  definition : Option ExecutionConfiguration
  enabled : Bool
  lastOutcome : Option StateName
  deriving DecidableEq, Repr

structure ActiveExecution where
  executionId : String
  supervisorProcessId : Nat
  workloadProcessId : Nat
  attempt : Nat
  error : String
  state : StateName
  locallyOwned : Bool
  restartAfter : Bool
  processDefinitionHash : List UInt8
  policyHash : List UInt8
  restartRequired : Bool
  policySyncPending : Bool
  attachmentId : Option String
  deriving DecidableEq, Repr

inductive ExecutionCommand where
  | stop
  | sessionEnding
  | updatePolicy (update : PolicyUpdate)
  deriving DecidableEq, Repr

/--
The receiver of one attachment: the commands sent since it subscribed that it
has not received, and those it has put on the stream to the supervisor.
-/
structure Receiver where
  attachmentId : String
  executionId : String
  queue : List ExecutionCommand
  stream : List ExecutionCommand
  deriving DecidableEq, Repr

/-- The capacity of a broadcast channel; a receiver further behind has lost
commands. -/
def commandCapacity : Nat := 16

structure State where
  workloads : Map String WorkloadRecord
  active : Map String ActiveExecution
  revision : Nat
  sessionEnding : Bool
  cancelled : List String
  receivers : List Receiver
  deriving DecidableEq

inductive ManagerError where
  | config
  | notFound (id : String)
  | definitionMissing (id : String)
  | wrongKind (id : String) (expected actual : WorkloadKind)
  | alreadyActive (id : String)
  | supervisorIdentityMismatch
  | sessionEnding
  | kindChangeActive (id : String)
  | storage (error : StorageError)
  | io
  | invalidSystemTime
  deriving DecidableEq, Repr

def StorageError.message : StorageError → String
  | .unavailable => "controller storage connection is unavailable"
  | .sqlite => "SQLite operation failed"
  | .invalidInteger => "stored integer is outside its domain"
  | .observationOutOfOrder expected actual =>
      "observation sequence " ++ toString actual ++
        " is out of order; expected " ++ toString expected

def ManagerError.message : ManagerError → String
  | .config => "configuration reload failed"
  | .notFound id => "workload '" ++ id ++ "' does not exist"
  | .definitionMissing id => "workload '" ++ id ++ "' has no accepted definition"
  | .wrongKind id expected actual =>
      "workload '" ++ id ++ "' is a " ++ actual.name ++ ", not a " ++
        expected.name
  | .alreadyActive id => "workload '" ++ id ++ "' is already active"
  | .supervisorIdentityMismatch =>
      "supervisor execution identity does not match durable state"
  | .sessionEnding => "the manager session is ending"
  | .kindChangeActive id =>
      "cannot change active workload '" ++ id ++ "' between service and job"
  | .storage error => error.message
  | .io => "cannot access a file"
  | .invalidSystemTime => "system time is before the Unix epoch"

/-- `unix_ms` at a reading of the wall clock in milliseconds. -/
def unixMs (systemTime : Int) : Option Int :=
  if 0 ≤ systemTime ∧ systemTime ≤ maxI64 then some systemTime else none

/-! ## Views -/

structure Workload where
  workloadId : String
  kind : WorkloadKind
  enabled : Bool
  state : String
  executionId : String
  supervisorProcessId : Nat
  workloadProcessId : Nat
  attempt : Nat
  error : String
  lastOutcome : Option StateName
  definitionMissing : Bool
  restartRequired : Bool
  policySyncPending : Bool
  deriving DecidableEq, Repr

def workloadView (id : String) (record : WorkloadRecord)
    (active : Option ActiveExecution) : Workload where
  workloadId := id
  kind := record.kind
  enabled := record.enabled
  state :=
    match active with
    | some active => active.state.name
    | none =>
        if record.definition.isSome then "inactive" else "definition-missing"
  executionId := (active.map ActiveExecution.executionId).getD ""
  supervisorProcessId := (active.map ActiveExecution.supervisorProcessId).getD 0
  workloadProcessId := (active.map ActiveExecution.workloadProcessId).getD 0
  attempt := (active.map ActiveExecution.attempt).getD 0
  error := (active.map ActiveExecution.error).getD ""
  lastOutcome := record.lastOutcome
  definitionMissing := record.definition.isNone
  restartRequired := active.any ActiveExecution.restartRequired
  policySyncPending := active.any ActiveExecution.policySyncPending

/-- What a command answers: whether it changed anything, and the workload. -/
abbrev Reply := Except ManagerError (Bool × Workload)

def activeState : StateName → StateName
  | .starting => .starting
  | .launching => .launching
  | .running => .running
  | .launchFailed => .launchFailed
  | .attemptExited => .attemptExited
  | .supervisorLost => .supervisorLost
  | .restartBackoff => .restartBackoff
  | .stopping => .stopping
  | _ => .recovering

structure SupervisorObservation where
  sequence : Nat
  kind : ObservationKind
  exitCode : Option UInt32
  detail : String
  attempt : Nat
  workloadProcessId : Nat
  deriving DecidableEq, Repr

def progressObservation (observation : SupervisorObservation) :
    Option ProgressObservation :=
  let detail :=
    if observation.detail = "" then none else some observation.detail
  let progress := fun state workloadProcessId error =>
    some (ProgressObservation.mk state workloadProcessId observation.attempt
      error)
  match observation.kind with
  | .attemptStarted => progress .running observation.workloadProcessId (some "")
  | .launchFailed => progress .launchFailed 0 (some observation.detail)
  | .attemptExited => progress .attemptExited 0 detail
  | .supervisorLost => progress .supervisorLost 0 (some observation.detail)
  | .restartBackoff => progress .restartBackoff 0 detail
  | _ => none

def ensureKind (id : String) (record : WorkloadRecord)
    (expected : WorkloadKind) : Except ManagerError Unit :=
  if record.kind = expected then .ok ()
  else .error (.wrongKind id expected record.kind)

/-- `Hello` and the process of the caller. -/
structure Hello where
  executionId : String
  workloadId : String
  managerSessionId : String
  executionConfigHash : List UInt8
  supervisorProcessId : Nat
  deriving DecidableEq, Repr

/-- The checks of `attach_supervisor` before its section. -/
def identityMatches (hello : Hello) (configuration : ExecutionConfiguration) :
    Bool :=
  configuration.workloadId = hello.workloadId ∧
    configuration.managerSessionId = hello.managerSessionId ∧
    configuration.executionConfigHash = hello.executionConfigHash

/-- What the recovery monitor finds; an execution that it takes over. -/
inductive MonitorTick where
  | gone
  | waiting (replacementAt : Nat) (wasRecovering : Bool)
  | replace (workloadId : String)
  deriving DecidableEq, Repr

/-- The milliseconds that a detached supervisor has to come back. -/
def recoveryMillis : Nat := 3_000

namespace State

def bump (state : State) : State :=
  { state with revision := saturatingAdd (2 ^ 64) state.revision 1 }

/-- `commands.send(...)` on the channel of an execution. -/
def send (state : State) (executionId : String) (command : ExecutionCommand) :
    State :=
  { state with
    receivers := state.receivers.map fun receiver =>
      if receiver.executionId = executionId then
        { receiver with queue := receiver.queue ++ [command] }
      else receiver }

/-- `cancellation.cancel()` on the token of an execution. -/
def cancelToken (state : State) (executionId : String) : State :=
  { state with cancelled := executionId :: state.cancelled }

def isCancelled (state : State) (executionId : String) : Bool :=
  executionId ∈ state.cancelled

def entry (state : State) (workloadId executionId : String) :
    Option ActiveExecution :=
  (state.active.lookup workloadId).filter
    fun active => active.executionId = executionId

def setActive (state : State) (id : String) (active : ActiveExecution) :
    State :=
  { state with active := state.active.insert id active }

def removeActive (state : State) (id : String) : State :=
  { state with active := state.active.erase id }

def setLastOutcome (state : State) (id : String) (outcome : StateName) :
    State :=
  { state with
    workloads := state.workloads.modify id fun record =>
      { record with lastOutcome := some outcome } }

def dropReceiver (state : State) (attachmentId : String) : State :=
  { state with
    receivers := state.receivers.filter (·.attachmentId ≠ attachmentId) }

/-! ## Commands -/

/-- `Manager::cancel` -/
def cancel (state : State) (id : String) (expectedKind : WorkloadKind)
    (restartAfter : Bool) : Reply × State :=
  match state.workloads.lookup id with
  | none => (.error (.notFound id), state)
  | some record =>
      match ensureKind id record expectedKind with
      | .error error => (.error error, state)
      | .ok () =>
          match state.active.lookup id with
          | none => (.ok (false, workloadView id record none), state)
          | some active =>
              let stopping :=
                { active with
                  restartAfter := active.restartAfter || restartAfter
                  state := .stopping }
              (.ok (true, workloadView id record (some stopping)),
                (((state.setActive id stopping).cancelToken
                  active.executionId).send active.executionId .stop).bump)

/-- The section of `set_enabled` after its storage call. -/
def setEnabled (state : State) (id : String) (enabled changed : Bool) :
    Reply × State :=
  match state.workloads.lookup id with
  | none => (.error (.notFound id), state)
  | some record =>
      let next := if changed then { record with enabled := enabled } else record
      (.ok (changed, workloadView id next (state.active.lookup id)),
        if changed then
          { state with workloads := state.workloads.insert id next }.bump
        else state)

/-- `Manager::end_session` -/
def endSession (state : State) : State :=
  if state.sessionEnding then state
  else
    let ending :=
      { state with
        sessionEnding := true
        active := state.active.mapValues fun _ active =>
          { active with restartAfter := false, state := .stopping } }
    (state.active.toList.foldl (fun state entry =>
      (state.cancelToken entry.2.executionId).send entry.2.executionId
        .sessionEnding) ending).bump

/-! ## Reload -/

def kindChangeActive (state : State)
    (definitions : List (String × StoredWorkload)) : Option String :=
  (definitions.find? fun definition =>
    (state.active.lookup definition.1).isSome ∧
      (state.workloads.lookup definition.1).any
        fun current => current.kind ≠ definition.2.kind).map Prod.fst

/-- One round of the loop of `reconcile_reload`. -/
def reconcileActive (host : Host) (definition : Option ExecutionConfiguration)
    (active : ActiveExecution) : ActiveExecution :=
  match definition with
  | none => { active with restartRequired := false }
  | some definition =>
      let update := policyUpdate host definition
      { active with
        restartRequired :=
          active.processDefinitionHash ≠ definition.processDefinitionHash
        policyHash := update.policyHash
        policySyncPending :=
          active.policySyncPending ∨ active.policyHash ≠ update.policyHash }

def definition (state : State) (id : String) : Option ExecutionConfiguration :=
  (state.workloads.lookup id).bind WorkloadRecord.definition

def sendPending (host : Host) (state : State)
    (entry : String × ActiveExecution) : State :=
  match state.definition entry.1 with
  | none => state
  | some definition =>
      if entry.2.policySyncPending then
        state.send entry.2.executionId
          (.updatePolicy (policyUpdate host definition))
      else state

/-- Whether an active execution changed, and the state. -/
def reconcileReload (host : Host) (state : State) : Bool × State :=
  let active := state.active.mapValues fun id active =>
    reconcileActive host (state.definition id) active
  (state.active.toList.any fun entry =>
      reconcileActive host (state.definition entry.1) entry.2 ≠ entry.2,
    active.toList.foldl (sendPending host) { state with active := active })

def insertWorkload (state : State) (item : String × StoredWorkload) : State :=
  { state with
    workloads := state.workloads.insert item.1
      { kind := item.2.kind
        definition := item.2.definition
        enabled := item.2.enabled
        lastOutcome := item.2.lastOutcome } }

/-- The section of `reload` after an accepted configuration. -/
def applyReload (host : Host) (state : State)
    (persisted : List (String × StoredWorkload)) : State :=
  (reconcileReload host (persisted.foldl insertWorkload state)).2.bump

/-- The section of `reload` after an unchanged configuration. -/
def keepReload (host : Host) (state : State) : State :=
  match reconcileReload host state with
  | (true, next) => next.bump
  | (false, next) => next

/-! ## Supervisors -/

/-- `Manager::supervisor_disconnected` -/
def supervisorDisconnected (state : State)
    (executionId attachmentId : String) : State :=
  match state.active.findEntry (·.executionId = executionId) with
  | none => state
  | some (id, active) =>
      if active.locallyOwned = true ∨ active.state = .stopping ∨
          active.attachmentId ≠ some attachmentId then state
      else
        (state.setActive id
          { active with attachmentId := none, state := .recovering }).bump

def monitorTick (state : State) (executionId : String) (now replacementAt : Nat)
    (wasRecovering : Bool) : MonitorTick × State :=
  match state.active.findEntry (·.executionId = executionId) with
  | none => (.gone, state)
  | some (id, active) =>
      let recovering : Bool := active.state = .recovering
      let replacementAt :=
        if recovering ∧ !wasRecovering then now + recoveryMillis
        else replacementAt
      if recovering ∧ replacementAt ≤ now then
        (.replace id,
          state.setActive id
            { active with locallyOwned := true, state := .starting })
      else (.waiting replacementAt recovering, state)

/--
The section of `attach_supervisor` up to its storage call; whether the
execution is locally owned, so that the supervisor is to be stored.
-/
def attachSupervisor (host : Host) (state : State) (hello : Hello)
    (stored : StoredExecution) (attachmentId : String) :
    Except ManagerError (Bool × State) :=
  match state.entry stored.workloadId hello.executionId with
  | none => .error (.notFound hello.executionId)
  | some active =>
      if active.supervisorProcessId ≠ 0 ∧
          active.supervisorProcessId ≠ hello.supervisorProcessId then
        .error .supervisorIdentityMismatch
      else if active.locallyOwned = true ∧ active.supervisorProcessId = 0 then
        .error .supervisorIdentityMismatch
      else
        let identified :=
          { active with supervisorProcessId := hello.supervisorProcessId }
        let attached :=
          if active.locallyOwned then
            { identified with
              state := .launching
              attachmentId := some attachmentId }
          else
            { identified with
              state := activeState stored.state
              workloadProcessId := stored.workloadProcessId
              attempt := stored.attempt
              error := stored.error
              attachmentId := some attachmentId }
        let subscribed :=
          { state.setActive stored.workloadId attached with
            receivers :=
              state.receivers ++ [⟨attachmentId, hello.executionId, [], []⟩] }
        .ok (active.locallyOwned,
          sendPending host subscribed (stored.workloadId, attached))

/-! ## The end of an execution -/

/--
The check of `record_supervisor_observation`: a terminal observation of an
execution that is not locally owned ends it.
-/
def terminalUpdate (state : State) (executionId : String)
    (stored : StoredExecution) (observation : SupervisorObservation)
    (systemTime : Int) : Option TerminalObservation :=
  (terminalState observation.kind).bind fun name =>
    ((state.entry stored.workloadId executionId).filter
      fun active => !active.locallyOwned).map fun _ =>
        { state := name
          endedUnixMs := (unixMs systemTime).getD stored.startedUnixMs
          exitCode := observation.exitCode
          error := observation.detail
          attempt := observation.attempt }

/-- The section after a committed terminal observation; whether to restart. -/
def recordTerminal (state : State) (executionId : String)
    (stored : StoredExecution) (outcome : StateName) : Bool × State :=
  match state.entry stored.workloadId executionId with
  | none => (false, state)
  | some active =>
      (!state.sessionEnding && active.restartAfter,
        ((state.removeActive stored.workloadId).setLastOutcome
          stored.workloadId outcome).bump)

/-- The section after any other committed observation. -/
def recordProgress (state : State) (executionId : String)
    (stored : StoredExecution) (observation : SupervisorObservation) : State :=
  match state.entry stored.workloadId executionId with
  | none => state
  | some active =>
      let applied : Bool := observation.kind = .policyApplied ∧
        observation.detail = hex active.policyHash ∧
        active.policySyncPending = true
      let synced :=
        if applied then { active with policySyncPending := false } else active
      match progressObservation observation with
      | some progress =>
          (state.setActive stored.workloadId
            { synced with
              state := progress.state
              workloadProcessId := progress.workloadProcessId
              attempt := progress.attempt
              error := progress.error.getD synced.error }).bump
      | none =>
          if applied then (state.setActive stored.workloadId synced).bump
          else state

/-- The outcome that `supervisor_terminal` stores. -/
def terminalName (stopping : Bool) (definition : ExecutionConfiguration)
    (result : AttemptResult) : StateName :=
  if stopping then
    match definition.kind with
    | .job => .cancelled
    | .service => .stopped
  else
    match result.outcome.bind terminalState with
    | some outcome => outcome
    | none =>
        if result.exitCode.any (· ∈ definition.successExitCodes) then .completed
        else .failed

/-- The section of `supervisor_terminal`: the outcome and whether to restart. -/
def supervisorTerminal (state : State) (executionId : String)
    (stored : StoredExecution) (result : AttemptResult) :
    Option (StateName × Bool × State) :=
  ((state.entry stored.workloadId executionId).filter
    fun active => !active.locallyOwned).map fun active =>
      let outcome :=
        terminalName (active.state = .stopping) stored.snapshot result
      (outcome, !state.sessionEnding && active.restartAfter,
        ((state.removeActive stored.workloadId).setLastOutcome
          stored.workloadId outcome).bump)

/-- The section of `complete_execution`; whether to restart. -/
def completeExecution (state : State) (workloadId executionId : String)
    (outcome : StateName) : Bool × State :=
  let entry := state.entry workloadId executionId
  let removed :=
    if entry.isSome then state.removeActive workloadId else state
  (!state.sessionEnding && entry.any ActiveExecution.restartAfter,
    (removed.setLastOutcome workloadId outcome).bump)

/-- The section of `run_execution` after a supervisor has been started. -/
def supervisorLaunching (state : State) (workloadId executionId : String)
    (supervisorProcessId : Nat) : State :=
  match state.entry workloadId executionId with
  | none => state
  | some active =>
      (state.setActive workloadId
        { active with
          supervisorProcessId := supervisorProcessId
          state := .launching }).bump

end State

end Susm.Controller
