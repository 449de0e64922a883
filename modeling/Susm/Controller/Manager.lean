import Susm.Controller.State

/-!
# Manager tasks

The methods of the manager between two of their sections.  A section is one
hold of the state lock or one storage call; a method that has more of them, and
every spawned task, is a value that says what it does next and with which data.
Everything that a section learns from its surroundings is in its answer.
-/

namespace Susm.Controller

open Susm.Foundation
open Susm.Protocol

/-- A configuration directory as it was loaded. -/
structure Candidate where
  generation : List UInt8
  definitions : List ExecutionConfiguration
  deriving DecidableEq, Repr

/-- The rows of the definitions; a new workload starts disabled. -/
def Candidate.stored (candidate : Candidate) :
    List (String × StoredWorkload) :=
  candidate.definitions.map fun definition =>
    (definition.workloadId,
      { kind := definition.kind
        definition := some definition
        enabled := false
        lastTriggeredSession := ""
        lastOutcome := none })

/-- What the surroundings decide during one section. -/
structure Answer where
  /-- The configuration directory, if it can be loaded. -/
  candidate : Option Candidate
  /-- `Uuid::now_v7` -/
  uuid : String
  /-- The wall clock in milliseconds. -/
  systemTime : Int
  /-- The storage call succeeds. -/
  stored : Bool
  /-- Directories and files can be written. -/
  written : Bool
  /-- The process identifier of a supervisor that could be started. -/
  spawned : Option Nat
  /-- The result file, if there is one. -/
  result : Option AttemptResult
  /-- The message that arrives on the stream. -/
  observation : Option SupervisorObservation
  /-- The other branch of a `select!` is taken, or a stream has ended. -/
  interrupted : Bool

structure SupervisorProcess where
  executionId : String
  processId : Nat
  alive : Bool
  deriving DecidableEq, Repr

/-- The arguments and the counters of `run_execution`. -/
structure RunExecution where
  workloadId : String
  executionId : String
  definition : ExecutionConfiguration
  started : Int
  supervisorFailures : Nat
  supervisorProcessId : Nat
  deriving DecidableEq, Repr

structure ExecutionFinish where
  state : StateName
  exitCode : Option UInt32
  error : String
  supervisorProcessId : Nat
  deriving DecidableEq, Repr

/-- What continues when a call returns. -/
inductive Caller where
  | client
  | startup
  | stream (attachmentId executionId : String)
  deriving DecidableEq, Repr

inductive ManagerTask where
  -- `main` after `Manager::open`
  | initialReload
  | startRecoveryMonitors
  | startEnabled
  | startEnabledServices (services jobs : List String)
  | startEnabledJobs (jobs : List String)
  -- `Manager::reload`
  | replaceDefinitions (generation : List UInt8)
      (definitions : List (String × StoredWorkload)) (caller : Caller)
  | loadWorkloads (caller : Caller)
  | applyReload (persisted : List (String × StoredWorkload)) (caller : Caller)
  | keepReload (caller : Caller)
  -- `Manager::set_enabled` and `Manager::rerun_job`
  | setEnabled (id : String) (enabled changed : Bool)
  | rerunJob (id : String) (active : Bool)
  -- the recovery monitor
  | monitorLoad (executionId : String)
  | monitorPoll (executionId : String) (stored : StoredExecution)
      (replacementAt : Nat) (wasRecovering : Bool)
  | monitorTick (executionId : String) (stored : StoredExecution)
      (replacementAt : Nat) (wasRecovering : Bool)
  -- `Manager::supervisor_terminal`
  | terminalLoad (executionId : String) (result : AttemptResult)
  | terminalRemove (executionId : String) (stored : StoredExecution)
      (result : AttemptResult)
  | terminalFinish (executionId : String) (stored : StoredExecution)
      (outcome : StateName) (result : AttemptResult) (restart : Bool)
  -- `Manager::start_replacement`
  | replacementKind (workloadId : String) (caller : Caller)
  | replacementStart (workloadId : String) (kind : WorkloadKind)
      (caller : Caller)
  -- the stream of an attachment
  | attachSupervisor (hello : Hello) (stored : StoredExecution)
  | stream (attachmentId executionId : String)
  | recordCheck (attachmentId executionId : String) (stored : StoredExecution)
      (observation : SupervisorObservation)
  | recordCommit (attachmentId executionId : String) (stored : StoredExecution)
      (observation : SupervisorObservation)
      (terminal : Option TerminalObservation)
  | recordTerminal (attachmentId executionId : String)
      (stored : StoredExecution) (outcome : StateName)
  | recordProgress (attachmentId executionId : String)
      (stored : StoredExecution) (observation : SupervisorObservation)
  | streamClosed (attachmentId executionId : String)
  -- `Inner::run_execution`
  | runPrepare (run : RunExecution)
  | runLoop (run : RunExecution)
  | runSpawned (run : RunExecution) (process : Nat)
  | runLaunching (run : RunExecution) (process : Nat)
  | runWaiting (run : RunExecution) (process : Nat)
  | runStopping (run : RunExecution) (process : Nat)
  | runExited (run : RunExecution) (cancelled : Bool)
  | runBackoff (run : RunExecution)
  -- `Inner::complete_execution`
  | completeLoad (run : RunExecution) (finish : ExecutionFinish)
  | completeFinish (run : RunExecution) (finish : ExecutionFinish)
      (stored : StoredExecution)
  | completeRemove (run : RunExecution) (finish : ExecutionFinish)
  deriving DecidableEq

/-- `main` has not started to serve before these are done. -/
def ManagerTask.isStartup : ManagerTask → Bool
  | .initialReload | .startRecoveryMonitors | .startEnabled
  | .startEnabledServices .. | .startEnabledJobs _
  | .replaceDefinitions _ _ .startup | .loadWorkloads .startup
  | .applyReload _ .startup | .keepReload .startup => true
  | _ => false

/-- What all sections share, and what they leave to be done. -/
structure Situation where
  state : State
  database : Database
  processes : List SupervisorProcess

structure Outcome extends Situation where
  tasks : List ManagerTask

namespace Situation

def leave (situation : Situation) (tasks : List ManagerTask) : Outcome :=
  ⟨situation, tasks⟩

def withState (situation : Situation) (state : State) : Situation :=
  { situation with state := state }

def withDatabase (situation : Situation) (database : Database) : Situation :=
  { situation with database := database }

end Situation

/-- What is left to do after a call. -/
def Caller.tasks : Caller → List ManagerTask
  | .client => []
  | .startup => [.startRecoveryMonitors]
  | .stream attachmentId executionId => [.stream attachmentId executionId]

/-! ## Starting -/

/-- `prepare_execution_build` -/
def prepareExecutionBuild (host : Host) (configuration : ExecutionConfiguration)
    (executionId : String) : ExecutionConfiguration :=
  setExecutionHash host
    { configuration with
      supervisorExecutable := host.supervisorExecutable
      versionPin :=
        (host.versionPinPath executionId).getD configuration.versionPin }

def startedDefinition (host : Host) (session executionId : String)
    (definition : ExecutionConfiguration) : ExecutionConfiguration :=
  prepareExecutionBuild host
    { definition with
      executionId := executionId
      managerSessionId := session }
    executionId

/-- The task that an execution is spawned with. -/
def startedRun (id executionId : String) (started : Int)
    (definition : ExecutionConfiguration) : RunExecution where
  workloadId := id
  executionId := executionId
  definition := { definition with attempt := 1 }
  started := started
  supervisorFailures := 0
  supervisorProcessId := 0

/-- The entry of a new execution. -/
def startingExecution (host : Host) (executionId : String)
    (definition : ExecutionConfiguration) : ActiveExecution where
  executionId := executionId
  supervisorProcessId := 0
  workloadProcessId := 0
  attempt := 0
  error := ""
  state := .starting
  locallyOwned := true
  restartAfter := false
  processDefinitionHash := definition.processDefinitionHash
  policyHash := (policyUpdate host definition).policyHash
  restartRequired := false
  policySyncPending := false
  attachmentId := none

def startingRow (id : String) (started : Int)
    (definition : ExecutionConfiguration) : StoredExecution where
  workloadId := id
  state := .starting
  supervisorProcessId := 0
  workloadProcessId := 0
  attempt := 0
  startedUnixMs := started
  endedUnixMs := 0
  exitCode := none
  error := ""
  snapshot := definition
  committedSequence := 0

structure Started where
  reply : Reply
  state : State
  database : Database
  run : Option RunExecution

/-- The storage call of `start`; whether a row was inserted. -/
def insertStarted (database : Database) (executionId : String)
    (execution : StoredExecution) (enabledManagerSession : Option String)
    (stored : Bool) : Except StorageError (Bool × Database) :=
  if stored then
    match enabledManagerSession with
    | some managerSessionId =>
        database.insertEnabledJobExecution executionId execution
          managerSessionId
    | none =>
        (database.insertExecution executionId execution).map fun database =>
          (true, database)
  else .error .sqlite

/--
`Manager::start`.  When nothing was inserted the new entry is removed again,
which leaves the active executions as they were.
-/
def start (host : Host) (session : String) (answer : Answer) (state : State)
    (database : Database) (id : String) (expectedKind : WorkloadKind)
    (exclusive : Bool) (enabledManagerSession : Option String) : Started :=
  let refuse := fun reply => Started.mk reply state database none
  if state.sessionEnding then refuse (.error .sessionEnding)
  else
    match state.workloads.lookup id with
    | none => refuse (.error (.notFound id))
    | some record =>
        match ensureKind id record expectedKind, record.definition,
            state.active.lookup id, unixMs answer.systemTime with
        | .error error, _, _, _ => refuse (.error error)
        | .ok (), none, _, _ => refuse (.error (.definitionMissing id))
        | .ok (), some _, some active, _ =>
            if exclusive then refuse (.error (.alreadyActive id))
            else refuse (.ok (false, workloadView id record (some active)))
        | .ok (), some definition, none, time =>
            if !answer.written then refuse (.error .io)
            else
              match time with
              | none => refuse (.error .invalidSystemTime)
              | some started =>
                  let executionId := answer.uuid
                  let definition :=
                    startedDefinition host session executionId definition
                  let active := startingExecution host executionId definition
                  match insertStarted database executionId
                    (startingRow id started definition) enabledManagerSession
                    answer.stored with
                  | .error error => refuse (.error (.storage error))
                  | .ok (false, database) =>
                      ⟨.ok (false, workloadView id record none), state,
                        database, none⟩
                  | .ok (true, database) =>
                      ⟨.ok (true, workloadView id record (some active)),
                        (state.setActive id active).bump, database,
                        some (startedRun id executionId started definition)⟩

/-- The columns of a workload that a reload or an enablement changes. -/
def StoredWorkload.configured (row : StoredWorkload) :
    WorkloadKind × Option ExecutionConfiguration × Bool :=
  (row.kind, row.definition, row.enabled)

section Start

variable {host : Host} {session : String} {answer : Answer} {state : State}
  {database : Database} {id : String} {expectedKind : WorkloadKind}
  {exclusive : Bool} {enabledManagerSession : Option String}

/-- What a start that creates an execution finds and leaves. -/
structure Creates (host : Host) (session : String) (answer : Answer)
    (state : State) (database : Database) (id : String)
    (expectedKind : WorkloadKind) (started : Started) (record : WorkloadRecord)
    (accepted : ExecutionConfiguration) (time : Int) : Prop where
  notEnding : state.sessionEnding = false
  found : state.workloads.lookup id = some record
  kind : record.kind = expectedKind
  definition : record.definition = some accepted
  idle : state.active.lookup id = none
  unused : database.executions.lookup answer.uuid = none
  clock : unixMs answer.systemTime = some time
  reply : ∃ view, started.reply = .ok (true, view)
  state : started.state =
    (state.setActive id (startingExecution host answer.uuid
      (startedDefinition host session answer.uuid accepted))).bump
  executions : started.database.executions =
    database.executions.insert answer.uuid
      (startingRow id time (startedDefinition host session answer.uuid accepted))
  workloads : ∀ other, (started.database.workloads.lookup other).map
      StoredWorkload.configured =
    (database.workloads.lookup other).map StoredWorkload.configured
  generation : started.database.configGeneration = database.configGeneration
  run : started.run =
    some (startedRun id answer.uuid time
      (startedDefinition host session answer.uuid accepted))

theorem insertStarted_false {executionId : String}
    {execution : StoredExecution} {stored : Bool} {after : Database}
    (h : insertStarted database executionId execution enabledManagerSession
      stored = .ok (false, after)) : after = database := by
  unfold insertStarted at h
  split at h
  · split at h
    · unfold Database.insertEnabledJobExecution at h
      split at h
      · cases h
        rfl
      · split at h
        · obtain ⟨inserted, -, hfalse⟩ := map_eq_ok_iff.mp h
          cases hfalse
        · cases h
          rfl
    · obtain ⟨inserted, -, hfalse⟩ := map_eq_ok_iff.mp h
      cases hfalse
  · cases h

theorem insertStarted_true {executionId : String}
    {execution : StoredExecution} {stored : Bool} {after : Database}
    (h : insertStarted database executionId execution enabledManagerSession
      stored = .ok (true, after)) :
    database.executions.lookup executionId = none ∧
      after.executions = database.executions.insert executionId
        { execution with
          endedUnixMs := 0
          exitCode := none
          error := ""
          committedSequence := 0 } ∧
      after.configGeneration = database.configGeneration ∧
      ∀ other, (after.workloads.lookup other).map StoredWorkload.configured =
        (database.workloads.lookup other).map StoredWorkload.configured := by
  unfold insertStarted at h
  split at h
  · split at h
    · unfold Database.insertEnabledJobExecution at h
      split at h
      · cases h
      · rename_i row hrow
        split at h
        · obtain ⟨inserted, hinsert, htrue⟩ := map_eq_ok_iff.mp h
          cases htrue
          obtain ⟨hunused, -, rfl⟩ := Database.insertExecution_ok hinsert
          refine ⟨hunused, rfl, rfl, fun other => ?_⟩
          simp only [Map.lookup_insert_eq]
          split
          · subst other
            rw [hrow]
            rfl
          · rfl
        · cases h
    · obtain ⟨inserted, hinsert, htrue⟩ := map_eq_ok_iff.mp h
      cases htrue
      obtain ⟨hunused, -, rfl⟩ := Database.insertExecution_ok hinsert
      exact ⟨hunused, rfl, rfl, fun _ => rfl⟩
  · cases h

/-- A start that creates nothing leaves memory and tables as they are. -/
def Refused (state : State) (database : Database) (started : Started) : Prop :=
  started.run = none ∧ started.state = state ∧ started.database = database ∧
    ∀ view, started.reply ≠ .ok (true, view)

theorem refused_error {error : ManagerError} :
    Refused state database ⟨.error error, state, database, none⟩ :=
  ⟨rfl, rfl, rfl, fun _ h => by cases h⟩

theorem refused_unchanged {view : Workload} :
    Refused state database ⟨.ok (false, view), state, database, none⟩ :=
  ⟨rfl, rfl, rfl, fun _ h => by cases h⟩

theorem start_cases (host : Host) (session : String) (answer : Answer)
    (state : State) (database : Database) (id : String)
    (expectedKind : WorkloadKind) (exclusive : Bool)
    (enabledManagerSession : Option String) :
    let started := start host session answer state database id expectedKind
      exclusive enabledManagerSession
    Refused state database started ∨
      ∃ record accepted time, Creates host session answer state database id
        expectedKind started record accepted time := by
  intro started
  have hstarted : started = start host session answer state database id
    expectedKind exclusive enabledManagerSession := rfl
  clear_value started
  unfold start at hstarted
  dsimp only at hstarted
  split at hstarted
  · exact .inl (hstarted ▸ refused_error)
  rename_i hending
  split at hstarted
  · exact .inl (hstarted ▸ refused_error)
  rename_i record hrecord
  split at hstarted
  · exact .inl (hstarted ▸ refused_error)
  · exact .inl (hstarted ▸ refused_error)
  · split at hstarted
    · exact .inl (hstarted ▸ refused_error)
    · exact .inl (hstarted ▸ refused_unchanged)
  rename_i accepted hkind hdefinition hidle
  split at hstarted
  · exact .inl (hstarted ▸ refused_error)
  split at hstarted
  · exact .inl (hstarted ▸ refused_error)
  rename_i time hclock
  split at hstarted
  · exact .inl (hstarted ▸ refused_error)
  · rename_i after hinsert
    cases insertStarted_false hinsert
    exact .inl (hstarted ▸ refused_unchanged)
  · rename_i after hinsert
    obtain ⟨hunused, hexecutions, hgeneration, hworkloads⟩ :=
      insertStarted_true hinsert
    subst hstarted
    refine .inr ⟨record, accepted, _,
      { notEnding := by simpa using hending
        found := hrecord
        kind := ?_
        definition := hdefinition
        idle := hidle
        unused := hunused
        clock := hclock
        reply := ⟨_, rfl⟩
        state := rfl
        executions := hexecutions
        workloads := hworkloads
        generation := hgeneration
        run := rfl }⟩
    unfold ensureKind at hkind
    split at hkind
    · assumption
    · cases hkind

end Start

/-- `start` as a section: `spawn_execution` beside what the caller does. -/
def startSection (host : Host) (session : String) (answer : Answer)
    (situation : Situation) (id : String) (expectedKind : WorkloadKind)
    (exclusive : Bool) (enabledManagerSession : Option String)
    (next : List ManagerTask) : Outcome :=
  let started := start host session answer situation.state situation.database id
    expectedKind exclusive enabledManagerSession
  { state := started.state
    database := started.database
    processes := situation.processes
    tasks := (started.run.map ManagerTask.runPrepare).toList ++ next }

theorem startSection_cases (host : Host) (session : String) (answer : Answer)
    (situation : Situation) (id : String) (expectedKind : WorkloadKind)
    (exclusive : Bool) (enabledManagerSession : Option String)
    (next : List ManagerTask) :
    startSection host session answer situation id expectedKind exclusive
        enabledManagerSession next = situation.leave next ∨
      ∃ started record accepted time,
        Creates host session answer situation.state situation.database id
          expectedKind started record accepted time ∧
        startSection host session answer situation id expectedKind exclusive
            enabledManagerSession next =
          { state := started.state
            database := started.database
            processes := situation.processes
            tasks :=
              .runPrepare (startedRun id answer.uuid time
                (startedDefinition host session answer.uuid accepted)) ::
              next } := by
  unfold startSection
  dsimp only
  rcases start_cases host session answer situation.state situation.database id
    expectedKind exclusive enabledManagerSession with
    ⟨hrun, hstate, hdatabase, -⟩ | ⟨record, accepted, time, creates⟩
  · rw [hrun, hstate, hdatabase]
    exact .inl rfl
  · refine .inr ⟨_, record, accepted, time, creates, ?_⟩
    rw [creates.run]
    rfl

/-! ## One supervisor process after the other -/

def stoppedAttemptResult : AttemptResult where
  launched := false
  exitCode := none
  error := ""
  startedUnixMs := 0
  endedUnixMs := 0
  stopRequested := true
  forced := false
  outcome := none

/-- The end of `run_execution` after its loop. -/
def executionFinish (run : RunExecution) (result : AttemptResult)
    (cancelled : Bool) : ExecutionFinish where
  state :=
    match result.outcome.bind terminalState with
    | some outcome => outcome
    | none =>
        if cancelled ∨ result.stopRequested then
          match run.definition.kind with
          | .job => .cancelled
          | .service => .stopped
        else if result.exitCode.any (· ∈ run.definition.successExitCodes) then
          .completed
        else .failed
  exitCode := result.exitCode
  error := result.error
  supervisorProcessId := run.supervisorProcessId

/-- `io_finish` -/
def ioFinish (state : StateName) : ExecutionFinish :=
  ⟨state, none, "cannot access a file", 0⟩

/-- The supervisor has failed once more; eight failures are the limit. -/
def supervisorFailed (run : RunExecution) (unavailable : ExecutionFinish) :
    ManagerTask :=
  let run :=
    { run with
      supervisorFailures := saturatingAdd (2 ^ 32) run.supervisorFailures 1 }
  if 8 ≤ run.supervisorFailures then .completeLoad run unavailable
  else .runBackoff run

def supervisorUnavailable (run : RunExecution) : ExecutionFinish where
  state := .supervisorUnavailable
  exitCode := none
  error := "supervisor launch budget exhausted without a terminal result"
  supervisorProcessId := run.supervisorProcessId

def isAlive (processes : List SupervisorProcess) (process : Nat) : Bool :=
  processes[process]?.any SupervisorProcess.alive

def endProcess (processes : List SupervisorProcess) (process : Nat) :
    List SupervisorProcess :=
  processes.modify process fun started => { started with alive := false }

/-! ## Sections -/

/-- `reload` up to its first storage call: an error, or what is to be done. -/
def reloadTasks (candidate : Option Candidate) (state : State)
    (caller : Caller) : Option ManagerError × List ManagerTask :=
  match candidate with
  | none => (some .config, caller.tasks)
  | some candidate =>
      match state.kindChangeActive candidate.stored with
      | some id => (some (.kindChangeActive id), caller.tasks)
      | none => (none,
          [.replaceDefinitions candidate.generation candidate.stored caller])

def enabledIds (state : State) (kind : WorkloadKind) : List String :=
  ((state.workloads.toList.filter fun entry =>
    entry.2.enabled ∧ entry.2.kind = kind).map Prod.fst).insertionSort (· ≤ ·)

/-- The next section of a task; nothing while it waits. -/
def ManagerTask.advance (host : Host) (session : String) (now : Nat) (answer : Answer)
    (situation : Situation) : ManagerTask → Option Outcome
  | .initialReload =>
      some (situation.leave
        (reloadTasks answer.candidate situation.state .startup).2)
  | .startRecoveryMonitors =>
      let detached := (situation.state.active.toList.filter fun entry =>
        !entry.2.locallyOwned).map fun entry => entry.2.executionId
      some (situation.leave (.startEnabled :: detached.map .monitorLoad))
  | .startEnabled =>
      some (situation.leave
        [.startEnabledServices (enabledIds situation.state .service)
          (enabledIds situation.state .job)])
  | .startEnabledServices [] jobs =>
      some (situation.leave
        (if session = "" then [] else [.startEnabledJobs jobs]))
  | .startEnabledServices (id :: services) jobs =>
      some (startSection host session answer situation id .service false none
        [.startEnabledServices services jobs])
  | .startEnabledJobs [] => some (situation.leave [])
  | .startEnabledJobs (id :: jobs) =>
      some (startSection host session answer situation id .job true
        (some session) [.startEnabledJobs jobs])
  | .replaceDefinitions generation definitions caller =>
      if answer.stored then
        let (changed, database) :=
          situation.database.replaceDefinitions generation definitions
        some ((situation.withDatabase database).leave
          [if changed then .loadWorkloads caller else .keepReload caller])
      else some (situation.leave caller.tasks)
  | .loadWorkloads caller =>
      if answer.stored then
        some (situation.leave
          [.applyReload situation.database.loadWorkloads caller])
      else some (situation.leave caller.tasks)
  | .applyReload persisted caller =>
      some ((situation.withState
        (situation.state.applyReload host persisted)).leave caller.tasks)
  | .keepReload caller =>
      some ((situation.withState
        (situation.state.keepReload host)).leave caller.tasks)
  | .setEnabled id enabled changed =>
      some ((situation.withState
        (situation.state.setEnabled id enabled changed).2).leave [])
  | .rerunJob id active =>
      if active then
        some ((situation.withState
          (situation.state.cancel id .job true).2).leave [])
      else
        some (startSection host session answer situation id .job true none [])
  | .monitorLoad executionId =>
      match situation.database.getExecution executionId, answer.stored with
      | some stored, true =>
          some (situation.leave
            [.monitorPoll executionId stored (now + recoveryMillis) true])
      | _, _ => some (situation.leave [])
  | .monitorPoll executionId stored replacementAt wasRecovering =>
      match answer.result with
      | some result => some (situation.leave [.terminalLoad executionId result])
      | none =>
          some (situation.leave
            [.monitorTick executionId stored replacementAt wasRecovering])
  | .monitorTick executionId stored replacementAt wasRecovering =>
      match situation.state.monitorTick executionId now replacementAt
        wasRecovering with
      | (.gone, _) => some (situation.leave [])
      | (.waiting replacementAt wasRecovering, _) =>
          some (situation.leave
            [.monitorPoll executionId stored replacementAt wasRecovering])
      | (.replace workloadId, state) =>
          some ((situation.withState state).leave
            [.runPrepare (startedRun workloadId executionId
              stored.startedUnixMs
              { stored.snapshot with executionId := executionId })])
  | .terminalLoad executionId result =>
      match situation.database.getExecution executionId, answer.stored with
      | some stored, true =>
          some (situation.leave [.terminalRemove executionId stored result])
      | _, _ => some (situation.leave [])
  | .terminalRemove executionId stored result =>
      match situation.state.supervisorTerminal executionId stored result with
      | none => some (situation.leave [])
      | some (outcome, restart, state) =>
          some ((situation.withState state).leave
            [.terminalFinish executionId stored outcome result restart])
  | .terminalFinish executionId stored outcome result restart =>
      match unixMs answer.systemTime, answer.stored with
      | some ended, true =>
          some ((situation.withDatabase
            (situation.database.finishExecution executionId
              { stored with
                state := outcome
                workloadProcessId := 0
                endedUnixMs := ended
                exitCode := result.exitCode
                error := result.error })).leave
            (if restart then [.replacementKind stored.workloadId .client]
            else []))
      | _, _ => some (situation.leave [])
  | .replacementKind workloadId caller =>
      match situation.state.workloads.lookup workloadId with
      | none => some (situation.leave caller.tasks)
      | some record =>
          some (situation.leave
            [.replacementStart workloadId record.kind caller])
  | .replacementStart workloadId kind caller =>
      some (startSection host session answer situation workloadId kind
        (kind = .job) none caller.tasks)
  | .attachSupervisor hello stored =>
      -- No identifier is handed out twice.
      if situation.state.receivers.any (·.attachmentId = answer.uuid) then none
      else
        match situation.state.attachSupervisor host hello stored
          answer.uuid with
        | .error _ => some (situation.leave [])
        | .ok (false, state) =>
            some ((situation.withState state.bump).leave
              [.stream answer.uuid hello.executionId])
        | .ok (true, state) =>
            if answer.stored then
              some
                { state := state.bump
                  database := situation.database.setExecutionSupervisor
                    hello.executionId hello.supervisorProcessId
                  processes := situation.processes
                  tasks := [.stream answer.uuid hello.executionId] }
            else
              some ((situation.withState
                (state.dropReceiver answer.uuid)).leave [])
  | .stream attachmentId executionId =>
      let close := situation.leave [.streamClosed attachmentId executionId]
      match answer.interrupted, answer.observation with
      | true, _ => some close
      | false, some observation =>
          match situation.database.getExecution executionId, answer.stored with
          | some stored, true =>
              some (situation.leave
                [.recordCheck attachmentId executionId stored observation])
          | _, _ => some close
      | false, none =>
          match situation.state.receivers.find?
            (·.attachmentId = attachmentId) with
          | none => some close
          | some receiver =>
              match receiver.queue with
              | [] =>
                  if (situation.state.active.findEntry
                    (·.executionId = executionId)).isSome then none
                  else some close
              | command :: queue =>
                  if commandCapacity < receiver.queue.length then some close
                  else
                    some ((situation.withState
                      { situation.state with
                        receivers := situation.state.receivers.map fun other =>
                          if other.attachmentId = attachmentId then
                            { other with
                              queue := queue
                              stream := other.stream ++ [command] }
                          else other }).leave
                      [.stream attachmentId executionId])
  | .recordCheck attachmentId executionId stored observation =>
      some (situation.leave
        [.recordCommit attachmentId executionId stored observation
          (situation.state.terminalUpdate executionId stored observation
            answer.systemTime)])
  | .recordCommit attachmentId executionId stored observation terminal =>
      let update :=
        match terminal, progressObservation observation with
        | some terminal, _ => ObservationUpdate.terminal terminal
        | none, some progress => .progress progress
        | none, none => .acknowledge
      match situation.database.commitObservation executionId
        observation.sequence update, answer.stored with
      | .ok (committed, database), true =>
          some ((situation.withDatabase database).leave
            [if committed then
              match terminal with
              | some terminal => .recordTerminal attachmentId executionId
                  stored terminal.state
              | none => .recordProgress attachmentId executionId stored
                  observation
            else .stream attachmentId executionId])
      | _, _ => some (situation.leave [.streamClosed attachmentId executionId])
  | .recordTerminal attachmentId executionId stored outcome =>
      match situation.state.recordTerminal executionId stored outcome with
      | (restart, state) =>
          some ((situation.withState state).leave
            [if restart then
              .replacementKind stored.workloadId
                (.stream attachmentId executionId)
            else .stream attachmentId executionId])
  | .recordProgress attachmentId executionId stored observation =>
      some ((situation.withState
        (situation.state.recordProgress executionId stored observation)).leave
        [.stream attachmentId executionId])
  | .streamClosed attachmentId executionId =>
      some ((situation.withState
        ((situation.state.supervisorDisconnected executionId
          attachmentId).dropReceiver attachmentId)).leave [])
  | .runPrepare run =>
      some (situation.leave
        [if answer.written then .runLoop run
        else .completeLoad run (ioFinish .failed)])
  | .runLoop run =>
      if situation.state.isCancelled run.executionId then
        some (situation.leave
          [.completeLoad run (executionFinish run stoppedAttemptResult true)])
      else
        match answer.spawned with
        | none =>
            some (situation.leave
              [supervisorFailed run (ioFinish .supervisorUnavailable)])
        | some processId =>
            some
              { state := situation.state
                database := situation.database
                processes := situation.processes ++
                  [⟨run.executionId, processId, true⟩]
                tasks :=
                  [.runSpawned { run with supervisorProcessId := processId }
                    situation.processes.length] }
  | .runSpawned run process =>
      some ((if answer.stored then
          situation.withDatabase (situation.database.setExecutionSupervisor
            run.executionId run.supervisorProcessId)
        else situation).leave [.runLaunching run process])
  | .runLaunching run process =>
      some ((situation.withState
        (situation.state.supervisorLaunching run.workloadId run.executionId
          run.supervisorProcessId)).leave [.runWaiting run process])
  | .runWaiting run process =>
      if situation.state.isCancelled run.executionId ∧
          answer.interrupted then
        some (situation.leave [.runStopping run process])
      else if isAlive situation.processes process then none
      else some (situation.leave [.runExited run false])
  | .runStopping run process =>
      if isAlive situation.processes process ∧ !answer.interrupted then none
      else
        some
          { state := situation.state
            database := situation.database
            processes := endProcess situation.processes process
            tasks := [.runExited run true] }
  | .runExited run cancelled =>
      match answer.result, cancelled with
      | some result, _ =>
          some (situation.leave
            [.completeLoad run (executionFinish run result cancelled)])
      | none, true =>
          some (situation.leave
            [.completeLoad run (executionFinish run stoppedAttemptResult true)])
      | none, false =>
          some (situation.leave
            [supervisorFailed run (supervisorUnavailable run)])
  | .runBackoff run =>
      if situation.state.isCancelled run.executionId ∧
          answer.interrupted then
        some (situation.leave
          [.completeLoad run (executionFinish run stoppedAttemptResult true)])
      else some (situation.leave [.runLoop run])
  | .completeLoad run finish =>
      match situation.database.getExecution run.executionId, answer.stored with
      | some stored, true =>
          some (situation.leave [.completeFinish run finish stored])
      | _, _ => some (situation.leave [.completeRemove run finish])
  | .completeFinish run finish stored =>
      some ((if answer.stored then
          situation.withDatabase (situation.database.finishExecution
            run.executionId
            { stored with
              state := finish.state
              supervisorProcessId := finish.supervisorProcessId
              workloadProcessId := 0
              endedUnixMs := (unixMs answer.systemTime).getD run.started
              exitCode := finish.exitCode
              error := finish.error })
        else situation).leave [.completeRemove run finish])
  | .completeRemove run finish =>
      match situation.state.completeExecution run.workloadId run.executionId
        finish.state with
      | (restart, state) =>
          some ((situation.withState state).leave
            (if restart then [.replacementKind run.workloadId .client]
            else []))

end Susm.Controller
