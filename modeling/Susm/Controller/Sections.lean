import Susm.Controller.World

/-!
# The sections of the manager

What the next section of a task can do, one constructor for each way it can go.
Every property of the tasks is derived from this relation.
-/

namespace Susm.Controller

open Susm.Foundation
open Susm.Protocol

/-- The tasks that give up without doing anything. -/
inductive GivesUp (answer : Answer) :
    ManagerTask → List ManagerTask → Prop where
  | replaceDefinitions {generation : List UInt8}
      {definitions : List (String × StoredWorkload)} {caller : Caller} :
      GivesUp answer (.replaceDefinitions generation definitions caller) caller.tasks
  | loadWorkloads {caller : Caller} :
      GivesUp answer (.loadWorkloads caller) caller.tasks
  | jobsDone : GivesUp answer (.startEnabledJobs []) []
  | monitorLoad {executionId : String} : GivesUp answer (.monitorLoad executionId) []
  | monitorGone {executionId : String} {stored : StoredExecution}
      {replacementAt : Nat} {wasRecovering : Bool} :
      GivesUp answer (.monitorTick executionId stored replacementAt wasRecovering) []
  | terminalLoad {executionId : String} {result : AttemptResult} :
      GivesUp answer (.terminalLoad executionId result) []
  | terminalRemove {executionId : String} {stored : StoredExecution}
      {result : AttemptResult} :
      GivesUp answer (.terminalRemove executionId stored result) []
  | terminalFinish {executionId : String} {stored : StoredExecution}
      {outcome : StateName} {result : AttemptResult} {restart : Bool}
      (failed : unixMs answer.systemTime = none ∨ answer.stored = false) :
      GivesUp answer
        (.terminalFinish executionId stored outcome result restart) []
  | replacementKind {workloadId : String} {caller : Caller} :
      GivesUp answer (.replacementKind workloadId caller) caller.tasks
  | attachSupervisor {hello : Hello} {stored : StoredExecution} :
      GivesUp answer (.attachSupervisor hello stored) []
  | stream {attachmentId executionId : String} :
      GivesUp answer (.stream attachmentId executionId)
        [.streamClosed attachmentId executionId]
  | recordCommit {attachmentId executionId : String}
      {stored : StoredExecution} {observation : SupervisorObservation}
      {terminal : Option TerminalObservation} :
      GivesUp answer
        (.recordCommit attachmentId executionId stored observation terminal)
        [.streamClosed attachmentId executionId]

/-- The observation update that `record_supervisor_observation` commits. -/
def observationUpdate (observation : SupervisorObservation)
    (terminal : Option TerminalObservation) : ObservationUpdate :=
  match terminal, progressObservation observation with
  | some terminal, _ => .terminal terminal
  | none, some progress => .progress progress
  | none, none => .acknowledge

inductive Section (host : Host) (session : String) (now : Nat)
    (answer : Answer) (situation : Situation) :
    ManagerTask → Outcome → Prop where
  | givesUp {task : ManagerTask} {tasks : List ManagerTask}
      (h : GivesUp answer task tasks) :
      Section host session now answer situation task (situation.leave tasks)
  | initialReload : Section host session now answer situation .initialReload
      (situation.leave
        (reloadTasks answer.candidate situation.state .startup).2)
  | startRecoveryMonitors :
      Section host session now answer situation .startRecoveryMonitors
        (situation.leave (.startEnabled ::
          ((situation.state.active.toList.filter fun entry =>
            !entry.2.locallyOwned).map
              fun entry => entry.2.executionId).map .monitorLoad))
  | startEnabled : Section host session now answer situation .startEnabled
      (situation.leave
        [.startEnabledServices (enabledIds situation.state .service)
          (enabledIds situation.state .job)])
  | servicesDone {jobs : List String} :
      Section host session now answer situation (.startEnabledServices [] jobs)
        (situation.leave
          (if session = "" then [] else [.startEnabledJobs jobs]))
  | startService {id : String} {services jobs : List String} :
      Section host session now answer situation
        (.startEnabledServices (id :: services) jobs)
        (startSection host session answer situation id .service false none
          [.startEnabledServices services jobs])
  | startJob {id : String} {jobs : List String} :
      Section host session now answer situation
        (.startEnabledJobs (id :: jobs))
        (startSection host session answer situation id .job true
          (some session) [.startEnabledJobs jobs])
  | replaceDefinitions {generation : List UInt8}
      {definitions : List (String × StoredWorkload)} {caller : Caller} :
      Section host session now answer situation
        (.replaceDefinitions generation definitions caller)
        ((situation.withDatabase (situation.database.replaceDefinitions
          generation definitions).2).leave
          [if (situation.database.replaceDefinitions generation definitions).1
            then .loadWorkloads caller else .keepReload caller])
  | loadWorkloads {caller : Caller} :
      Section host session now answer situation (.loadWorkloads caller)
        (situation.leave
          [.applyReload situation.database.loadWorkloads caller])
  | applyReload {persisted : List (String × StoredWorkload)}
      {caller : Caller} :
      Section host session now answer situation (.applyReload persisted caller)
        ((situation.withState
          (situation.state.applyReload host persisted)).leave caller.tasks)
  | keepReload {caller : Caller} :
      Section host session now answer situation (.keepReload caller)
        ((situation.withState
          (situation.state.keepReload host)).leave caller.tasks)
  | setEnabled {id : String} {enabled changed : Bool} :
      Section host session now answer situation
        (.setEnabled id enabled changed)
        ((situation.withState
          (situation.state.setEnabled id enabled changed).2).leave [])
  | rerunActive {id : String} :
      Section host session now answer situation (.rerunJob id true)
        ((situation.withState (situation.state.cancel id .job true).2).leave [])
  | rerunIdle {id : String} :
      Section host session now answer situation (.rerunJob id false)
        (startSection host session answer situation id .job true none [])
  | monitorLoaded {executionId : String} {stored : StoredExecution}
      (found : situation.database.getExecution executionId = some stored) :
      Section host session now answer situation (.monitorLoad executionId)
        (situation.leave
          [.monitorPoll executionId stored (now + recoveryMillis) true])
  | monitorTerminal {executionId : String} {stored : StoredExecution}
      {replacementAt : Nat} {wasRecovering : Bool} {result : AttemptResult} :
      Section host session now answer situation
        (.monitorPoll executionId stored replacementAt wasRecovering)
        (situation.leave [.terminalLoad executionId result])
  | monitorPolled {executionId : String} {stored : StoredExecution}
      {replacementAt : Nat} {wasRecovering : Bool} :
      Section host session now answer situation
        (.monitorPoll executionId stored replacementAt wasRecovering)
        (situation.leave
          [.monitorTick executionId stored replacementAt wasRecovering])
  | monitorWaits {executionId : String} {stored : StoredExecution}
      {replacementAt nextAt : Nat} {wasRecovering recovering : Bool} :
      Section host session now answer situation
        (.monitorTick executionId stored replacementAt wasRecovering)
        (situation.leave [.monitorPoll executionId stored nextAt recovering])
  | monitorReplaces {executionId workloadId : String}
      {stored : StoredExecution} {replacementAt : Nat} {wasRecovering : Bool}
      {state : State}
      (ticked : situation.state.monitorTick executionId now replacementAt
        wasRecovering = (.replace workloadId, state)) :
      Section host session now answer situation
        (.monitorTick executionId stored replacementAt wasRecovering)
        ((situation.withState state).leave
          [.runPrepare (startedRun workloadId executionId
            stored.startedUnixMs
            { stored.snapshot with executionId := executionId })])
  | terminalLoaded {executionId : String} {stored : StoredExecution}
      {result : AttemptResult}
      (found : situation.database.getExecution executionId = some stored) :
      Section host session now answer situation
        (.terminalLoad executionId result)
        (situation.leave [.terminalRemove executionId stored result])
  | terminalRemoved {executionId : String} {stored : StoredExecution}
      {result : AttemptResult} {outcome : StateName} {restart : Bool}
      {state : State}
      (removed : situation.state.supervisorTerminal executionId stored result =
        some (outcome, restart, state)) :
      Section host session now answer situation
        (.terminalRemove executionId stored result)
        ((situation.withState state).leave
          [.terminalFinish executionId stored outcome result restart])
  | terminalFinished {executionId : String} {stored : StoredExecution}
      {outcome : StateName} {result : AttemptResult} {restart : Bool}
      {ended : Int} (clock : unixMs answer.systemTime = some ended)
      (succeeded : answer.stored = true) :
      Section host session now answer situation
        (.terminalFinish executionId stored outcome result restart)
        ((situation.withDatabase
          (situation.database.finishExecution executionId
            { stored with
              state := outcome
              workloadProcessId := 0
              endedUnixMs := ended
              exitCode := result.exitCode
              error := result.error })).leave
          (if restart then [.replacementKind stored.workloadId .client]
          else []))
  | replacementKind {workloadId : String} {caller : Caller}
      {record : WorkloadRecord}
      (found : situation.state.workloads.lookup workloadId = some record) :
      Section host session now answer situation
        (.replacementKind workloadId caller)
        (situation.leave [.replacementStart workloadId record.kind caller])
  | replacementStart {workloadId : String} {kind : WorkloadKind}
      {caller : Caller} :
      Section host session now answer situation
        (.replacementStart workloadId kind caller)
        (startSection host session answer situation workloadId kind
          (kind = .job) none caller.tasks)
  | attached {hello : Hello} {stored : StoredExecution} {state : State}
      (unused : situation.state.receivers.any
        (·.attachmentId = answer.uuid) = false)
      (accepted : situation.state.attachSupervisor host hello stored
        answer.uuid = .ok (false, state)) :
      Section host session now answer situation
        (.attachSupervisor hello stored)
        ((situation.withState state.bump).leave
          [.stream answer.uuid hello.executionId])
  | attachedLocally {hello : Hello} {stored : StoredExecution} {state : State}
      (unused : situation.state.receivers.any
        (·.attachmentId = answer.uuid) = false)
      (accepted : situation.state.attachSupervisor host hello stored
        answer.uuid = .ok (true, state))
      (succeeded : answer.stored = true) :
      Section host session now answer situation
        (.attachSupervisor hello stored)
        { state := state.bump
          database := situation.database.setExecutionSupervisor
            hello.executionId hello.supervisorProcessId
          processes := situation.processes
          tasks := [.stream answer.uuid hello.executionId] }
  | attachUnstored {hello : Hello} {stored : StoredExecution} {state : State}
      (unused : situation.state.receivers.any
        (·.attachmentId = answer.uuid) = false)
      (accepted : situation.state.attachSupervisor host hello stored
        answer.uuid = .ok (true, state)) :
      Section host session now answer situation
        (.attachSupervisor hello stored)
        ((situation.withState (state.dropReceiver answer.uuid)).leave [])
  | streamObserved {attachmentId executionId : String}
      {stored : StoredExecution} {observation : SupervisorObservation}
      (found : situation.database.getExecution executionId = some stored) :
      Section host session now answer situation
        (.stream attachmentId executionId)
        (situation.leave
          [.recordCheck attachmentId executionId stored observation])
  | streamForwarded {attachmentId executionId : String} {receiver : Receiver}
      {command : ExecutionCommand} {queue : List ExecutionCommand}
      (found : situation.state.receivers.find?
        (·.attachmentId = attachmentId) = some receiver)
      (waiting : receiver.queue = command :: queue) :
      Section host session now answer situation
        (.stream attachmentId executionId)
        ((situation.withState
          { situation.state with
            receivers := situation.state.receivers.map fun other =>
              if other.attachmentId = attachmentId then
                { other with
                  queue := queue
                  stream := other.stream ++ [command] }
              else other }).leave
          [.stream attachmentId executionId])
  | recordCheck {attachmentId executionId : String}
      {stored : StoredExecution} {observation : SupervisorObservation} :
      Section host session now answer situation
        (.recordCheck attachmentId executionId stored observation)
        (situation.leave
          [.recordCommit attachmentId executionId stored observation
            (situation.state.terminalUpdate executionId stored observation
              answer.systemTime)])
  | recordRepeated {attachmentId executionId : String}
      {stored : StoredExecution} {observation : SupervisorObservation}
      {terminal : Option TerminalObservation} {database : Database}
      (committed : situation.database.commitObservation executionId
        observation.sequence (observationUpdate observation terminal) =
          .ok (false, database)) :
      Section host session now answer situation
        (.recordCommit attachmentId executionId stored observation terminal)
        ((situation.withDatabase database).leave
          [.stream attachmentId executionId])
  | recordEnded {attachmentId executionId : String}
      {stored : StoredExecution} {observation : SupervisorObservation}
      {terminal : TerminalObservation} {database : Database}
      (committed : situation.database.commitObservation executionId
        observation.sequence (.terminal terminal) = .ok (true, database))
      (succeeded : answer.stored = true) :
      Section host session now answer situation
        (.recordCommit attachmentId executionId stored observation
          (some terminal))
        ((situation.withDatabase database).leave
          [.recordTerminal attachmentId executionId stored terminal.state])
  | recordAdvanced {attachmentId executionId : String}
      {stored : StoredExecution} {observation : SupervisorObservation}
      {database : Database}
      (committed : situation.database.commitObservation executionId
        observation.sequence (observationUpdate observation none) =
          .ok (true, database))
      (succeeded : answer.stored = true) :
      Section host session now answer situation
        (.recordCommit attachmentId executionId stored observation none)
        ((situation.withDatabase database).leave
          [.recordProgress attachmentId executionId stored observation])
  | recordTerminal {attachmentId executionId : String}
      {stored : StoredExecution} {outcome : StateName} :
      Section host session now answer situation
        (.recordTerminal attachmentId executionId stored outcome)
        ((situation.withState (situation.state.recordTerminal executionId stored
          outcome).2).leave
          [if (situation.state.recordTerminal executionId stored outcome).1 then
              .replacementKind stored.workloadId
                (.stream attachmentId executionId)
            else .stream attachmentId executionId])
  | recordProgress {attachmentId executionId : String}
      {stored : StoredExecution} {observation : SupervisorObservation} :
      Section host session now answer situation
        (.recordProgress attachmentId executionId stored observation)
        ((situation.withState (situation.state.recordProgress executionId stored
          observation)).leave [.stream attachmentId executionId])
  | streamClosed {attachmentId executionId : String} :
      Section host session now answer situation
        (.streamClosed attachmentId executionId)
        ((situation.withState
          ((situation.state.supervisorDisconnected executionId
            attachmentId).dropReceiver attachmentId)).leave [])
  | runPrepared {run : RunExecution} :
      Section host session now answer situation (.runPrepare run)
        (situation.leave [.runLoop run])
  | runUnprepared {run : RunExecution} :
      Section host session now answer situation (.runPrepare run)
        (situation.leave [.completeLoad run (ioFinish .failed)])
  | runCancelled {run : RunExecution} {task : ManagerTask}
      (waiting : task = .runLoop run ∨ task = .runBackoff run ∨
        task = .runExited run true) :
      Section host session now answer situation task
        (situation.leave
          [.completeLoad run (executionFinish run stoppedAttemptResult true)])
  | runUnspawned {run : RunExecution} :
      Section host session now answer situation (.runLoop run)
        (situation.leave
          [supervisorFailed run (ioFinish .supervisorUnavailable)])
  | runSpawns {run : RunExecution} {processId : Nat} :
      Section host session now answer situation (.runLoop run)
        { state := situation.state
          database := situation.database
          processes := situation.processes ++
            [⟨run.executionId, processId, true⟩]
          tasks :=
            [.runSpawned { run with supervisorProcessId := processId }
              situation.processes.length] }
  | runStored {run : RunExecution} {process : Nat}
      (succeeded : answer.stored = true) :
      Section host session now answer situation (.runSpawned run process)
        ((situation.withDatabase (situation.database.setExecutionSupervisor
          run.executionId run.supervisorProcessId)).leave
          [.runLaunching run process])
  | runUnstored {run : RunExecution} {process : Nat} :
      Section host session now answer situation (.runSpawned run process)
        (situation.leave [.runLaunching run process])
  | runLaunching {run : RunExecution} {process : Nat} :
      Section host session now answer situation (.runLaunching run process)
        ((situation.withState
          (situation.state.supervisorLaunching run.workloadId run.executionId
            run.supervisorProcessId)).leave [.runWaiting run process])
  | runStops {run : RunExecution} {process : Nat} :
      Section host session now answer situation (.runWaiting run process)
        (situation.leave [.runStopping run process])
  | runEnded {run : RunExecution} {process : Nat}
      (dead : isAlive situation.processes process = false) :
      Section host session now answer situation (.runWaiting run process)
        (situation.leave [.runExited run false])
  | runStopped {run : RunExecution} {process : Nat} :
      Section host session now answer situation (.runStopping run process)
        { state := situation.state
          database := situation.database
          processes := endProcess situation.processes process
          tasks := [.runExited run true] }
  | runResult {run : RunExecution} {result : AttemptResult}
      {cancelled : Bool} :
      Section host session now answer situation (.runExited run cancelled)
        (situation.leave
          [.completeLoad run (executionFinish run result cancelled)])
  | runFailed {run : RunExecution} :
      Section host session now answer situation (.runExited run false)
        (situation.leave [supervisorFailed run (supervisorUnavailable run)])
  | runRetries {run : RunExecution} :
      Section host session now answer situation (.runBackoff run)
        (situation.leave [.runLoop run])
  | completeLoaded {run : RunExecution} {finish : ExecutionFinish}
      {stored : StoredExecution}
      (found : situation.database.getExecution run.executionId = some stored) :
      Section host session now answer situation (.completeLoad run finish)
        (situation.leave [.completeFinish run finish stored])
  | completeUnloaded {run : RunExecution} {finish : ExecutionFinish}
      (failed : situation.database.getExecution run.executionId = none ∨
        answer.stored = false) :
      Section host session now answer situation (.completeLoad run finish)
        (situation.leave [.completeRemove run finish])
  | completeFinished {run : RunExecution} {finish : ExecutionFinish}
      {stored : StoredExecution} (succeeded : answer.stored = true) :
      Section host session now answer situation
        (.completeFinish run finish stored)
        ((situation.withDatabase (situation.database.finishExecution
          run.executionId
          { stored with
            state := finish.state
            supervisorProcessId := finish.supervisorProcessId
            workloadProcessId := 0
            endedUnixMs := (unixMs answer.systemTime).getD run.started
            exitCode := finish.exitCode
            error := finish.error })).leave [.completeRemove run finish])
  | completeUnfinished {run : RunExecution} {finish : ExecutionFinish}
      {stored : StoredExecution} (failed : answer.stored = false) :
      Section host session now answer situation
        (.completeFinish run finish stored)
        (situation.leave [.completeRemove run finish])
  | completeRemoved {run : RunExecution} {finish : ExecutionFinish} :
      Section host session now answer situation (.completeRemove run finish)
        ((situation.withState
          (situation.state.completeExecution run.workloadId run.executionId
            finish.state).2).leave
          (if (situation.state.completeExecution run.workloadId run.executionId
            finish.state).1 then [.replacementKind run.workloadId .client]
          else []))

section Inversion

variable {host : Host} {session : String} {now : Nat} {answer : Answer}
  {situation : Situation} {outcome : Outcome}

theorem ManagerTask.advance_section {task : ManagerTask}
    (advanced : task.advance host session now answer situation = some outcome) :
    Section host session now answer situation task outcome := by
  cases task with
  | initialReload =>
      cases advanced
      exact .initialReload
  | startRecoveryMonitors =>
      cases advanced
      exact .startRecoveryMonitors
  | startEnabled =>
      cases advanced
      exact .startEnabled
  | startEnabledServices services jobs =>
      cases services with
      | nil =>
          cases advanced
          exact .servicesDone
      | cons id services =>
          cases advanced
          exact .startService
  | startEnabledJobs jobs =>
      cases jobs with
      | nil =>
          cases advanced
          exact .givesUp .jobsDone
      | cons id jobs =>
          cases advanced
          exact .startJob
  | replaceDefinitions generation definitions caller =>
      simp only [advance] at advanced
      split at advanced
      · cases advanced
        exact .replaceDefinitions
      · cases advanced
        exact .givesUp .replaceDefinitions
  | loadWorkloads caller =>
      simp only [advance] at advanced
      split at advanced
      · cases advanced
        exact .loadWorkloads
      · cases advanced
        exact .givesUp .loadWorkloads
  | applyReload persisted caller =>
      cases advanced
      exact .applyReload
  | keepReload caller =>
      cases advanced
      exact .keepReload
  | setEnabled id enabled changed =>
      cases advanced
      exact .setEnabled
  | rerunJob id active =>
      cases active with
      | true =>
          cases advanced
          exact .rerunActive
      | false =>
          cases advanced
          exact .rerunIdle
  | monitorLoad executionId =>
      simp only [advance] at advanced
      split at advanced
      · rename_i stored hfound _
        cases advanced
        exact .monitorLoaded hfound
      · cases advanced
        exact .givesUp .monitorLoad
  | monitorPoll executionId stored replacementAt wasRecovering =>
      simp only [advance] at advanced
      split at advanced
      · cases advanced
        exact .monitorTerminal
      · cases advanced
        exact .monitorPolled
  | monitorTick executionId stored replacementAt wasRecovering =>
      simp only [advance] at advanced
      split at advanced
      · cases advanced
        exact .givesUp .monitorGone
      · cases advanced
        exact .monitorWaits
      · rename_i hticked
        cases advanced
        exact .monitorReplaces hticked
  | terminalLoad executionId result =>
      simp only [advance] at advanced
      split at advanced
      · rename_i stored hfound _
        cases advanced
        exact .terminalLoaded hfound
      · cases advanced
        exact .givesUp .terminalLoad
  | terminalRemove executionId stored result =>
      simp only [advance] at advanced
      split at advanced
      · cases advanced
        exact .givesUp .terminalRemove
      · rename_i hremoved
        cases advanced
        exact .terminalRemoved hremoved
  | terminalFinish executionId stored outcome result restart =>
      simp only [advance] at advanced
      split at advanced
      · rename_i ended hclock hstored
        cases advanced
        exact .terminalFinished hclock hstored
      · rename_i hfailed
        cases advanced
        refine .givesUp (.terminalFinish ?_)
        cases hclock : unixMs answer.systemTime with
        | none => exact .inl rfl
        | some ended =>
            cases hstored : answer.stored with
            | true => exact absurd hstored (hfailed ended hclock)
            | false => exact .inr rfl
  | replacementKind workloadId caller =>
      simp only [advance] at advanced
      split at advanced
      · cases advanced
        exact .givesUp .replacementKind
      · rename_i hfound
        cases advanced
        exact .replacementKind hfound
  | replacementStart workloadId kind caller =>
      cases advanced
      exact .replacementStart
  | attachSupervisor hello stored =>
      simp only [advance] at advanced
      split at advanced
      · cases advanced
      rename_i hunused
      rw [Bool.not_eq_true] at hunused
      split at advanced
      · cases advanced
        exact .givesUp .attachSupervisor
      · rename_i haccepted
        cases advanced
        exact .attached hunused haccepted
      · rename_i haccepted
        split at advanced
        · rename_i hstored
          cases advanced
          exact .attachedLocally hunused haccepted hstored
        · cases advanced
          exact .attachUnstored hunused haccepted
  | stream attachmentId executionId =>
      simp only [advance] at advanced
      split at advanced
      · cases advanced
        exact .givesUp .stream
      · split at advanced
        · rename_i hfound _
          cases advanced
          exact .streamObserved hfound
        · cases advanced
          exact .givesUp .stream
      · split at advanced
        · cases advanced
          exact .givesUp .stream
        · rename_i hfound
          split at advanced
          · split at advanced
            · cases advanced
            · cases advanced
              exact .givesUp .stream
          · rename_i hwaiting
            split at advanced
            · cases advanced
              exact .givesUp .stream
            · cases advanced
              exact .streamForwarded hfound hwaiting
  | recordCheck attachmentId executionId stored observation =>
      cases advanced
      exact .recordCheck
  | recordCommit attachmentId executionId stored observation terminal =>
      unfold advance at advanced
      dsimp only at advanced
      split at advanced
      · rename_i committed database hcommitted hstored
        cases committed with
        | false =>
            cases advanced
            exact .recordRepeated hcommitted
        | true =>
            cases terminal with
            | none =>
                cases advanced
                exact .recordAdvanced hcommitted hstored
            | some terminal =>
                cases advanced
                exact .recordEnded hcommitted hstored
      · cases advanced
        exact .givesUp .recordCommit
  | recordTerminal attachmentId executionId stored outcome =>
      cases advanced
      exact .recordTerminal
  | recordProgress attachmentId executionId stored observation =>
      cases advanced
      exact .recordProgress
  | streamClosed attachmentId executionId =>
      cases advanced
      exact .streamClosed
  | runPrepare run =>
      cases advanced
      split
      · exact .runPrepared
      · exact .runUnprepared
  | runLoop run =>
      simp only [advance] at advanced
      split at advanced
      · cases advanced
        exact .runCancelled (.inl rfl)
      · split at advanced
        · cases advanced
          exact .runUnspawned
        · cases advanced
          exact .runSpawns
  | runSpawned run process =>
      cases advanced
      split
      · rename_i hstored
        exact .runStored hstored
      · exact .runUnstored
  | runLaunching run process =>
      cases advanced
      exact .runLaunching
  | runWaiting run process =>
      simp only [advance] at advanced
      split at advanced
      · cases advanced
        exact .runStops
      · split at advanced
        · cases advanced
        · rename_i hdead
          cases advanced
          exact .runEnded (by simpa using hdead)
  | runStopping run process =>
      simp only [advance] at advanced
      split at advanced
      · cases advanced
      · cases advanced
        exact .runStopped
  | runExited run cancelled =>
      simp only [advance] at advanced
      split at advanced
      · cases advanced
        exact .runResult
      · cases advanced
        exact .runCancelled (.inr (.inr rfl))
      · cases advanced
        exact .runFailed
  | runBackoff run =>
      simp only [advance] at advanced
      split at advanced
      · cases advanced
        exact .runCancelled (.inr (.inl rfl))
      · cases advanced
        exact .runRetries
  | completeLoad run finish =>
      simp only [advance] at advanced
      split at advanced
      · rename_i hfound _
        cases advanced
        exact .completeLoaded hfound
      · rename_i hfailed
        cases advanced
        refine .completeUnloaded ?_
        cases hfound : situation.database.getExecution run.executionId with
        | none => exact .inl rfl
        | some stored =>
            cases hstored : answer.stored with
            | true => exact absurd hstored (hfailed stored hfound)
            | false => exact .inr rfl
  | completeFinish run finish stored =>
      cases advanced
      split
      · rename_i hstored
        exact .completeFinished hstored
      · rename_i hstored
        exact .completeUnfinished (by simpa using hstored)
  | completeRemove run finish =>
      cases advanced
      exact .completeRemoved

end Inversion

end Susm.Controller
