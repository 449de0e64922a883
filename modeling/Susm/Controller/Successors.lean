import Susm.Controller.Occupants

/-!
# Successors of a task

Which tasks a section leaves in place of its own, one constructor for each, with
what the section has learned.  Properties of tasks that are handed on from
section to section are derived from this relation.
-/

namespace Susm.Controller

open Susm.Foundation
open Susm.Protocol

/-- The call that a task returns to when it has nothing more to do. -/
def ManagerTask.caller : ManagerTask → Option Caller
  | .initialReload => some .startup
  | .replaceDefinitions _ _ caller | .loadWorkloads caller
  | .applyReload _ caller | .keepReload caller
  | .replacementKind _ caller | .replacementStart _ _ caller => some caller
  | _ => none

/-- The other task is among those that the section of the first one leaves. -/
inductive Succeeds (session : String) (now : Nat) (answer : Answer)
    (situation : Situation) (outcome : Outcome) :
    ManagerTask → ManagerTask → Prop where
  | returned {task other : ManagerTask} {caller : Caller}
      (calls : task.caller = some caller) (returns : other ∈ caller.tasks) :
      Succeeds session now answer situation outcome task other
  | started {task : ManagerTask} {id : String} {time : Int}
      {definition : ExecutionConfiguration} (starts : task.starts = some id)
      (occupies : Occupies answer situation outcome id) :
      Succeeds session now answer situation outcome task
        (.runPrepare (startedRun id answer.uuid time definition))
  | initialReload {candidate : Candidate} :
      Succeeds session now answer situation outcome .initialReload
        (.replaceDefinitions candidate.generation candidate.stored .startup)
  | startEnabled :
      Succeeds session now answer situation outcome .startRecoveryMonitors
        .startEnabled
  | monitorLoad {id : String} {active : ActiveExecution}
      (found : situation.state.active.lookup id = some active)
      (detached : active.locallyOwned = false) :
      Succeeds session now answer situation outcome .startRecoveryMonitors
        (.monitorLoad active.executionId)
  | enabledServices :
      Succeeds session now answer situation outcome .startEnabled
        (.startEnabledServices (enabledIds situation.state .service)
          (enabledIds situation.state .job))
  | nextService {id : String} {services jobs : List String} :
      Succeeds session now answer situation outcome
        (.startEnabledServices (id :: services) jobs)
        (.startEnabledServices services jobs)
  | enabledJobs {jobs : List String} :
      Succeeds session now answer situation outcome
        (.startEnabledServices [] jobs) (.startEnabledJobs jobs)
  | nextJob {id : String} {jobs : List String} :
      Succeeds session now answer situation outcome
        (.startEnabledJobs (id :: jobs)) (.startEnabledJobs jobs)
  | definitionsReplaced {generation : List UInt8}
      {definitions : List (String × StoredWorkload)} {caller : Caller}
      (changed : (situation.database.replaceDefinitions generation
        definitions).1 = true)
      (tables : outcome.database = (situation.database.replaceDefinitions
        generation definitions).2) :
      Succeeds session now answer situation outcome
        (.replaceDefinitions generation definitions caller)
        (.loadWorkloads caller)
  | definitionsKept {generation : List UInt8}
      {definitions : List (String × StoredWorkload)} {caller : Caller}
      (unchanged : (situation.database.replaceDefinitions generation
        definitions).1 = false) :
      Succeeds session now answer situation outcome
        (.replaceDefinitions generation definitions caller)
        (.keepReload caller)
  | workloadsLoaded {caller : Caller}
      (tables : outcome.database = situation.database) :
      Succeeds session now answer situation outcome (.loadWorkloads caller)
        (.applyReload situation.database.loadWorkloads caller)
  | monitorLoaded {executionId : String} {stored : StoredExecution}
      (found : situation.database.getExecution executionId = some stored) :
      Succeeds session now answer situation outcome (.monitorLoad executionId)
        (.monitorPoll executionId stored (now + recoveryMillis) true)
  | monitorTerminal {executionId : String} {stored : StoredExecution}
      {replacementAt : Nat} {wasRecovering : Bool} {result : AttemptResult} :
      Succeeds session now answer situation outcome
        (.monitorPoll executionId stored replacementAt wasRecovering)
        (.terminalLoad executionId result)
  | monitorPolled {executionId : String} {stored : StoredExecution}
      {replacementAt : Nat} {wasRecovering : Bool} :
      Succeeds session now answer situation outcome
        (.monitorPoll executionId stored replacementAt wasRecovering)
        (.monitorTick executionId stored replacementAt wasRecovering)
  | monitorWaits {executionId : String} {stored : StoredExecution}
      {replacementAt nextAt : Nat} {wasRecovering recovering : Bool} :
      Succeeds session now answer situation outcome
        (.monitorTick executionId stored replacementAt wasRecovering)
        (.monitorPoll executionId stored nextAt recovering)
  | monitorReplaces {executionId workloadId : String}
      {stored : StoredExecution} {replacementAt : Nat} {wasRecovering : Bool}
      {definition : ExecutionConfiguration}
      (active : situation.state.activeId workloadId = some executionId) :
      Succeeds session now answer situation outcome
        (.monitorTick executionId stored replacementAt wasRecovering)
        (.runPrepare (startedRun workloadId executionId stored.startedUnixMs
          definition))
  | terminalLoaded {executionId : String} {stored : StoredExecution}
      {result : AttemptResult}
      (found : situation.database.getExecution executionId = some stored) :
      Succeeds session now answer situation outcome
        (.terminalLoad executionId result)
        (.terminalRemove executionId stored result)
  | terminalRemoved {executionId : String} {stored : StoredExecution}
      {result : AttemptResult} {name : StateName} {restart : Bool}
      (removed : situation.state.supervisorTerminal executionId stored result =
        some (name, restart, outcome.state)) :
      Succeeds session now answer situation outcome
        (.terminalRemove executionId stored result)
        (.terminalFinish executionId stored name result restart)
  | terminalReplaced {executionId : String} {stored : StoredExecution}
      {name : StateName} {result : AttemptResult} :
      Succeeds session now answer situation outcome
        (.terminalFinish executionId stored name result true)
        (.replacementKind stored.workloadId .client)
  | replacementKind {workloadId : String} {caller : Caller}
      {kind : WorkloadKind} :
      Succeeds session now answer situation outcome
        (.replacementKind workloadId caller)
        (.replacementStart workloadId kind caller)
  | attached {hello : Hello} {stored : StoredExecution} :
      Succeeds session now answer situation outcome
        (.attachSupervisor hello stored)
        (.stream answer.uuid hello.executionId)
  | streamContinues {attachmentId executionId : String} :
      Succeeds session now answer situation outcome
        (.stream attachmentId executionId) (.stream attachmentId executionId)
  | streamEnds {task : ManagerTask} {attachmentId executionId : String}
      (streams : task = .stream attachmentId executionId ∨
        ∃ stored observation terminal, task =
          .recordCommit attachmentId executionId stored observation terminal) :
      Succeeds session now answer situation outcome task
        (.streamClosed attachmentId executionId)
  | streamObserved {attachmentId executionId : String}
      {stored : StoredExecution} {observation : SupervisorObservation}
      (found : situation.database.getExecution executionId = some stored) :
      Succeeds session now answer situation outcome
        (.stream attachmentId executionId)
        (.recordCheck attachmentId executionId stored observation)
  | recordCheck {attachmentId executionId : String} {stored : StoredExecution}
      {observation : SupervisorObservation} :
      Succeeds session now answer situation outcome
        (.recordCheck attachmentId executionId stored observation)
        (.recordCommit attachmentId executionId stored observation
          (situation.state.terminalUpdate executionId stored observation
            answer.systemTime))
  | recordRepeated {attachmentId executionId : String}
      {stored : StoredExecution} {observation : SupervisorObservation}
      {terminal : Option TerminalObservation} :
      Succeeds session now answer situation outcome
        (.recordCommit attachmentId executionId stored observation terminal)
        (.stream attachmentId executionId)
  | recordEnded {attachmentId executionId : String} {stored : StoredExecution}
      {observation : SupervisorObservation} {terminal : TerminalObservation}
      (committed : situation.database.commitObservation executionId
        observation.sequence (.terminal terminal) =
          .ok (true, outcome.database)) :
      Succeeds session now answer situation outcome
        (.recordCommit attachmentId executionId stored observation
          (some terminal))
        (.recordTerminal attachmentId executionId stored terminal.state)
  | recordAdvanced {attachmentId executionId : String}
      {stored : StoredExecution} {observation : SupervisorObservation} :
      Succeeds session now answer situation outcome
        (.recordCommit attachmentId executionId stored observation none)
        (.recordProgress attachmentId executionId stored observation)
  | recordReplaced {attachmentId executionId : String}
      {stored : StoredExecution} {name : StateName}
      (restart : (situation.state.recordTerminal executionId stored name).1 =
        true) :
      Succeeds session now answer situation outcome
        (.recordTerminal attachmentId executionId stored name)
        (.replacementKind stored.workloadId (.stream attachmentId executionId))
  | recorded {task : ManagerTask} {attachmentId executionId : String}
      (records : (∃ stored name, task =
          .recordTerminal attachmentId executionId stored name) ∨
        ∃ stored observation, task =
          .recordProgress attachmentId executionId stored observation) :
      Succeeds session now answer situation outcome task
        (.stream attachmentId executionId)
  | runPrepared {run : RunExecution} :
      Succeeds session now answer situation outcome (.runPrepare run)
        (.runLoop run)
  | runFinished {task : ManagerTask} {run : RunExecution}
      {finish : ExecutionFinish}
      (runs : task = .runPrepare run ∨ task = .runLoop run ∨
        task = .runBackoff run ∨ ∃ cancelled, task = .runExited run cancelled) :
      Succeeds session now answer situation outcome task
        (.completeLoad run finish)
  | runFailed {task : ManagerTask} {run : RunExecution}
      {unavailable : ExecutionFinish}
      (runs : task = .runLoop run ∨ task = .runExited run false) :
      Succeeds session now answer situation outcome task
        (supervisorFailed run unavailable)
  | runSpawned {run : RunExecution} {processId : Nat}
      (spawned : outcome.processes = situation.processes ++
        [⟨run.executionId, processId, true⟩]) :
      Succeeds session now answer situation outcome (.runLoop run)
        (.runSpawned { run with supervisorProcessId := processId }
          situation.processes.length)
  | runLaunching {run : RunExecution} {process : Nat} :
      Succeeds session now answer situation outcome (.runSpawned run process)
        (.runLaunching run process)
  | runWaiting {run : RunExecution} {process : Nat} :
      Succeeds session now answer situation outcome (.runLaunching run process)
        (.runWaiting run process)
  | runStops {run : RunExecution} {process : Nat} :
      Succeeds session now answer situation outcome (.runWaiting run process)
        (.runStopping run process)
  | runEnded {run : RunExecution} {process : Nat}
      (dead : isAlive situation.processes process = false) :
      Succeeds session now answer situation outcome (.runWaiting run process)
        (.runExited run false)
  | runStopped {run : RunExecution} {process : Nat}
      (ended : outcome.processes = endProcess situation.processes process) :
      Succeeds session now answer situation outcome (.runStopping run process)
        (.runExited run true)
  | runRetries {run : RunExecution} :
      Succeeds session now answer situation outcome (.runBackoff run)
        (.runLoop run)
  | completeLoaded {run : RunExecution} {finish : ExecutionFinish}
      {stored : StoredExecution} :
      Succeeds session now answer situation outcome (.completeLoad run finish)
        (.completeFinish run finish stored)
  | completeUnloaded {run : RunExecution} {finish : ExecutionFinish}
      (failed : situation.database.getExecution run.executionId = none ∨
        answer.stored = false) :
      Succeeds session now answer situation outcome (.completeLoad run finish)
        (.completeRemove run finish)
  | completeFinished {run : RunExecution} {finish : ExecutionFinish}
      {stored execution : StoredExecution}
      (ended : execution.endedUnixMs =
        (unixMs answer.systemTime).getD run.started)
      (tables : outcome.database = situation.database.finishExecution
        run.executionId execution) :
      Succeeds session now answer situation outcome
        (.completeFinish run finish stored) (.completeRemove run finish)
  | completeUnfinished {run : RunExecution} {finish : ExecutionFinish}
      {stored : StoredExecution} (failed : answer.stored = false) :
      Succeeds session now answer situation outcome
        (.completeFinish run finish stored) (.completeRemove run finish)
  | completeReplaced {run : RunExecution} {finish : ExecutionFinish}
      (restart : (situation.state.completeExecution run.workloadId
        run.executionId finish.state).1 = true) :
      Succeeds session now answer situation outcome
        (.completeRemove run finish) (.replacementKind run.workloadId .client)

section Sections

variable {host : Host} {session : String} {now : Nat} {answer : Answer}
  {situation : Situation} {outcome : Outcome} {task other : ManagerTask}

theorem State.monitorTick_replaces {state next : State} {executionId id : String}
    {replacementAt : Nat} {wasRecovering : Bool}
    (ticked : state.monitorTick executionId now replacementAt wasRecovering =
      (.replace id, next)) : state.activeId id = some executionId := by
  unfold monitorTick at ticked
  split at ticked
  · cases ticked
  · rename_i hfound
    obtain ⟨hlookup, hid⟩ := Map.findEntry_some hfound
    have hactive := activeId_eq_some.mpr
      ⟨_, hlookup, of_decide_eq_true hid⟩
    dsimp only at ticked
    split at ticked <;> split at ticked <;> cases ticked <;> exact hactive

theorem reloadTasks_mem {candidate : Option Candidate} {state : State}
    {caller : Caller}
    (htask : task ∈ (reloadTasks candidate state caller).2) :
    task ∈ caller.tasks ∨ ∃ candidate : Candidate, task =
      .replaceDefinitions candidate.generation candidate.stored caller := by
  unfold reloadTasks at htask
  split at htask
  · exact .inl htask
  · split at htask
    · exact .inl htask
    · exact .inr ⟨_, List.mem_singleton.mp htask⟩

theorem GivesUp.succeeds {tasks : List ManagerTask}
    (made : GivesUp answer task tasks) (hother : other ∈ tasks) :
    Succeeds session now answer situation outcome task other := by
  cases made with
  | replaceDefinitions => exact .returned rfl hother
  | loadWorkloads => exact .returned rfl hother
  | replacementKind => exact .returned rfl hother
  | stream =>
      cases List.mem_singleton.mp hother
      exact .streamEnds (.inl rfl)
  | recordCommit =>
      cases List.mem_singleton.mp hother
      exact .streamEnds (.inr ⟨_, _, _, rfl⟩)
  | _ => cases hother

theorem startSection_mem {id : String} {expectedKind : WorkloadKind}
    {exclusive : Bool} {enabledManagerSession : Option String}
    {next : List ManagerTask}
    (hother : other ∈ (startSection host session answer situation id
      expectedKind exclusive enabledManagerSession next).tasks) :
    other ∈ next ∨ ∃ time definition,
      other = .runPrepare (startedRun id answer.uuid time definition) ∧
        Occupies answer situation
          (startSection host session answer situation id expectedKind exclusive
            enabledManagerSession next) id := by
  have hoccupant := startSection_occupant host session answer situation id id
    expectedKind exclusive enabledManagerSession next
  rcases startSection_cases host session answer situation id expectedKind
    exclusive enabledManagerSession next with
    hsame | ⟨started, record, accepted, time, creates, hstarted⟩
  · rw [hsame] at hother
    exact .inl hother
  · rcases hoccupant with hkept | ⟨-, occupies⟩
    · rw [hstarted] at hkept
      simp [State.occupant, creates.idle, creates.state, State.setActive,
        State.bump] at hkept
    · have htasks := congrArg Outcome.tasks hstarted
      rw [htasks] at hother
      rcases List.mem_cons.mp hother with rfl | hother
      · exact .inr ⟨_, _, rfl, occupies⟩
      · exact .inl hother

theorem startSection_succeeds {id : String} {expectedKind : WorkloadKind}
    {exclusive : Bool} {enabledManagerSession : Option String}
    {next : List ManagerTask} (starts : task.starts = some id)
    (hnext : ∀ following ∈ next, Succeeds session now answer situation
      (startSection host session answer situation id expectedKind exclusive
        enabledManagerSession next) task following)
    (hother : other ∈ (startSection host session answer situation id
      expectedKind exclusive enabledManagerSession next).tasks) :
    Succeeds session now answer situation
      (startSection host session answer situation id expectedKind exclusive
        enabledManagerSession next) task other := by
  rcases startSection_mem hother with hmem | ⟨time, definition, rfl, occupies⟩
  · exact hnext other hmem
  · exact .started starts occupies

theorem Section.succeeds
    (made : Section host session now answer situation task outcome)
    (hother : other ∈ outcome.tasks) :
    Succeeds session now answer situation outcome task other := by
  cases made with
  | givesUp made => exact made.succeeds hother
  | initialReload =>
      rcases reloadTasks_mem hother with hreturned | ⟨candidate, rfl⟩
      · exact .returned rfl hreturned
      · exact .initialReload
  | startRecoveryMonitors =>
      rcases List.mem_cons.mp hother with rfl | hother
      · exact .startEnabled
      · obtain ⟨executionId, hid, rfl⟩ := List.mem_map.mp hother
        obtain ⟨entry, hentry, rfl⟩ := List.mem_map.mp hid
        obtain ⟨hmem, hdetached⟩ := List.mem_filter.mp hentry
        exact .monitorLoad (Map.mem_toList.mp hmem) (by simpa using hdetached)
  | servicesDone =>
      split at hother
      · cases hother
      · cases List.mem_singleton.mp hother
        exact .enabledJobs
  | startService =>
      refine startSection_succeeds rfl (fun following hfollowing => ?_) hother
      cases List.mem_singleton.mp hfollowing
      exact .nextService
  | startJob =>
      refine startSection_succeeds rfl (fun following hfollowing => ?_) hother
      cases List.mem_singleton.mp hfollowing
      exact .nextJob
  | rerunIdle =>
      refine startSection_succeeds rfl (fun following hfollowing => ?_) hother
      cases hfollowing
  | replacementStart =>
      refine startSection_succeeds rfl (fun following hfollowing => ?_) hother
      exact .returned rfl hfollowing
  | replaceDefinitions =>
      cases List.mem_singleton.mp hother
      split
      · rename_i hchanged
        exact .definitionsReplaced hchanged rfl
      · rename_i hunchanged
        exact .definitionsKept (by simpa using hunchanged)
  | applyReload => exact .returned rfl hother
  | keepReload => exact .returned rfl hother
  | monitorLoaded found =>
      cases List.mem_singleton.mp hother
      exact .monitorLoaded found
  | terminalLoaded found =>
      cases List.mem_singleton.mp hother
      exact .terminalLoaded found
  | streamObserved found =>
      cases List.mem_singleton.mp hother
      exact .streamObserved found
  | monitorReplaces ticked =>
      cases List.mem_singleton.mp hother
      exact .monitorReplaces (State.monitorTick_replaces ticked)
  | terminalRemoved removed =>
      cases List.mem_singleton.mp hother
      exact .terminalRemoved removed
  | terminalFinished =>
      split at hother
      · rename_i hrestart
        subst hrestart
        cases List.mem_singleton.mp hother
        exact .terminalReplaced
      · cases hother
  | recordEnded committed =>
      cases List.mem_singleton.mp hother
      exact .recordEnded committed
  | recordTerminal =>
      cases List.mem_singleton.mp hother
      split
      · rename_i hrestart
        exact .recordReplaced hrestart
      · exact .recorded (.inl ⟨_, _, rfl⟩)
  | recordProgress =>
      cases List.mem_singleton.mp hother
      exact .recorded (.inr ⟨_, _, rfl⟩)
  | runUnprepared =>
      cases List.mem_singleton.mp hother
      exact .runFinished (.inl rfl)
  | runCancelled waiting =>
      cases List.mem_singleton.mp hother
      rcases waiting with rfl | rfl | rfl
      · exact .runFinished (.inr (.inl rfl))
      · exact .runFinished (.inr (.inr (.inl rfl)))
      · exact .runFinished (.inr (.inr (.inr ⟨true, rfl⟩)))
  | runResult =>
      cases List.mem_singleton.mp hother
      exact .runFinished (.inr (.inr (.inr ⟨_, rfl⟩)))
  | runUnspawned =>
      cases List.mem_singleton.mp hother
      exact .runFailed (.inl rfl)
  | runFailed =>
      cases List.mem_singleton.mp hother
      exact .runFailed (.inr rfl)
  | runSpawns =>
      cases List.mem_singleton.mp hother
      exact .runSpawned rfl
  | runEnded dead =>
      cases List.mem_singleton.mp hother
      exact .runEnded dead
  | runStopped =>
      cases List.mem_singleton.mp hother
      exact .runStopped rfl
  | completeUnloaded failed =>
      cases List.mem_singleton.mp hother
      exact .completeUnloaded failed
  | completeFinished =>
      cases List.mem_singleton.mp hother
      exact .completeFinished rfl rfl
  | completeUnfinished failed =>
      cases List.mem_singleton.mp hother
      exact .completeUnfinished failed
  | completeRemoved =>
      split at hother
      · rename_i hrestart
        cases List.mem_singleton.mp hother
        exact .completeReplaced hrestart
      · cases hother
  | setEnabled | rerunActive | streamClosed | attachUnstored => cases hother
  | loadWorkloads =>
      cases List.mem_singleton.mp hother
      exact .workloadsLoaded rfl
  | startEnabled =>
      cases List.mem_singleton.mp hother
      exact .enabledServices
  | monitorTerminal =>
      cases List.mem_singleton.mp hother
      exact .monitorTerminal
  | monitorPolled =>
      cases List.mem_singleton.mp hother
      exact .monitorPolled
  | monitorWaits =>
      cases List.mem_singleton.mp hother
      exact .monitorWaits
  | replacementKind =>
      cases List.mem_singleton.mp hother
      exact .replacementKind
  | attached =>
      cases List.mem_singleton.mp hother
      exact .attached
  | attachedLocally =>
      cases List.mem_singleton.mp hother
      exact .attached
  | streamForwarded =>
      cases List.mem_singleton.mp hother
      exact .streamContinues
  | recordCheck =>
      cases List.mem_singleton.mp hother
      exact .recordCheck
  | recordRepeated =>
      cases List.mem_singleton.mp hother
      exact .recordRepeated
  | recordAdvanced =>
      cases List.mem_singleton.mp hother
      exact .recordAdvanced
  | runPrepared =>
      cases List.mem_singleton.mp hother
      exact .runPrepared
  | runStored =>
      cases List.mem_singleton.mp hother
      exact .runLaunching
  | runUnstored =>
      cases List.mem_singleton.mp hother
      exact .runLaunching
  | runLaunching =>
      cases List.mem_singleton.mp hother
      exact .runWaiting
  | runStops =>
      cases List.mem_singleton.mp hother
      exact .runStops
  | runRetries =>
      cases List.mem_singleton.mp hother
      exact .runRetries
  | completeLoaded =>
      cases List.mem_singleton.mp hother
      exact .completeLoaded

inductive CommandLeaves (answer : Answer) (situation : Situation)
    (outcome : Outcome) : Command → ManagerTask → Prop where
  | started {command : Command} {id : String} {time : Int}
      {definition : ExecutionConfiguration} (starts : command.starts = some id)
      (occupies : Occupies answer situation outcome id) :
      CommandLeaves answer situation outcome command
        (.runPrepare (startedRun id answer.uuid time definition))
  | reload {candidate : Candidate} :
      CommandLeaves answer situation outcome .reload
        (.replaceDefinitions candidate.generation candidate.stored .client)
  | rerunJob {id : String} {active : Bool} :
      CommandLeaves answer situation outcome (.rerunJob id)
        (.rerunJob id active)
  | setEnabled {id : String} {enabled changed : Bool}
      (found : (situation.database.setEnabled id enabled).1 = changed)
      (tables : outcome.database =
        (situation.database.setEnabled id enabled).2) :
      CommandLeaves answer situation outcome (.setEnabled id enabled)
        (.setEnabled id enabled changed)

theorem startSection_leaves {command : Command} {id : String}
    {expectedKind : WorkloadKind} {exclusive : Bool}
    {enabledManagerSession : Option String} (starts : command.starts = some id)
    (hother : other ∈ (startSection host session answer situation id
      expectedKind exclusive enabledManagerSession []).tasks) :
    CommandLeaves answer situation
      (startSection host session answer situation id expectedKind exclusive
        enabledManagerSession []) command other := by
  rcases startSection_mem hother with hmem | ⟨time, definition, rfl, occupies⟩
  · cases hmem
  · exact .started starts occupies

theorem Command.leaves {command : Command}
    (hother : other ∈ (command.perform host session answer situation).tasks) :
    CommandLeaves answer situation
      (command.perform host session answer situation) command other := by
  cases command with
  | startService id | runJob id => exact startSection_leaves rfl hother
  | reload =>
      rcases reloadTasks_mem hother with hreturned | ⟨candidate, rfl⟩
      · cases hreturned
      · exact .reload
  | rerunJob id =>
      cases List.mem_singleton.mp hother
      exact .rerunJob
  | setEnabled id enabled =>
      simp only [Command.perform] at hother ⊢
      split at hother
      · rename_i hstored
        cases List.mem_singleton.mp hother
        simp only [hstored, if_true]
        exact .setEnabled rfl rfl
      · cases hother
  | _ => cases hother

end Sections

end Susm.Controller
