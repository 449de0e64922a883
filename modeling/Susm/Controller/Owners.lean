import Susm.Controller.Executions
import Susm.Foundation.Ownership

/-!
# Owners of executions

Which tasks may come to start a supervisor process, and for which execution.
Sections hand an execution on to one task, and a run starts a process only after
it has seen the one before end.
-/

namespace Susm.Controller

open Susm.Foundation
open Susm.Protocol

def ManagerTask.child : ManagerTask → Option (String × Option Nat)
  | .runPrepare run | .runLoop run | .runExited run _ | .runBackoff run =>
      some (run.executionId, none)
  | .runSpawned run process | .runLaunching run process
  | .runWaiting run process | .runStopping run process =>
      some (run.executionId, some process)
  | _ => none

/-- The execution that a task may come to start a supervisor process for, or
that it finishes without an observation. -/
def ManagerTask.owner : ManagerTask → Option String
  | .monitorLoad executionId | .monitorPoll executionId _ _ _
  | .monitorTick executionId _ _ _ | .terminalLoad executionId _
  | .terminalRemove executionId _ _ | .terminalFinish executionId _ _ _ _ =>
      some executionId
  | .runPrepare run | .runLoop run | .runExited run _ | .runBackoff run
  | .runSpawned run _ | .runLaunching run _ | .runWaiting run _
  | .runStopping run _ | .completeLoad run _ | .completeFinish run _ _
  | .completeRemove run _ => some run.executionId
  | _ => none

def ManagerTask.runs : ManagerTask → Option String
  | .completeLoad run _ | .completeFinish run _ _ => some run.executionId
  | task => task.child.map Prod.fst

theorem ManagerTask.child_owner {task : ManagerTask} {executionId : String}
    {child : Option Nat} (h : task.child = some (executionId, child)) :
    task.owner = some executionId := by
  cases task <;> cases h <;> rfl

theorem ManagerTask.runs_owner {task : ManagerTask} {executionId : String}
    (h : task.runs = some executionId) : task.owner = some executionId := by
  cases task <;> cases h <;> rfl

def ManagerTask.opens (task : ManagerTask) : Bool :=
  task = .startRecoveryMonitors ∨ task.caller = some .startup

/-- A replacement is not started by `main`. -/
def ManagerTask.Returns : ManagerTask → Prop
  | .replacementKind _ caller | .replacementStart _ _ caller =>
      caller ≠ .startup
  | _ => True

theorem ManagerTask.opens_isStartup {task : ManagerTask}
    (returns : task.Returns) (h : task.opens = true) :
    task.isStartup = true := by
  cases task with
  | initialReload | startRecoveryMonitors => rfl
  | replaceDefinitions generation definitions caller =>
      simp [ManagerTask.opens, ManagerTask.caller] at h
      subst h
      rfl
  | loadWorkloads caller | applyReload persisted caller | keepReload caller =>
      simp [ManagerTask.opens, ManagerTask.caller] at h
      subst h
      rfl
  | replacementKind workloadId caller
  | replacementStart workloadId kind caller =>
      simp [ManagerTask.opens, ManagerTask.caller] at h
      exact absurd h returns
  | _ => simp [ManagerTask.opens, ManagerTask.caller] at h

/-! ## Processes -/

def Known (database : Database) (executionId : String) : Prop :=
  ∃ workloadId, HasRow database executionId workloadId

/-- No process of the execution is alive but the child. -/
def Alone (processes : List SupervisorProcess) (executionId : String)
    (child : Option Nat) : Prop :=
  ∀ index process, processes[index]? = some process →
    process.executionId = executionId → process.alive = true →
    child = some index

theorem endProcess_getElem? {processes : List SupervisorProcess}
    {ended index : Nat} {process : SupervisorProcess}
    (found : (endProcess processes ended)[index]? = some process) :
    ∃ before, processes[index]? = some before ∧
      process.executionId = before.executionId ∧
      (process.alive = true → before.alive = true ∧ index ≠ ended) := by
  unfold endProcess at found
  rw [List.getElem?_modify] at found
  obtain ⟨before, hbefore, hchange⟩ := Option.map_eq_some_iff.mp found
  refine ⟨before, hbefore, ?_⟩
  by_cases h : ended = index
  · simp [h] at hchange
    subst hchange
    exact ⟨rfl, fun halive => by cases halive⟩
  · simp [h] at hchange
    subst hchange
    exact ⟨rfl, fun halive => ⟨halive, fun hsame => h hsame.symm⟩⟩

namespace Alone

variable {processes : List SupervisorProcess} {executionId : String}
  {child : Option Nat}

theorem endProcess (alone : Alone processes executionId child) (ended : Nat) :
    Alone (endProcess processes ended) executionId child := by
  intro index process found hid halive
  obtain ⟨before, hbefore, hsame, hkept⟩ := endProcess_getElem? found
  exact alone index before hbefore (hsame.symm.trans hid) (hkept halive).1

theorem ended {process : Nat} (alone : Alone processes executionId (some process)) :
    Alone (Susm.Controller.endProcess processes process) executionId none := by
  intro index other found hid halive
  obtain ⟨before, hbefore, hsame, hkept⟩ := endProcess_getElem? found
  obtain ⟨halive, hne⟩ := hkept halive
  have hchild := alone index before hbefore (hsame.symm.trans hid) halive
  exact absurd (Option.some.inj hchild).symm hne

theorem exited {process : Nat}
    (alone : Alone processes executionId (some process))
    (dead : isAlive processes process = false) :
    Alone processes executionId none := by
  intro index other found hid halive
  cases alone index other found hid halive
  simp [isAlive, found, halive] at dead

theorem append_other {process : SupervisorProcess}
    (alone : Alone processes executionId child)
    (other : process.executionId ≠ executionId) :
    Alone (processes ++ [process]) executionId child := by
  intro index found hfound hid halive
  rw [List.getElem?_append] at hfound
  split at hfound
  · exact alone index found hfound hid halive
  · rw [List.getElem?_singleton] at hfound
    split at hfound
    · cases hfound
      exact absurd hid other
    · cases hfound

theorem append {process : SupervisorProcess}
    (alone : Alone processes executionId none) :
    Alone (processes ++ [process]) executionId (some processes.length) := by
  intro index found hfound hid halive
  rw [List.getElem?_append] at hfound
  split at hfound
  · cases alone index found hfound hid halive
  · rename_i hindex
    rw [List.getElem?_singleton] at hfound
    split at hfound
    · congr 1
      omega
    · cases hfound

end Alone

/-! ## Sections -/

def ManagerTask.changesProcesses : ManagerTask → Bool
  | .runLoop _ | .runStopping _ _ => true
  | _ => false

section Sections

variable {host : Host} {session : String} {now : Nat} {answer : Answer}
  {situation : Situation} {outcome : Outcome} {task other : ManagerTask}

theorem startSection_processes (host : Host) (session : String)
    (answer : Answer) (situation : Situation) (id : String)
    (expectedKind : WorkloadKind) (exclusive : Bool)
    (enabledManagerSession : Option String) (next : List ManagerTask) :
    (startSection host session answer situation id expectedKind exclusive
      enabledManagerSession next).processes = situation.processes := by
  rcases startSection_cases host session answer situation id expectedKind
    exclusive enabledManagerSession next with
    hsame | ⟨started, record, accepted, time, creates, hstarted⟩
  · exact congrArg (fun outcome => outcome.processes) hsame
  · exact congrArg (fun outcome => outcome.processes) hstarted

/-- What a section does to the processes. -/
inductive ProcessesAfter (situation : Situation) (outcome : Outcome) :
    ManagerTask → Prop where
  | kept {task : ManagerTask}
      (same : outcome.processes = situation.processes) :
      ProcessesAfter situation outcome task
  | spawned {run : RunExecution} {processId : Nat}
      (spawned : outcome.processes =
        situation.processes ++ [⟨run.executionId, processId, true⟩]) :
      ProcessesAfter situation outcome (.runLoop run)
  | ended {run : RunExecution} {process : Nat}
      (ended : outcome.processes = endProcess situation.processes process) :
      ProcessesAfter situation outcome (.runStopping run process)

theorem Section.processes
    (made : Section host session now answer situation task outcome) :
    ProcessesAfter situation outcome task := by
  cases made with
  | runSpawns => exact .spawned rfl
  | runStopped => exact .ended rfl
  | startService | startJob | rerunIdle | replacementStart =>
      exact .kept (startSection_processes host session answer situation _ _ _ _ _)
  | runCancelled waiting => exact .kept rfl
  | _ => exact .kept rfl

theorem Section.processes_kept
    (made : Section host session now answer situation task outcome)
    (h : task.changesProcesses = false) :
    outcome.processes = situation.processes := by
  cases made.processes with
  | kept same => exact same
  | spawned | ended => cases h

theorem Section.runLoop_processes {run : RunExecution}
    (made : Section host session now answer situation (.runLoop run) outcome) :
    outcome.processes = situation.processes ∨ ∃ processId,
      outcome.processes =
          situation.processes ++ [⟨run.executionId, processId, true⟩] ∧
        outcome.tasks =
          [.runSpawned { run with supervisorProcessId := processId }
            situation.processes.length] := by
  cases made with
  | givesUp made => exact .inl rfl
  | runCancelled waiting => exact .inl rfl
  | runUnspawned => exact .inl rfl
  | runSpawns => exact .inr ⟨_, rfl, rfl⟩

/-- An execution that a task takes over from none was detached, or is new. -/
inductive Owned (answer : Answer) (situation : Situation) (outcome : Outcome)
    (executionId : String) : ManagerTask → Prop where
  | kept {task : ManagerTask} (owner : task.owner = some executionId) :
      Owned answer situation outcome executionId task
  | started {task : ManagerTask} {id : String} (fresh : executionId = answer.uuid)
      (occupies : Occupies answer situation outcome id) :
      Owned answer situation outcome executionId task
  | detached {id : String}
      (active : situation.state.activeId id = some executionId) :
      Owned answer situation outcome executionId .startRecoveryMonitors

theorem Caller.tasks_owner {caller : Caller} (htask : task ∈ caller.tasks) :
    task.owner = none := by
  cases caller with
  | client => cases htask
  | startup | stream =>
      cases List.mem_singleton.mp htask
      rfl

theorem supervisorFailed_owner {run : RunExecution}
    {unavailable : ExecutionFinish} {executionId : String}
    (owner : (supervisorFailed run unavailable).owner = some executionId) :
    run.executionId = executionId := by
  unfold supervisorFailed at owner
  dsimp only at owner
  split at owner <;> exact Option.some.inj owner

theorem Section.owned
    (made : Section host session now answer situation task outcome)
    (hother : other ∈ outcome.tasks) {executionId : String}
    (owner : other.owner = some executionId) :
    Owned answer situation outcome executionId task := by
  cases made.succeeds hother with
  | returned calls returns =>
      cases (Caller.tasks_owner returns).symm.trans owner
  | started starts occupies =>
      exact .started (Option.some.inj owner).symm occupies
  | monitorLoad found detached =>
      exact .detached (State.activeId_eq_some.mpr
        ⟨_, found, Option.some.inj owner⟩)
  | runFailed runs =>
      have hid := supervisorFailed_owner owner
      rcases runs with rfl | rfl <;> exact .kept (congrArg some hid)
  | runFinished runs =>
      cases owner
      rcases runs with rfl | rfl | rfl | ⟨cancelled, rfl⟩ <;> exact .kept rfl
  | _ =>
      first
        | exact .kept owner
        | cases owner

theorem ManagerTask.opens_iff :
    task.opens = true ↔
      task = .startRecoveryMonitors ∨ task.caller = some .startup := by
  simp [ManagerTask.opens]

theorem Caller.tasks_opens {caller : Caller} (htask : task ∈ caller.tasks)
    (h : task.opens = true) : caller = .startup := by
  cases caller with
  | client => cases htask
  | startup => rfl
  | stream =>
      cases List.mem_singleton.mp htask
      simp [ManagerTask.opens, ManagerTask.caller] at h

theorem Section.opens_single
    (made : Section host session now answer situation task outcome)
    (returns : task.Returns) (calls : task.caller = some .startup) :
    ∃ other, outcome.tasks = [other] ∧ other.opens = true := by
  cases made with
  | givesUp made =>
      cases made with
      | replaceDefinitions | loadWorkloads | replacementKind =>
          cases calls
          exact ⟨_, rfl, rfl⟩
      | _ => cases calls
  | initialReload =>
      simp only [Situation.leave, reloadTasks, Caller.tasks]
      split
      · exact ⟨_, rfl, rfl⟩
      · split <;> exact ⟨_, rfl, rfl⟩
  | applyReload | keepReload =>
      cases calls
      exact ⟨_, rfl, rfl⟩
  | replaceDefinitions =>
      cases calls
      refine ⟨_, rfl, ?_⟩
      split <;> rfl
  | loadWorkloads =>
      cases calls
      exact ⟨_, rfl, rfl⟩
  | replacementKind | replacementStart =>
      cases calls
      exact absurd rfl returns
  | runCancelled waiting => rcases waiting with rfl | rfl | rfl <;> cases calls
  | _ => cases calls

theorem Section.opens
    (made : Section host session now answer situation task outcome)
    (hother : other ∈ outcome.tasks) (h : other.opens = true) :
    task.caller = some .startup := by
  cases made.succeeds hother with
  | returned calls returns =>
      rw [calls, Caller.tasks_opens returns h]
  | initialReload => rfl
  | definitionsReplaced | definitionsKept | workloadsLoaded
  | replacementKind => simpa [ManagerTask.opens, ManagerTask.caller] using h
  | runFailed =>
      unfold supervisorFailed at h
      dsimp only at h
      split at h <;> simp [ManagerTask.opens, ManagerTask.caller] at h
  | _ => simp [ManagerTask.opens, ManagerTask.caller] at h

theorem Section.returns
    (made : Section host session now answer situation task outcome)
    (returns : task.Returns) (hother : other ∈ outcome.tasks) :
    other.Returns := by
  cases made.succeeds hother with
  | returned calls hreturns =>
      rename_i caller
      cases caller with
      | client => cases hreturns
      | startup | stream =>
          cases List.mem_singleton.mp hreturns
          trivial
  | terminalReplaced | recordReplaced | completeReplaced =>
      simp [ManagerTask.Returns]
  | replacementKind => exact returns
  | runFailed =>
      unfold supervisorFailed
      dsimp only
      split <;> trivial
  | _ => trivial

/-! ## The tasks of a section -/

inductive TasksShape (state : State) : List ManagerTask → Prop where
  | nil : TasksShape state []
  | single (task : ManagerTask) : TasksShape state [task]
  | started (run : RunExecution) {next : ManagerTask}
      (plain : next.owner = none) : TasksShape state [.runPrepare run, next]
  | monitors : TasksShape state
      (.startEnabled :: ((state.active.toList.filter fun entry =>
        !entry.2.locallyOwned).map fun entry => entry.2.executionId).map
          .monitorLoad)

/-- At most one task, which starts no supervisor. -/
def Plain (tasks : List ManagerTask) : Prop :=
  tasks = [] ∨ ∃ only : ManagerTask, tasks = [only] ∧ only.owner = none

theorem Plain.shape {state : State} {tasks : List ManagerTask}
    (plain : Plain tasks) : TasksShape state tasks := by
  rcases plain with rfl | ⟨only, rfl, -⟩
  · exact .nil
  · exact .single only

theorem Caller.tasks_plain (caller : Caller) : Plain caller.tasks := by
  cases caller with
  | client => exact .inl rfl
  | startup | stream => exact .inr ⟨_, rfl, rfl⟩

theorem reloadTasks_shape {candidate : Option Candidate} {state : State}
    {caller : Caller} :
    TasksShape state (reloadTasks candidate state caller).2 := by
  unfold reloadTasks
  split
  · exact (Caller.tasks_plain caller).shape
  · split
    · exact (Caller.tasks_plain caller).shape
    · exact .single _

theorem startSection_shape {id : String} {expectedKind : WorkloadKind}
    {exclusive : Bool} {enabledManagerSession : Option String}
    {next : List ManagerTask} (plain : Plain next) :
    TasksShape situation.state (startSection host session answer situation id
      expectedKind exclusive enabledManagerSession next).tasks := by
  rcases startSection_cases host session answer situation id expectedKind
    exclusive enabledManagerSession next with
    hsame | ⟨started, record, accepted, time, creates, hstarted⟩
  · rw [hsame]
    exact plain.shape
  · rw [hstarted]
    rcases plain with rfl | ⟨only, rfl, honly⟩
    · exact .single _
    · exact .started _ honly

theorem Section.tasks_shape
    (made : Section host session now answer situation task outcome) :
    TasksShape situation.state outcome.tasks := by
  cases made with
  | givesUp made =>
      cases made with
      | replaceDefinitions | loadWorkloads | replacementKind =>
          exact (Caller.tasks_plain _).shape
      | stream | recordCommit => exact .single _
      | _ => exact .nil
  | initialReload => exact reloadTasks_shape
  | startRecoveryMonitors => exact .monitors
  | servicesDone =>
      simp only [Situation.leave]
      split
      · exact .nil
      · exact .single _
  | startService | startJob => exact startSection_shape (.inr ⟨_, rfl, rfl⟩)
  | rerunIdle => exact startSection_shape (.inl rfl)
  | replacementStart => exact startSection_shape (Caller.tasks_plain _)
  | applyReload | keepReload => exact (Caller.tasks_plain _).shape
  | terminalFinished | completeRemoved =>
      simp only [Situation.leave]
      split
      · exact .single _
      · exact .nil
  | setEnabled | rerunActive | streamClosed | attachUnstored => exact .nil
  | _ => exact .single _

theorem Command.tasks_shape (host : Host) (session : String) (answer : Answer)
    (situation : Situation) (command : Command) :
    TasksShape situation.state
      (command.perform host session answer situation).tasks := by
  cases command with
  | startService | runJob => exact startSection_shape (.inl rfl)
  | setEnabled id enabled =>
      simp only [Command.perform]
      split
      · exact .single _
      · exact .nil
  | rerunJob => exact .single _
  | reload => exact reloadTasks_shape
  | _ => exact .nil

theorem attachTasks_shape (database : Database) (hello : Hello)
    (stored : Bool) (state : State) :
    TasksShape state (World.attachTasks database hello stored) := by
  unfold World.attachTasks
  split
  · split
    · exact .single _
    · exact .nil
  · exact .nil

theorem TasksShape.distinct {state : State} {tasks : List ManagerTask}
    (shape : TasksShape state tasks)
    (distinct : ∀ first second executionId,
      state.activeId first = some executionId →
      state.activeId second = some executionId → first = second) :
    Distinct ManagerTask.owner tasks := by
  cases shape with
  | nil => exact .nil
  | single => exact .singleton _
  | started run plain =>
      refine .cons_free ?_
      intro other hother
      cases List.mem_singleton.mp hother
      exact plain
  | monitors =>
      refine .cons_none rfl ?_
      unfold Distinct
      rw [List.pairwise_map, List.pairwise_map]
      refine List.Nodup.pairwise_of_forall_ne
        (state.active.toList_nodup.filter _) ?_
      rintro ⟨first, one⟩ hfirst ⟨second, two⟩ hsecond hne executionId howner
        hother
      have hone := Map.mem_toList.mp (List.mem_filter.mp hfirst).1
      have htwo := Map.mem_toList.mp (List.mem_filter.mp hsecond).1
      have hid := distinct first second executionId
        (State.activeId_eq_some.mpr ⟨one, hone, Option.some.inj howner⟩)
        (State.activeId_eq_some.mpr ⟨two, htwo, Option.some.inj hother⟩)
      subst hid
      cases hone.symm.trans htwo
      exact hne rfl

/-! ## Children -/

def ManagerTask.takesOver (now : Nat) (state : State) :
    ManagerTask → Option String
  | .monitorTick executionId _ replacementAt wasRecovering =>
      match (state.monitorTick executionId now replacementAt
        wasRecovering).1 with
      | .replace _ => some executionId
      | _ => none
  | _ => none

theorem Section.monitorTick_child {executionId : String}
    {stored : StoredExecution} {replacementAt : Nat} {wasRecovering : Bool}
    (made : Section host session now answer situation
      (.monitorTick executionId stored replacementAt wasRecovering) outcome)
    (hother : other ∈ outcome.tasks) {child : String × Option Nat}
    (h : other.child = some child) :
    child = (executionId, none) ∧
      (ManagerTask.monitorTick executionId stored replacementAt
        wasRecovering).takesOver now situation.state = some executionId := by
  cases made with
  | givesUp made =>
      cases made
      cases hother
  | runCancelled waiting => rcases waiting with h | h | h <;> cases h
  | monitorWaits =>
      cases List.mem_singleton.mp hother
      cases h
  | monitorReplaces ticked =>
      cases List.mem_singleton.mp hother
      cases h
      refine ⟨rfl, ?_⟩
      simp [ManagerTask.takesOver, ticked]

theorem alone_unused {processes : List SupervisorProcess} {database : Database}
    {executionId : String} {child : Option Nat}
    (known : ∀ process ∈ processes, Known database process.executionId)
    (unused : database.executions.lookup executionId = none) :
    Alone processes executionId child := by
  intro index process found hid halive
  obtain ⟨workloadId, row, hrow, -⟩ := known process (List.mem_of_getElem? found)
  rw [hid] at hrow
  cases unused.symm.trans hrow

theorem Section.child_alone
    (made : Section host session now answer situation task outcome)
    (known : ∀ process ∈ situation.processes,
      Known situation.database process.executionId)
    (alone : ∀ executionId child, task.child = some (executionId, child) →
      Alone situation.processes executionId child)
    (vacant : ∀ executionId,
      task.takesOver now situation.state = some executionId →
      Alone situation.processes executionId none)
    (hother : other ∈ outcome.tasks) {executionId : String}
    {child : Option Nat} (h : other.child = some (executionId, child)) :
    Alone outcome.processes executionId child := by
  cases made.succeeds hother with
  | returned calls returns =>
      cases (Caller.tasks_owner returns).symm.trans (ManagerTask.child_owner h)
  | started starts occupies =>
      rw [made.processes_kept (by cases task <;> first | rfl | cases starts)]
      cases h
      exact alone_unused known occupies.unused
  | monitorReplaces active =>
      obtain ⟨hchild, htakes⟩ := made.monitorTick_child hother h
      cases hchild
      rw [made.processes_kept rfl]
      exact vacant executionId htakes
  | runFailed runs =>
      have hid := supervisorFailed_owner (ManagerTask.child_owner h)
      have hnone : child = none := by
        unfold supervisorFailed at h
        dsimp only at h
        split at h <;> cases h
        rfl
      subst hid hnone
      rcases runs with rfl | rfl
      · rcases made.runLoop_processes with hsame | ⟨processId, -, htasks⟩
        · rw [hsame]
          exact alone _ _ rfl
        · rw [htasks] at hother
          have htask := List.mem_singleton.mp hother
          unfold supervisorFailed at htask
          dsimp only at htask
          split at htask <;> cases htask
      · rw [made.processes_kept rfl]
        exact alone _ _ rfl
  | runSpawned spawned =>
      rw [spawned]
      cases h
      exact (alone _ _ rfl).append
  | runEnded dead =>
      rw [made.processes_kept rfl]
      cases h
      exact (alone _ _ rfl).exited dead
  | runStopped ended =>
      rw [ended]
      cases h
      exact (alone _ _ rfl).ended
  | runPrepared | runLaunching | runWaiting | runStops | runRetries =>
      rw [made.processes_kept rfl]
      exact alone _ _ h
  | _ => cases h

theorem Command.processes (command : Command) :
    (command.perform host session answer situation).processes =
      situation.processes := by
  cases command with
  | startService | runJob =>
      exact startSection_processes host session answer situation _ _ _ _ _
  | setEnabled id enabled =>
      simp only [Command.perform]
      split <;> rfl
  | _ => rfl

end Sections

end Susm.Controller
