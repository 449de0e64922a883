import Susm.Controller.Mutations
import Susm.Supervisor.Finishing

/-!
# Who records an outcome

The end of an execution is recorded by the task that runs its supervisor or by
the recovery monitor, both from the result file, or by the stream of its
supervisor, from the terminal observation.  Only the monitor asks whether the
execution is stopping.
-/

namespace Susm.Controller

open Susm.Foundation
open Susm.Protocol

/-! ## Recorders -/

/-- `run_execution` with `complete_execution`, `record_supervisor_observation`
and `supervisor_terminal`, with the flags that they look at. -/
inductive Recorder where
  | run (cancelled : Bool)
  | stream
  | monitor (stopping : Bool)
  deriving DecidableEq, Repr

def Recorder.overrides : Recorder → Bool
  | .monitor stopping => stopping
  | .run _ | .stream => false

/-- The end of an execution that was asked to stop. -/
def stopKind : WorkloadKind → ObservationKind
  | .job => .cancelled
  | .service => .stopped

def Advances (host : Host) (session : String) (task : ManagerTask)
    (answer : Answer) (effect : Effect) (tasks : List ManagerTask) : Prop :=
  ∃ now, task.advance host session now answer effect.before =
    some (effect.after.leave tasks)

def Situation.HasRow (situation : Situation)
    (executionId workloadId : String) : Prop :=
  ∃ row, situation.database.executions.lookup executionId = some row ∧
    row.workloadId = workloadId

/--
A recorder reads the end of an execution and records it, with one section that
writes the tables and one that writes the memory.  Any sections of other tasks
may lie between its own.
-/
inductive Records (host : Host) (session : String) (kind : WorkloadKind)
    (observation : RuntimeObservation) (result : AttemptResult)
    (executionId workloadId : String) : Recorder → Effect → Effect → Prop
  | run {run : RunExecution} {cancelled : Bool} {finish : ExecutionFinish}
      {stored : StoredExecution} {exit load write remove : Answer}
      {exited loaded row memory : Effect}
      {tasks more rest last : List ManagerTask}
      (execution : run.executionId = executionId)
      (workload : run.workloadId = workloadId)
      (belongs : stored.workloadId = workloadId)
      (read : exit.result = some result)
      (exits : Advances host session (.runExited run cancelled) exit exited
        tasks)
      (completes : .completeLoad run finish ∈ tasks)
      (loads : Advances host session (.completeLoad run finish) load loaded
        more)
      (found : .completeFinish run finish stored ∈ more)
      (present : row.before.HasRow executionId workloadId)
      (succeeds : write.stored = true)
      (writes : Advances host session (.completeFinish run finish stored)
        write row rest)
      (removes : Advances host session (.completeRemove run finish) remove
        memory last) :
      Records host session kind observation result executionId workloadId
        (.run cancelled) row memory
  | stream {attachmentId : String} {message : SupervisorObservation}
      {stored : StoredExecution} {terminal : TerminalObservation}
      {check commit record : Answer} {checked row memory : Effect}
      {outcome : StateName} {tasks more last : List ManagerTask}
      (belongs : stored.workloadId = workloadId)
      (delivered : message.kind = observation.kind)
      (checks : Advances host session
        (.recordCheck attachmentId executionId stored message) check checked
        tasks)
      (ends : .recordCommit attachmentId executionId stored message
        (some terminal) ∈ tasks)
      (present : row.before.HasRow executionId workloadId)
      (commits : Advances host session (.recordCommit attachmentId executionId
        stored message (some terminal)) commit row more)
      (fresh : .recordTerminal attachmentId executionId stored outcome ∈ more)
      (entry : (memory.before.state.entry workloadId executionId).isSome)
      (records : Advances host session
        (.recordTerminal attachmentId executionId stored outcome) record
        memory last) :
      Records host session kind observation result executionId workloadId
        .stream row memory
  | monitor {stored : StoredExecution} {outcome : StateName}
      {stopping restart : Bool} {remove write : Answer} {row memory : Effect}
      {tasks last : List ManagerTask}
      (belongs : stored.workloadId = workloadId)
      (snapshot : stored.snapshot.kind = kind)
      (entry : (memory.before.state.entry workloadId executionId).map
        (fun active => decide (active.state = .stopping)) = some stopping)
      (removes : Advances host session
        (.terminalRemove executionId stored result) remove memory tasks)
      (ends : .terminalFinish executionId stored outcome result restart ∈
        tasks)
      (present : row.before.HasRow executionId workloadId)
      (clock : (unixMs write.systemTime).isSome)
      (succeeds : write.stored = true)
      (writes : Advances host session
        (.terminalFinish executionId stored outcome result restart) write row
        last) :
      Records host session kind observation result executionId workloadId
        (.monitor stopping) row memory

/-- The state is stored in the row of the execution and as the last outcome of
its workload, in the tables and in memory. -/
structure Stores (executionId workloadId : String) (name : StateName)
    (row memory : Effect) : Prop where
  execution : (row.after.database.executions.lookup executionId).map
    StoredExecution.state = some name
  workload : ∀ stored,
    row.after.database.workloads.lookup workloadId = some stored →
      stored.lastOutcome = some name
  memory : ∀ record,
    memory.after.state.workloads.lookup workloadId = some record →
      record.lastOutcome = some name

/-! ## What is stored -/

section Stored

variable {host : Host} {session : String} {kind : WorkloadKind}
  {observation : RuntimeObservation} {result : AttemptResult}
  {executionId workloadId : String} {recorder : Recorder}
  {row memory : Effect} {name : StateName}

/-- What the recorder makes of the end that the supervisor has recorded. -/
def Recorder.outcome (kind : WorkloadKind) (recorder : Recorder)
    (ended : ObservationKind) : Option StateName :=
  terminalState (if recorder.overrides then stopKind kind else ended)

theorem finishExecution_stores {database : Database}
    {execution : StoredExecution} {stored : StoredExecution}
    (found : database.executions.lookup executionId = some stored) :
    ((database.finishExecution executionId execution).executions.lookup
        executionId).map StoredExecution.state = some execution.state ∧
      ∀ workload, (database.finishExecution executionId
        execution).workloads.lookup execution.workloadId = some workload →
          workload.lastOutcome = some execution.state := by
  constructor
  · simp [Database.finishExecution, Map.lookup_modify, found]
  · intro workload hworkload
    simp only [Database.finishExecution, Database.setLastOutcome,
      Map.lookup_modify, if_pos, Option.map_eq_some_iff] at hworkload
    obtain ⟨before, -, rfl⟩ := hworkload
    rfl

theorem commitObservation_stores {database after : Database}
    {sequence : Nat} {terminal : TerminalObservation}
    (present : ∃ row, database.executions.lookup executionId = some row ∧
      row.workloadId = workloadId)
    (commits : database.commitObservation executionId sequence
      (.terminal terminal) = .ok (true, after)) :
    (after.executions.lookup executionId).map StoredExecution.state =
        some terminal.state ∧
      ∀ workload, after.workloads.lookup workloadId = some workload →
        workload.lastOutcome = some terminal.state := by
  obtain ⟨row, hrow, ⟨hfalse, -⟩ | ⟨-, -, rfl⟩⟩ :=
    Database.commitObservation_ok commits
  · cases hfalse
  obtain ⟨found, hfound, rfl⟩ := present
  cases hrow.symm.trans hfound
  constructor
  · simp [Database.observed]
  · intro workload hworkload
    simp only [Database.observedWorkloads, Database.setLastOutcome,
      Map.lookup_modify, if_pos, Option.map_eq_some_iff] at hworkload
    obtain ⟨before, -, rfl⟩ := hworkload
    rfl

theorem setLastOutcome_remembers {state : State} {outcome : StateName}
    {record : WorkloadRecord}
    (found : (state.setLastOutcome workloadId outcome).workloads.lookup
      workloadId = some record) :
    record.lastOutcome = some outcome := by
  simp only [State.setLastOutcome, Map.lookup_modify, if_pos,
    Option.map_eq_some_iff] at found
  obtain ⟨before, -, rfl⟩ := found
  rfl

/-! ## Sections -/

variable {answer : Answer} {effect : Effect} {tasks : List ManagerTask}
  {run : RunExecution} {finish : ExecutionFinish} {stored : StoredExecution}

theorem leave_injective {first second : Situation}
    {more : List ManagerTask}
    (same : some (first.leave tasks) = some (second.leave more)) :
    second = first ∧ more = tasks := by
  cases same
  exact ⟨rfl, rfl⟩

theorem Advances.runExited {cancelled : Bool}
    (advances : Advances host session (.runExited run cancelled) answer effect
      tasks) (read : answer.result = some result) :
    tasks = [.completeLoad run (executionFinish run result cancelled)] := by
  obtain ⟨now, advanced⟩ := advances
  simp only [ManagerTask.advance, read] at advanced
  exact (leave_injective advanced).2

theorem Advances.completeFinish
    (advances : Advances host session (.completeFinish run finish stored)
      answer effect tasks) (succeeds : answer.stored = true) :
    ∃ ended, effect.after.database =
      effect.before.database.finishExecution run.executionId ended ∧
      ended.state = finish.state ∧ ended.workloadId = stored.workloadId := by
  obtain ⟨now, advanced⟩ := advances
  simp only [ManagerTask.advance, succeeds, if_pos] at advanced
  have hafter := (leave_injective advanced).1
  refine ⟨_, congrArg Situation.database hafter, ?_, ?_⟩ <;> rfl

theorem Advances.completeRemove
    (advances : Advances host session (.completeRemove run finish) answer
      effect tasks) :
    ∃ state, effect.after.state =
      (State.setLastOutcome state run.workloadId finish.state).bump := by
  obtain ⟨now, advanced⟩ := advances
  simp only [ManagerTask.advance] at advanced
  exact ⟨_, congrArg Situation.state (leave_injective advanced).1⟩

theorem Advances.recordCheck {attachmentId : String}
    {message : SupervisorObservation} {terminal : TerminalObservation}
    (advances : Advances host session
      (.recordCheck attachmentId executionId stored message) answer effect
      tasks)
    (ends : .recordCommit attachmentId executionId stored message
      (some terminal) ∈ tasks) :
    terminalState message.kind = some terminal.state := by
  obtain ⟨now, advanced⟩ := advances
  simp only [ManagerTask.advance] at advanced
  obtain ⟨-, rfl⟩ := leave_injective advanced
  have hterminal := (ManagerTask.recordCommit.inj
    (List.mem_singleton.mp ends)).2.2.2.2
  obtain ⟨name, hname, hentry⟩ := Option.bind_eq_some_iff.mp hterminal.symm
  obtain ⟨active, -, rfl⟩ := Option.map_eq_some_iff.mp hentry
  exact hname

theorem Advances.recordCommit {attachmentId : String}
    {message : SupervisorObservation} {terminal : TerminalObservation}
    {outcome : StateName}
    (advances : Advances host session (.recordCommit attachmentId executionId
      stored message (some terminal)) answer effect tasks)
    (fresh : .recordTerminal attachmentId executionId stored outcome ∈
      tasks) :
    outcome = terminal.state ∧
      effect.before.database.commitObservation executionId message.sequence
        (.terminal terminal) = .ok (true, effect.after.database) := by
  obtain ⟨now, advanced⟩ := advances
  simp only [ManagerTask.advance] at advanced
  split at advanced
  · rename_i committed database hcommit hstored
    obtain ⟨hafter, rfl⟩ := leave_injective advanced
    cases committed with
    | false => cases List.mem_singleton.mp fresh
    | true =>
        cases List.mem_singleton.mp fresh
        rw [hafter]
        exact ⟨rfl, hcommit⟩
  · obtain ⟨-, rfl⟩ := leave_injective advanced
    cases List.mem_singleton.mp fresh

theorem Advances.recordTerminal {attachmentId : String} {outcome : StateName}
    (advances : Advances host session
      (.recordTerminal attachmentId executionId stored outcome) answer effect
      tasks)
    (entry : (effect.before.state.entry stored.workloadId
      executionId).isSome) :
    ∃ state, effect.after.state =
      (State.setLastOutcome state stored.workloadId outcome).bump := by
  obtain ⟨active, entry⟩ := Option.isSome_iff_exists.mp entry
  obtain ⟨now, advanced⟩ := advances
  simp only [ManagerTask.advance, State.recordTerminal, entry] at advanced
  exact ⟨_, congrArg Situation.state (leave_injective advanced).1⟩

theorem Advances.terminalRemove {outcome : StateName}
    {stopping restart : Bool}
    (advances : Advances host session
      (.terminalRemove executionId stored result) answer effect tasks)
    (entry : (effect.before.state.entry stored.workloadId executionId).map
      (fun active => decide (active.state = .stopping)) = some stopping)
    (ends : .terminalFinish executionId stored outcome result restart ∈
      tasks) :
    outcome = State.terminalName stopping stored.snapshot result ∧
      ∃ state, effect.after.state =
        (State.setLastOutcome state stored.workloadId outcome).bump := by
  obtain ⟨active, hentry, rfl⟩ := Option.map_eq_some_iff.mp entry
  obtain ⟨now, advanced⟩ := advances
  simp only [ManagerTask.advance, State.supervisorTerminal, hentry,
    Option.filter] at advanced
  cases howned : active.locallyOwned with
  | true =>
      simp only [howned, Bool.not_true, Bool.false_eq_true, if_false,
        Option.map_none] at advanced
      obtain ⟨-, rfl⟩ := leave_injective advanced
      cases ends
  | false =>
      simp only [howned, Bool.not_false, if_true, Option.map_some]
        at advanced
      obtain ⟨hafter, rfl⟩ := leave_injective advanced
      cases List.mem_singleton.mp ends
      exact ⟨rfl, _, congrArg Situation.state hafter⟩

theorem Advances.terminalFinish {outcome : StateName} {restart : Bool}
    (advances : Advances host session
      (.terminalFinish executionId stored outcome result restart) answer
      effect tasks)
    (clock : (unixMs answer.systemTime).isSome)
    (succeeds : answer.stored = true) :
    ∃ ended, effect.after.database =
      effect.before.database.finishExecution executionId ended ∧
      ended.state = outcome ∧ ended.workloadId = stored.workloadId := by
  obtain ⟨time, htime⟩ := Option.isSome_iff_exists.mp clock
  obtain ⟨now, advanced⟩ := advances
  simp only [ManagerTask.advance, htime, succeeds] at advanced
  have hafter := (leave_injective advanced).1
  refine ⟨_, congrArg Situation.database hafter, ?_, ?_⟩ <;> rfl

theorem Stores.of_finish {ended : StoredExecution} {state : State}
    (present : row.before.HasRow executionId workloadId)
    (written : row.after.database =
      row.before.database.finishExecution executionId ended)
    (belongs : ended.workloadId = workloadId)
    (remembered : memory.after.state =
      (state.setLastOutcome workloadId ended.state).bump) :
    Stores executionId workloadId ended.state row memory := by
  obtain ⟨current, hcurrent, -⟩ := present
  obtain ⟨execution, workload⟩ :=
    @finishExecution_stores executionId _ ended _ hcurrent
  rw [belongs] at workload
  refine ⟨?_, ?_, ?_⟩
  · rwa [written]
  · rwa [written]
  · rw [remembered]
    exact fun record => setLastOutcome_remembers

theorem Records.stores
    (ended : result.outcome = some observation.kind)
    (terminal : terminalState observation.kind = some name)
    (records : Records host session kind observation result executionId
      workloadId recorder row memory) :
    ∃ name, recorder.outcome kind observation.kind = some name ∧
      Stores executionId workloadId name row memory := by
  cases records with
  | run execution workload belongs read exits completes loads found present
      succeeds writes removes =>
      subst execution workload
      have hexited := exits.runExited read
      subst hexited
      cases List.mem_singleton.mp completes
      obtain ⟨written, hwritten, hstate, hworkload⟩ :=
        writes.completeFinish succeeds
      obtain ⟨state, hremembered⟩ := removes.completeRemove
      refine ⟨written.state, ?_, .of_finish present hwritten
        (hworkload.trans belongs) (hstate ▸ hremembered)⟩
      simp [Recorder.outcome, Recorder.overrides, hstate, executionFinish,
        ended, terminal]
  | stream belongs delivered checks ends present commits fresh entry records =>
      subst belongs
      have hterminal := checks.recordCheck ends
      obtain ⟨rfl, committed⟩ := commits.recordCommit fresh
      obtain ⟨state, hremembered⟩ := records.recordTerminal entry
      obtain ⟨execution, workload⟩ :=
        commitObservation_stores present committed
      rw [delivered] at hterminal
      refine ⟨_, hterminal, execution, workload, ?_⟩
      rw [hremembered]
      exact fun record => setLastOutcome_remembers
  | @monitor _ _ stopping _ _ _ _ _ _ _ belongs snapshot entry removes ends
      present clock succeeds writes =>
      subst belongs
      obtain ⟨rfl, state, hremembered⟩ := removes.terminalRemove entry ends
      obtain ⟨written, hwritten, hstate, hworkload⟩ :=
        writes.terminalFinish clock succeeds
      refine ⟨written.state, ?_, .of_finish present hwritten hworkload
        (hstate ▸ hremembered)⟩
      rw [hstate]
      cases stopping with
      | false =>
          simp [Recorder.outcome, Recorder.overrides, State.terminalName,
            ended, terminal]
      | true =>
          simp only [Recorder.outcome, Recorder.overrides, State.terminalName,
            if_true, snapshot]
          cases kind <;> rfl

theorem Stores.unique {other : StateName}
    (first : Stores executionId workloadId name row memory)
    (second : Stores executionId workloadId other row memory) :
    name = other :=
  Option.some.inj (first.execution.symm.trans second.execution)

theorem terminalState_injective {one other : ObservationKind}
    (same : terminalState one = terminalState other)
    (terminal : terminalState one = some name) : one = other := by
  cases one <;> cases other <;> simp_all [terminalState]

theorem Recorder.outcome_eq_iff {one other : Recorder}
    {ended : ObservationKind} (terminal : terminalState ended = some name) :
    one.outcome kind ended = other.outcome kind ended ↔
      one.overrides = other.overrides ∨ ended = stopKind kind := by
  unfold Recorder.outcome
  have stops : terminalState ended = terminalState (stopKind kind) ↔
      ended = stopKind kind :=
    ⟨fun same => terminalState_injective same terminal, congrArg _⟩
  cases one.overrides <;> cases other.overrides <;>
    simp [stops, eq_comm.trans stops]

end Stored

/--
Two recorders of one end store the same state exactly when neither or both find
the execution stopping where they ask for it, or the supervisor has recorded
itself that the execution was stopped.
-/
theorem recorders_agree_iff {host : Host} {session : String}
    {configuration : ExecutionConfiguration}
    {observation : RuntimeObservation} {result : AttemptResult}
    {executionId workloadId : String} {one other : Recorder}
    {row memory otherRow otherMemory : Effect}
    (leaves : Supervisor.Leaves configuration observation result)
    (first : Records host session configuration.kind observation result
      executionId workloadId one row memory)
    (second : Records host session configuration.kind observation result
      executionId workloadId other otherRow otherMemory) :
    (∃ name, Stores executionId workloadId name row memory ∧
        Stores executionId workloadId name otherRow otherMemory) ↔
      one.overrides = other.overrides ∨
        observation.kind = stopKind configuration.kind := by
  obtain ⟨ended, hkind⟩ := leaves.agree
  obtain ⟨name, terminal⟩ : ∃ name,
      terminalState observation.kind = some name := by
    simp only [List.mem_cons, List.not_mem_nil, or_false] at hkind
    rcases hkind with h | h | h | h | h <;> exact ⟨_, by rw [h]; rfl⟩
  obtain ⟨stored, houtcome, hstored⟩ := first.stores ended terminal
  obtain ⟨otherStored, hotherOutcome, hotherStored⟩ :=
    second.stores ended terminal
  rw [← Recorder.outcome_eq_iff terminal, houtcome, hotherOutcome,
    Option.some.injEq]
  constructor
  · rintro ⟨name, hname, hotherName⟩
    exact (hstored.unique hname).trans (hotherName.unique hotherStored)
  · rintro rfl
    exact ⟨_, hstored, hotherStored⟩

/-! ## One end, recorded twice -/

def Situation.Reached (host : Host) (situation : Situation) : Prop :=
  ∃ world manager, World.Reachable host world ∧
    world.controller = some manager ∧
    world.situation manager = situation

/-- The tool has come back to a controller that was started again, and it may
have been asked to stop. -/
def readoptedSituation (stopping : Bool) : Situation where
  state :=
    if stopping then (readoptedManager.state.cancel "tool" .service false).2
    else readoptedManager.state
  database := readoptedWorld.database
  processes := readoptedWorld.processes

theorem readoptedSituation_reached (stopping : Bool) :
    (readoptedSituation stopping).Reached installation := by
  cases stopping with
  | false => exact ⟨_, _, readoptedWorld_reachable, rfl, rfl⟩
  | true =>
      have moved : World.step installation readoptedWorld World.stopEvent =
          some _ := rfl
      exact ⟨_, _, readoptedWorld_reachable.tail trivial moved, rfl, rfl⟩

def completedObservation : RuntimeObservation where
  sequence := 1
  kind := .completed
  attempt := 1
  exitCode := some 0
  detail := ""
  observedUnixMs := 0
  terminal := true
  workloadProcessId := 0

theorem completed_leaves :
    Supervisor.Leaves runningDefinition completedObservation
      completedResult := by
  have reaches := Program.exec_reaches_all Supervisor.AttemptWorld.answer
    (Supervisor.finishExecution runningDefinition
      ⟨"runtime.pb", ⟨"supervisor", 1⟩, 0, 0⟩ 1
      { completedResult with outcome := none }) ⟨0, []⟩
  refine ⟨_, _, _, .decided _ _ _, reaches, ⟨.synced, ?_⟩, .ok (), ?_⟩
  · exact .tail _ (.head _)
  · exact .tail _ (.tail _ (.head _))

def completedMessage : SupervisorObservation where
  sequence := 1
  kind := .completed
  exitCode := some 0
  detail := ""
  attempt := 1
  workloadProcessId := 0

def completedTerminal : TerminalObservation where
  state := .completed
  endedUnixMs := 1_000
  exitCode := some 0
  error := ""
  attempt := 1

theorem advances_get {host : Host} {session : String} {task : ManagerTask}
    {answer : Answer} {situation : Situation}
    (goes : (task.advance host session 0 answer situation).isSome) :
    Advances host session task answer
      ⟨situation, (Option.get _ goes).toSituation⟩
      (Option.get _ goes).tasks :=
  ⟨0, (Option.some_get goes).symm⟩

theorem commit_goes : ∀ stopping,
    ((ManagerTask.recordCommit "a2" "e1" runningRow completedMessage
      (some completedTerminal)).advance installation sampleSession 0 calm
        (readoptedSituation stopping)).isSome := by decide +kernel

theorem readopted_stream (stopping : Bool) :
    ∃ row memory, row.before = readoptedSituation stopping ∧
      Records installation sampleSession .service completedObservation
        completedResult "e1" "tool" .stream row memory := by
  have checks := @advances_get installation sampleSession
    (.recordCheck "a2" "e1" runningRow completedMessage) calm
    (readoptedSituation stopping) rfl
  have commits := @advances_get installation sampleSession
    (.recordCommit "a2" "e1" runningRow completedMessage
      (some completedTerminal)) calm (readoptedSituation stopping)
    (commit_goes stopping)
  have records := @advances_get installation sampleSession
    (.recordTerminal "a2" "e1" runningRow .completed) calm
    (readoptedSituation stopping) rfl
  refine ⟨_, _, rfl, .stream rfl rfl checks ?_ ⟨runningRow, rfl, rfl⟩ commits
    ?_ ?_ records⟩ <;> cases stopping <;> decide +kernel

theorem readopted_monitor (stopping : Bool) :
    ∃ row memory, memory.before = readoptedSituation stopping ∧
      Records installation sampleSession .service completedObservation
        completedResult "e1" "tool" (.monitor stopping) row memory := by
  have removes := @advances_get installation sampleSession
    (.terminalRemove "e1" runningRow completedResult) calm
    (readoptedSituation stopping) (by cases stopping <;> decide +kernel)
  have writes := @advances_get installation sampleSession
    (.terminalFinish "e1" runningRow
      (if stopping then .stopped else .completed) completedResult false) calm
    (readoptedSituation stopping) rfl
  refine ⟨_, _, rfl, .monitor rfl rfl ?_ removes ?_ ⟨runningRow, rfl, rfl⟩
    rfl rfl writes⟩ <;> cases stopping <;> decide +kernel

/-- The tool has not been asked to stop. -/
theorem recorders_agree_iff_completed :
    ∃ name row memory otherRow otherMemory,
      Stores "e1" "tool" name row memory ∧
        Stores "e1" "tool" name otherRow otherMemory ∧
        row.before = readoptedSituation false ∧
        otherMemory.before = readoptedSituation false := by
  obtain ⟨row, memory, hrow, first⟩ := readopted_stream false
  obtain ⟨otherRow, otherMemory, hmemory, second⟩ := readopted_monitor false
  obtain ⟨name, stores, otherStores⟩ :=
    (recorders_agree_iff completed_leaves first second).mpr (.inl rfl)
  exact ⟨name, row, memory, otherRow, otherMemory, stores, otherStores, hrow,
    hmemory⟩

/-- The tool ends by itself while it is asked to stop. -/
theorem completed_recorded_stopped :
    ¬ ∀ (host : Host) (session : String)
        (configuration : ExecutionConfiguration)
        (observation : RuntimeObservation) (result : AttemptResult)
        (executionId workloadId : String) (one other : Recorder)
        (row memory otherRow otherMemory : Effect),
      Supervisor.Leaves configuration observation result →
      row.before.Reached host → otherMemory.before.Reached host →
      Records host session configuration.kind observation result executionId
        workloadId one row memory →
      Records host session configuration.kind observation result executionId
        workloadId other otherRow otherMemory →
      ∃ name, Stores executionId workloadId name row memory ∧
        Stores executionId workloadId name otherRow otherMemory := by
  intro h
  obtain ⟨row, memory, hrow, first⟩ := readopted_stream true
  obtain ⟨otherRow, otherMemory, hmemory, second⟩ := readopted_monitor true
  obtain ⟨name, stores, otherStores⟩ := h installation sampleSession
    runningDefinition completedObservation completedResult "e1" "tool" _ _ _ _
    _ _ completed_leaves (hrow ▸ readoptedSituation_reached true)
    (hmemory ▸ readoptedSituation_reached true) first second
  obtain ⟨recorded, houtcome, hstored⟩ := first.stores rfl rfl
  obtain ⟨otherRecorded, hother, hotherStored⟩ := second.stores rfl rfl
  cases houtcome
  cases hother
  cases (hstored.unique stores).trans (otherStores.unique hotherStored)

end Susm.Controller
