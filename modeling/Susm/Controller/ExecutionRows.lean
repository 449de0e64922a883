import Susm.Controller.Sections

/-!
# Rows of executions

What a section does to the row of an execution: it inserts it, acknowledges an
observation on it, rewrites it, or leaves it alone.  No statement that rewrites
a row asks whether the execution has ended.
-/

namespace Susm.Controller

open Susm.Foundation
open Susm.Protocol

def StateName.isProgress : StateName → Bool
  | .running | .launchFailed | .attemptExited | .supervisorLost
  | .restartBackoff => true
  | _ => false

theorem progressObservation_isProgress {observation : SupervisorObservation}
    {progress : ProgressObservation}
    (h : progressObservation observation = some progress) :
    progress.state.isProgress = true := by
  unfold progressObservation at h
  dsimp only at h
  split at h <;> cases h <;> rfl

/-! ## Changes of one row -/

/-- What never changes in the row of an execution. -/
structure SameExecution (before after : StoredExecution) : Prop where
  workloadId : after.workloadId = before.workloadId
  startedUnixMs : after.startedUnixMs = before.startedUnixMs
  snapshot : after.snapshot = before.snapshot

theorem SameExecution.refl (row : StoredExecution) : SameExecution row row :=
  ⟨rfl, rfl, rfl⟩

theorem SameExecution.trans {first second third : StoredExecution}
    (before : SameExecution first second)
    (after : SameExecution second third) : SameExecution first third :=
  ⟨after.workloadId.trans before.workloadId,
    after.startedUnixMs.trans before.startedUnixMs,
    after.snapshot.trans before.snapshot⟩

/-- A statement that writes more than the cursor of the row; a statement that
ends it stores the given end. -/
inductive Rewrites (ending : Option Int) (before after : StoredExecution) :
    Prop where
  | launched (same : SameExecution before after)
      (state : after.state = .launching)
      (endedUnixMs : after.endedUnixMs = before.endedUnixMs)
  | progressed (same : SameExecution before after)
      (state : after.state.isProgress = true)
      (endedUnixMs : after.endedUnixMs = before.endedUnixMs)
  | ended (same : SameExecution before after)
      (state : after.state.isOutcome = true)
      (endedUnixMs : ending = some after.endedUnixMs)

theorem Rewrites.same {ending : Option Int} {before after : StoredExecution}
    (h : Rewrites ending before after) : SameExecution before after := by
  cases h <;> assumption

/-- Everything else that happens to the row with an id. -/
inductive Spared : Option StoredExecution → Option StoredExecution → Prop where
  | kept (row : Option StoredExecution) : Spared row row
  | inserted {row : StoredExecution} (state : row.state = .starting)
      (endedUnixMs : row.endedUnixMs = 0) : Spared none (some row)
  | acknowledged (row : StoredExecution) (sequence : Nat) :
      Spared (some row) (some { row with committedSequence := sequence })

/-! ## The sections that rewrite a row -/

def ManagerTask.rewrites (host : Host) (answer : Answer)
    (situation : Situation) : ManagerTask → Option String
  | .attachSupervisor hello stored =>
      match situation.state.attachSupervisor host hello stored answer.uuid with
      | .ok (true, _) => if answer.stored then some hello.executionId else none
      | _ => none
  | .runSpawned run _ => if answer.stored then some run.executionId else none
  | .completeFinish run _ _ =>
      if answer.stored then some run.executionId else none
  | .terminalFinish executionId _ _ _ _ =>
      if answer.stored ∧ (unixMs answer.systemTime).isSome then
        some executionId
      else none
  | .recordCommit _ executionId _ observation terminal =>
      if answer.stored ∧
          (terminal.isSome ∨ (progressObservation observation).isSome) ∧
          (situation.database.getExecution executionId).any
            fun row => observation.sequence = row.committedSequence + 1 then
        some executionId
      else none
  | _ => none

/-- The end that the next section of a task stores. -/
def ManagerTask.ending (answer : Answer) : ManagerTask → Option Int
  | .terminalFinish _ _ _ _ _ => unixMs answer.systemTime
  | .completeFinish run _ _ =>
      some ((unixMs answer.systemTime).getD run.started)
  | .recordCommit _ _ _ _ terminal =>
      terminal.map TerminalObservation.endedUnixMs
  | _ => none

def ManagerTask.HasOutcome : ManagerTask → Prop
  | .terminalFinish _ _ outcome _ _ => outcome.isOutcome = true
  | .recordCommit _ _ _ _ terminal =>
      ∀ update, terminal = some update → update.state.isOutcome = true
  | .completeLoad _ finish | .completeFinish _ finish _ =>
      finish.state.isOutcome = true
  | _ => True

theorem terminalName_isOutcome (stopping : Bool)
    (definition : ExecutionConfiguration) (result : AttemptResult) :
    (State.terminalName stopping definition result).isOutcome = true := by
  unfold State.terminalName
  split
  · cases definition.kind <;> rfl
  · split
    · rename_i outcome houtcome
      obtain ⟨kind, -, hkind⟩ := Option.bind_eq_some_iff.mp houtcome
      exact terminalState_isOutcome hkind
    · split <;> rfl

theorem executionFinish_isOutcome (run : RunExecution) (result : AttemptResult)
    (cancelled : Bool) :
    (executionFinish run result cancelled).state.isOutcome = true := by
  unfold executionFinish
  dsimp only
  split
  · rename_i outcome houtcome
    obtain ⟨kind, -, hkind⟩ := Option.bind_eq_some_iff.mp houtcome
    exact terminalState_isOutcome hkind
  · split
    · cases run.definition.kind <;> rfl
    · split <;> rfl

theorem supervisorFailed_hasOutcome (run : RunExecution)
    {unavailable : ExecutionFinish}
    (h : unavailable.state.isOutcome = true) :
    (supervisorFailed run unavailable).HasOutcome := by
  unfold supervisorFailed
  dsimp only
  split
  · exact h
  · trivial

theorem terminalUpdate_isOutcome {state : State} {executionId : String}
    {stored : StoredExecution} {observation : SupervisorObservation}
    {systemTime : Int} {update : TerminalObservation}
    (h : state.terminalUpdate executionId stored observation systemTime =
      some update) : update.state.isOutcome = true := by
  obtain ⟨name, hname, h⟩ := Option.bind_eq_some_iff.mp h
  obtain ⟨active, -, rfl⟩ := Option.map_eq_some_iff.mp h
  exact terminalState_isOutcome hname

section Advance

variable {host : Host} {session : String} {now : Nat} {answer : Answer}
  {situation : Situation} {outcome : Outcome}

theorem Caller.hasOutcome (caller : Caller) :
    ∀ task ∈ caller.tasks, task.HasOutcome := by
  cases caller <;> simp [Caller.tasks, ManagerTask.HasOutcome]

theorem startSection_tasks {id : String} {expectedKind : WorkloadKind}
    {exclusive : Bool} {enabledManagerSession : Option String}
    {next : List ManagerTask} {task : ManagerTask}
    (h : task ∈ (startSection host session answer situation id expectedKind
      exclusive enabledManagerSession next).tasks) :
    task ∈ next ∨ ∃ run, task = .runPrepare run := by
  rcases startSection_cases host session answer situation id expectedKind
    exclusive enabledManagerSession next with hsame | ⟨_, _, _, _, -, hstarted⟩
  · rw [hsame] at h
    exact .inl h
  · rw [hstarted] at h
    rcases List.mem_cons.mp h with rfl | h
    · exact .inr ⟨_, rfl⟩
    · exact .inl h

theorem startSection_hasOutcome {id : String} {expectedKind : WorkloadKind}
    {exclusive : Bool} {enabledManagerSession : Option String}
    {next : List ManagerTask} (hnext : ∀ task ∈ next, task.HasOutcome) :
    ∀ task ∈ (startSection host session answer situation id expectedKind
      exclusive enabledManagerSession next).tasks, task.HasOutcome := by
  intro task htask
  rcases startSection_tasks htask with htask | ⟨run, rfl⟩
  · exact hnext task htask
  · trivial

theorem Section.hasOutcome {task : ManagerTask}
    (made : Section host session now answer situation task outcome)
    (h : task.HasOutcome) : ∀ other ∈ outcome.tasks, other.HasOutcome := by
  cases made with
  | givesUp made =>
      cases made <;>
        simp [Situation.leave, ManagerTask.HasOutcome] <;>
        exact Caller.hasOutcome _
  | initialReload =>
      unfold reloadTasks
      intro other hother
      split at hother
      · exact Caller.hasOutcome .startup other hother
      · split at hother
        · exact Caller.hasOutcome .startup other hother
        · simp only [Situation.leave, List.mem_singleton] at hother
          subst hother
          trivial
  | startRecoveryMonitors =>
      intro other hother
      simp only [Situation.leave, List.mem_cons, List.mem_map] at hother
      rcases hother with rfl | ⟨executionId, -, rfl⟩ <;> trivial
  | servicesDone =>
      split <;> simp [Situation.leave, ManagerTask.HasOutcome]
  | startService | startJob =>
      exact startSection_hasOutcome (by simp [ManagerTask.HasOutcome])
  | rerunIdle => exact startSection_hasOutcome (by simp)
  | replacementStart => exact startSection_hasOutcome (Caller.hasOutcome _)
  | replaceDefinitions =>
      split <;> simp [Situation.leave, ManagerTask.HasOutcome]
  | applyReload | keepReload => exact Caller.hasOutcome _
  | terminalRemoved removed =>
      obtain ⟨active, -, hactive⟩ := Option.map_eq_some_iff.mp removed
      cases hactive
      simp only [Situation.leave, List.mem_singleton, forall_eq]
      exact terminalName_isOutcome _ _ _
  | terminalFinished =>
      split <;> simp [Situation.leave, ManagerTask.HasOutcome]
  | recordCheck =>
      simp only [Situation.leave, List.mem_singleton, forall_eq]
      exact fun update => terminalUpdate_isOutcome
  | recordTerminal =>
      split <;> simp [Situation.leave, ManagerTask.HasOutcome]
  | completeRemoved =>
      split <;> simp [Situation.leave, ManagerTask.HasOutcome]
  | runUnprepared => simp [Situation.leave, ManagerTask.HasOutcome, ioFinish,
      StateName.isOutcome]
  | runCancelled | runResult =>
      simp only [Situation.leave, List.mem_singleton, forall_eq]
      exact executionFinish_isOutcome _ _ _
  | runUnspawned | runFailed =>
      simp only [Situation.leave, List.mem_singleton, forall_eq]
      exact supervisorFailed_hasOutcome _ rfl
  | completeLoaded => simpa [Situation.leave, ManagerTask.HasOutcome] using h
  | _ => simp [Situation.leave, ManagerTask.HasOutcome]

/-! ## Rows after a section -/

/-- What a section does to the rows. -/
def RowsChanged (ending : Option Int) (target : Option String)
    (before after : Map String StoredExecution) : Prop :=
  ∀ id, Spared (before.lookup id) (after.lookup id) ∨
    (target = some id ∧ ∃ row changed, before.lookup id = some row ∧
      after.lookup id = some changed ∧ Rewrites ending row changed)

theorem rowsChanged_refl (ending : Option Int) (target : Option String)
    (rows : Map String StoredExecution) :
    RowsChanged ending target rows rows :=
  fun _ => .inl (.kept _)

/-- A statement `UPDATE ... WHERE id = ?` -/
theorem rowsChanged_modify {ending : Option Int}
    {rows : Map String StoredExecution} {id : String}
    {change : StoredExecution → StoredExecution}
    (h : ∀ row, rows.lookup id = some row → Rewrites ending row (change row)) :
    RowsChanged ending (some id) rows (rows.modify id change) := by
  intro other
  rw [Map.lookup_modify]
  split
  · subst other
    cases hrow : rows.lookup id with
    | none => exact .inl (.kept none)
    | some row => exact .inr ⟨rfl, row, change row, rfl, rfl, h row hrow⟩
  · exact .inl (.kept _)

theorem rowsChanged_launched {ending : Option Int} {database : Database}
    {id : String} {processId : Nat} :
    RowsChanged ending (some id) database.executions
      (database.setExecutionSupervisor id processId).executions :=
  rowsChanged_modify fun _ _ => .launched ⟨rfl, rfl, rfl⟩ rfl rfl

theorem rowsChanged_finished {database : Database} {id : String}
    {execution : StoredExecution} (h : execution.state.isOutcome = true) :
    RowsChanged (some execution.endedUnixMs) (some id) database.executions
      (database.finishExecution id execution).executions :=
  rowsChanged_modify fun _ _ => .ended ⟨rfl, rfl, rfl⟩ h rfl

theorem rowsChanged_committed {database after : Database} {id : String}
    {observation : SupervisorObservation}
    {terminal : Option TerminalObservation} {committed : Bool}
    (houtcome : ∀ update, terminal = some update →
      update.state.isOutcome = true)
    (h : database.commitObservation id observation.sequence
      (observationUpdate observation terminal) = .ok (committed, after)) :
    RowsChanged (terminal.map TerminalObservation.endedUnixMs)
      (if (terminal.isSome ∨ (progressObservation observation).isSome) ∧
          (database.getExecution id).any
            fun row => observation.sequence = row.committedSequence + 1 then
        some id
      else none)
      database.executions after.executions := by
  obtain ⟨row, hrow, ⟨rfl, rfl, -⟩ | ⟨rfl, hnext, rfl⟩⟩ :=
    Database.commitObservation_ok h
  · exact rowsChanged_refl _ _ _
  intro other
  simp only [Map.lookup_insert_eq]
  split
  swap
  · exact .inl (.kept _)
  subst other
  rw [hrow]
  have hfound : (database.getExecution id).any
      fun row => observation.sequence = row.committedSequence + 1 := by
    simp [Database.getExecution, hrow, hnext]
  cases terminal with
  | some terminal =>
      refine .inr ⟨?_, row, _, rfl, rfl, .ended ⟨rfl, rfl, rfl⟩ ?_ rfl⟩
      · rw [if_pos ⟨.inl rfl, hfound⟩]
      · exact houtcome terminal rfl
  | none =>
      cases hprogress : progressObservation observation with
      | some progress =>
          refine .inr ⟨?_, row, _, rfl, rfl, .progressed ?_ ?_ ?_⟩
          · rw [if_pos ⟨.inr rfl, hfound⟩]
          all_goals simp only [observationUpdate, hprogress]
          · exact ⟨rfl, rfl, rfl⟩
          · exact progressObservation_isProgress hprogress
          · rfl
      | none =>
          refine .inl ?_
          simp only [observationUpdate, hprogress]
          exact .acknowledged row observation.sequence

theorem startSection_rows {id : String} {expectedKind : WorkloadKind}
    {exclusive : Bool} {enabledManagerSession : Option String}
    {next : List ManagerTask} {ending : Option Int} {target : Option String} :
    RowsChanged ending target situation.database.executions
      (startSection host session answer situation id expectedKind exclusive
        enabledManagerSession next).database.executions := by
  rcases startSection_cases host session answer situation id expectedKind
    exclusive enabledManagerSession next with
    hsame | ⟨started, _, _, _, creates, hstarted⟩
  · rw [hsame]
    exact rowsChanged_refl _ _ _
  · intro other
    rw [hstarted]
    dsimp only
    rw [creates.executions, Map.lookup_insert_eq]
    split
    · subst other
      rw [creates.unused]
      exact .inl (.inserted rfl rfl)
    · exact .inl (.kept _)

theorem Section.rows {task : ManagerTask}
    (made : Section host session now answer situation task outcome)
    (h : task.HasOutcome) :
    RowsChanged (task.ending answer) (task.rewrites host answer situation)
      situation.database.executions outcome.database.executions := by
  cases made with
  | startService | startJob | rerunIdle | replacementStart =>
      exact startSection_rows
  | replaceDefinitions =>
      intro id
      refine .inl ?_
      unfold Database.replaceDefinitions
      split <;> exact .kept _
  | terminalFinished clock succeeded =>
      simp only [ManagerTask.rewrites, ManagerTask.ending, clock, succeeded,
        Option.isSome_some, and_self, if_true]
      exact rowsChanged_finished h
  | attachedLocally unused accepted succeeded =>
      simp only [ManagerTask.rewrites, accepted, succeeded, if_true]
      exact rowsChanged_launched
  | recordRepeated committed =>
      obtain ⟨row, hrow, ⟨-, rfl, -⟩ | ⟨hfalse, -, -⟩⟩ :=
        Database.commitObservation_ok committed
      · exact rowsChanged_refl _ _ _
      · cases hfalse
  | recordEnded committed succeeded =>
      simp only [ManagerTask.rewrites, succeeded, true_and]
      exact rowsChanged_committed h committed
  | recordAdvanced committed succeeded =>
      simp only [ManagerTask.rewrites, succeeded, true_and]
      exact rowsChanged_committed h committed
  | runStored succeeded =>
      simp only [ManagerTask.rewrites, succeeded, if_true]
      exact rowsChanged_launched
  | completeFinished succeeded =>
      simp only [ManagerTask.rewrites, succeeded, if_true]
      exact rowsChanged_finished h
  | _ => exact rowsChanged_refl _ _ _

end Advance

end Susm.Controller
