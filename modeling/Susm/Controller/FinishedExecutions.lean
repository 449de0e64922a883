import Susm.Controller.DetachedExecutions
import Susm.Controller.Removals
import Susm.Controller.UnfinishedRows

/-!
# Finished executions

A finished row is rewritten by what crosses the end of its execution: an
attachment that is stored between the two halves of `complete_execution`,
progress that is recorded after the first of them, and a terminal observation
that is committed beside the recovery monitor.  Where nothing crosses it, the
row stays as it is.
-/

namespace Susm.Controller

open Susm.Foundation
open Susm.Protocol

/-! ## What crosses the end of an execution -/

namespace ManagerTask

/-- The execution whose row a task finishes later, or starts again. -/
def writer : ManagerTask → Option String
  | .terminalFinish executionId _ _ _ _ => some executionId
  | task => task.runs

/-- `complete_execution` has finished the row and not removed the entry. -/
def completes (executionId : String) : ManagerTask → Bool
  | .completeRemove run _ => run.executionId = executionId
  | _ => false

/-- A terminal observation has finished the row and not removed the entry. -/
def records (executionId : String) : ManagerTask → Bool
  | .recordTerminal _ other _ _ => other = executionId
  | _ => false

/-- `supervisor_terminal` has removed the entry and not finished the row. -/
def terminates (executionId : String) : ManagerTask → Bool
  | .terminalFinish other _ _ _ _ => other = executionId
  | _ => false

theorem writer_owner {task : ManagerTask} {executionId : String}
    (h : task.writer = some executionId) : task.owner = some executionId := by
  cases task <;> cases h <;> rfl

end ManagerTask

def State.owned (state : State) (executionId : String) : Option Bool :=
  (state.active.findEntry (·.executionId = executionId)).map
    fun entry => entry.2.locallyOwned

/--
The next section of a task does not cross the end of an execution.  No
attachment is stored while `complete_execution` has the entry still to remove.
No progress is stored then, nor once the entry is gone, unless
`supervisor_terminal` has the row still to finish.  A terminal observation is
stored for an entry whose supervisor is not the controller's own, and until it
has removed that entry, no other one is stored and the recovery monitor neither
takes the execution over nor ends it.
-/
def ManagerTask.onTime (host : Host) (now : Nat) (answer : Answer)
    (tasks : List ManagerTask) (situation : Situation) (task : ManagerTask) :
    Bool :=
  match task with
  | .attachSupervisor hello _ =>
      (task.rewrites host answer situation).isNone ||
        !tasks.any (completes hello.executionId)
  | .recordCommit _ executionId _ _ (some _) =>
      (task.rewrites host answer situation).isNone ||
        !tasks.any (records executionId) &&
          situation.state.owned executionId = some false
  | .recordCommit _ executionId _ _ none =>
      (task.rewrites host answer situation).isNone ||
        !tasks.any (records executionId) &&
          !tasks.any (completes executionId) &&
          ((situation.state.owned executionId).isSome ||
            tasks.any (terminates executionId))
  | .monitorTick executionId _ _ _ =>
      (task.takesOver now situation.state).isNone ||
        !tasks.any (records executionId)
  | .terminalRemove executionId stored result =>
      (situation.state.supervisorTerminal executionId stored result).isNone ||
        !tasks.any (records executionId)
  | _ => true

theorem ManagerTask.onTime_recorded {host : Host} {now : Nat} {answer : Answer}
    {tasks : List ManagerTask} {situation : Situation}
    {attachmentId executionId : String} {stored : StoredExecution}
    {observation : SupervisorObservation} {terminal : TerminalObservation}
    (onTime : (ManagerTask.recordCommit attachmentId executionId stored
      observation (some terminal)).onTime host now answer tasks situation =
        true)
    (rewrites : (ManagerTask.recordCommit attachmentId executionId stored
      observation (some terminal)).rewrites host answer situation =
        some executionId) :
    tasks.any (records executionId) = false ∧
      situation.state.owned executionId = some false := by
  simpa only [ManagerTask.onTime, rewrites, Option.isNone_some, Bool.false_or,
    Bool.and_eq_true, Bool.not_eq_true', decide_eq_true_eq] using onTime

/-! ## States -/

namespace State

variable {state next : State} {id executionId : String} {control : Control}

theorem owned_of_control (single : state.Single executionId)
    (found : state.control id = some control)
    (about : control.executionId = executionId) :
    state.owned executionId = some control.locallyOwned := by
  obtain ⟨active, hactive, rfl⟩ := Option.map_eq_some_iff.mp found
  unfold owned
  cases hentry : state.active.findEntry (·.executionId = executionId) with
  | none =>
      exact absurd about
        (of_decide_eq_false (Map.findEntry_none hentry hactive))
  | some entry =>
      obtain ⟨hlookup, hid⟩ := Map.findEntry_some hentry
      obtain ⟨-, hsame⟩ := single.control found (control_of_lookup hlookup)
        about (of_decide_eq_true hid)
      rw [Option.map_some, hsame]
      rfl

theorem control_of_owned {locallyOwned : Bool}
    (owned : state.owned executionId = some locallyOwned) :
    ∃ id control, state.control id = some control ∧
      control.executionId = executionId ∧
      control.locallyOwned = locallyOwned := by
  obtain ⟨entry, hentry, rfl⟩ := Option.map_eq_some_iff.mp owned
  obtain ⟨hlookup, hid⟩ := Map.findEntry_some hentry
  exact ⟨entry.1, _, control_of_lookup hlookup, of_decide_eq_true hid, rfl⟩

theorem entry_of_control (found : state.control id = some control) :
    ∃ active, state.entry id control.executionId = some active ∧
      active.control = control := by
  obtain ⟨active, hactive, rfl⟩ := Option.map_eq_some_iff.mp found
  exact ⟨active, entry_eq_some.mpr ⟨hactive, rfl⟩, rfl⟩

theorem recordTerminal_vacant {stored : StoredExecution} {outcome : StateName}
    (found : state.control stored.workloadId = some control)
    (about : control.executionId = executionId) :
    (state.recordTerminal executionId stored outcome).2.control
      stored.workloadId = none := by
  obtain ⟨active, hentry, -⟩ := entry_of_control found
  rw [about] at hentry
  unfold recordTerminal
  rw [hentry]
  dsimp only
  rw [control_bump, control_setLastOutcome, control_removeActive, if_pos rfl]

theorem completeExecution_vacant {outcome : StateName}
    (found : state.control id = some control)
    (about : control.executionId = executionId) :
    (state.completeExecution id executionId outcome).2.control id = none := by
  obtain ⟨active, hentry, -⟩ := entry_of_control found
  rw [about] at hentry
  unfold completeExecution
  rw [hentry]
  dsimp only
  rw [Option.isSome_some, if_pos rfl, control_bump, control_setLastOutcome,
    control_removeActive, if_pos rfl]

end State

/-- An entry is new, or was there before and has been taken over or not. -/
inductive EntryFrom (situation : Situation) (changed : Control) (id : String)
    (task : Option ManagerTask) : Prop where
  | fresh
      (unused : situation.database.executions.lookup changed.executionId = none)
  | kept {control : Control} (found : situation.state.control id = some control)
      (same : control.executionId = changed.executionId)
      (owner : control.locallyOwned = changed.locallyOwned)
  | taken {control : Control} {stored : StoredExecution} {replacementAt : Nat}
      {wasRecovering : Bool}
      (found : situation.state.control id = some control)
      (same : control.executionId = changed.executionId)
      (ticks : task = some (.monitorTick changed.executionId stored
        replacementAt wasRecovering))

section Sections

variable {host : Host} {session : String} {now : Nat} {answer : Answer}
  {situation : Situation} {outcome : Outcome} {task other : ManagerTask}
  {id executionId : String} {changed : Control}

theorem StartsControl.entryFrom {after : State} {place : String}
    {task : Option ManagerTask}
    (starts : StartsControl answer situation after place)
    (found : after.control id = some changed) :
    EntryFrom situation changed id task := by
  by_cases hid : id = place
  · subst hid
    cases starts.written.symm.trans found
    exact .fresh starts.unused
  · exact .kept ((starts.others id hid).symm.trans found) rfl rfl

theorem State.Writes.entryFrom {after : State} {place : String}
    {task : Option ManagerTask} {written : Control → Control}
    (writes : State.Writes situation.state after place written)
    (same : ∀ control, (written control).executionId = control.executionId ∧
      (written control).locallyOwned = control.locallyOwned)
    (found : after.control id = some changed) :
    EntryFrom situation changed id task := by
  obtain ⟨control, hbefore, hafter, hothers⟩ := writes
  by_cases hid : id = place
  · subst hid
    cases hafter.symm.trans found
    exact .kept hbefore (same control).1.symm (same control).2.symm
  · exact .kept ((hothers id hid).symm.trans found) rfl rfl

theorem ControlAfter.entryFrom {after : State}
    (made : ControlAfter host answer situation after task)
    (found : after.control id = some changed) :
    EntryFrom situation changed id (some task) := by
  cases made with
  | kept same => exact .kept ((same id).symm.trans found) rfl rfl
  | started starts => exact starts.entryFrom found
  | @removed _ place _ removes clears =>
      obtain ⟨-, hafter, hothers⟩ := clears
      by_cases hid : id = place
      · subst hid
        cases hafter.symm.trans found
      · exact .kept ((hothers id hid).symm.trans found) rfl rfl
  | @replaced _ place _ _ _ control before about recovering writes =>
      obtain ⟨written, hwritten, hafter, hothers⟩ := writes
      by_cases hid : id = place
      · subst hid
        cases before.symm.trans hwritten
        cases hafter.symm.trans found
        exact .taken before rfl (by rw [← about]; rfl)
      · exact .kept ((hothers id hid).symm.trans found) rfl rfl
  | stopped _ writes | detached _ _ writes | attached _ _ writes
  | progressed _ _ writes | launched _ writes =>
      exact writes.entryFrom (fun _ => ⟨rfl, rfl⟩) found

theorem Command.entryFrom {command : Command}
    (found : (command.perform host session answer situation).state.control id =
      some changed) : EntryFrom situation changed id none := by
  rcases @Command.control host session answer situation command with
    same | ⟨place, starts⟩ | ⟨place, kind, restartAfter, -, -, writes⟩ |
    ⟨-, -, all⟩
  · exact .kept ((same id).symm.trans found) rfl rfl
  · exact starts.entryFrom found
  · exact writes.entryFrom (fun _ => ⟨rfl, rfl⟩) found
  · obtain ⟨control, hcontrol, rfl⟩ :=
      Option.map_eq_some_iff.mp ((all id).symm.trans found)
    exact .kept hcontrol rfl rfl

/-! ### Rows that are finished -/

def HasEnded (database : Database) (executionId : String) : Prop :=
  ∃ row, database.executions.lookup executionId = some row ∧
    row.endedUnixMs ≠ 0

inductive Finishes (host : Host) (answer : Answer) (situation : Situation)
    (outcome : Outcome) (executionId : String) : ManagerTask → Prop where
  | completed {run : RunExecution} {finish : ExecutionFinish}
      {stored : StoredExecution} (about : run.executionId = executionId)
      (left : outcome.tasks = [.completeRemove run finish]) :
      Finishes host answer situation outcome executionId
        (.completeFinish run finish stored)
  | terminated {stored : StoredExecution} {name : StateName}
      {result : AttemptResult} {restart : Bool}
      (left : ∀ other ∈ outcome.tasks, other.writer = none) :
      Finishes host answer situation outcome executionId
        (.terminalFinish executionId stored name result restart)
  | recorded {attachmentId : String} {stored : StoredExecution}
      {observation : SupervisorObservation} {terminal : TerminalObservation}
      (rewrites : ManagerTask.rewrites host answer situation (.recordCommit
        attachmentId executionId stored observation (some terminal)) =
          some executionId)
      (left : outcome.tasks =
        [.recordTerminal attachmentId executionId stored terminal.state]) :
      Finishes host answer situation outcome executionId
        (.recordCommit attachmentId executionId stored observation
          (some terminal))

theorem RowsChanged.hasEnded {ending : Option Int} {target : Option String}
    {before after : Database}
    (rows : RowsChanged ending target before.executions after.executions)
    (ended : HasEnded after executionId) :
    HasEnded before executionId ∨
      target = some executionId ∧ ending.isSome = true := by
  obtain ⟨row, hrow, hended⟩ := ended
  rcases rows executionId with
    hspared | ⟨htarget, old, changed, hold, hchanged, rewrites⟩
  · rw [hrow] at hspared
    generalize hbefore : before.executions.lookup executionId = old at hspared
    cases hspared with
    | kept => exact .inl ⟨row, hbefore, hended⟩
    | inserted state endedUnixMs => exact absurd endedUnixMs hended
    | acknowledged row sequence => exact .inl ⟨row, hbefore, hended⟩
  · cases hrow.symm.trans hchanged
    cases rewrites with
    | launched same state endedUnixMs | progressed same state endedUnixMs =>
        exact .inl ⟨old, hold, endedUnixMs ▸ hended⟩
    | ended same state endedUnixMs =>
        exact .inr ⟨htarget, by rw [endedUnixMs]; rfl⟩

theorem Section.finishes_row
    (made : Section host session now answer situation task outcome)
    (carries : task.HasOutcome)
    (ended : HasEnded outcome.database executionId) :
    HasEnded situation.database executionId ∨
      Finishes host answer situation outcome executionId task ∧
        outcome.state = situation.state := by
  rcases (made.rows carries).hasEnded ended with hbefore | ⟨target, ending⟩
  · exact .inl hbefore
  cases task with
  | terminalFinish other stored name result restart =>
      obtain ⟨⟨succeeded, clock⟩, hid⟩ :=
        Option.ite_none_right_eq_some.mp target
      cases hid
      cases made with
      | givesUp made =>
          cases made with
          | terminalFinish failed =>
              rcases failed with hclock | hstored
              · simp [hclock] at clock
              · simp [hstored] at succeeded
      | runCancelled waiting => rcases waiting with h | h | h <;> cases h
      | terminalFinished =>
          refine .inr ⟨.terminated ?_, rfl⟩
          intro other hother
          cases restart with
          | true =>
              cases List.mem_singleton.mp hother
              rfl
          | false => cases hother
  | completeFinish run finish stored =>
      obtain ⟨succeeded, hid⟩ := Option.ite_none_right_eq_some.mp target
      cases made with
      | runCancelled waiting => rcases waiting with h | h | h <;> cases h
      | completeFinished =>
          exact .inr ⟨.completed (Option.some.inj hid) rfl, rfl⟩
      | completeUnfinished failed => simp [failed] at succeeded
      | givesUp made => cases made
  | recordCommit attachmentId other stored observation terminal =>
      cases terminal with
      | none => cases ending
      | some terminal =>
          obtain ⟨-, hid⟩ := Option.ite_none_right_eq_some.mp target
          cases hid
          cases made with
          | givesUp => exact .inl ended
          | runCancelled waiting => rcases waiting with h | h | h <;> cases h
          | recordRepeated committed =>
              obtain ⟨row, -, ⟨-, htables, -⟩ | ⟨hfalse, -⟩⟩ :=
                Database.commitObservation_ok committed
              · exact .inl (htables ▸ ended)
              · cases hfalse
          | recordEnded committed succeeded =>
              exact .inr ⟨.recorded target rfl, rfl⟩
  | _ => cases ending

/-- A task that finishes a row later comes from such a task, or its execution is
new, has been taken over, or has lost its entry. -/
theorem Section.writer_from
    (made : Section host session now answer situation task outcome)
    (hother : other ∈ outcome.tasks)
    (writes : other.writer = some executionId) :
    task.writer = some executionId ∨
      situation.database.executions.lookup executionId = none ∨
      task.takesOver now situation.state = some executionId ∨
      ∃ stored result, task = .terminalRemove executionId stored result ∧
        (situation.state.supervisorTerminal executionId stored
          result).isSome = true := by
  cases made.succeeds hother with
  | returned calls returns =>
      rename_i caller
      cases caller <;> simp [Caller.tasks] at returns
      all_goals subst returns; cases writes
  | started starts occupies =>
      cases writes
      exact .inr (.inl occupies.unused)
  | monitorReplaces active =>
      have howner := ManagerTask.writer_owner writes
      cases writes
      obtain ⟨-, htakes⟩ := made.monitorTick_child hother rfl
      exact .inr (.inr (.inl htakes))
  | terminalRemoved removed =>
      cases writes
      exact .inr (.inr (.inr ⟨_, _, rfl, by rw [removed]; rfl⟩))
  | runFailed cases =>
      have howner := supervisorFailed_owner (ManagerTask.writer_owner writes)
      subst howner
      rcases cases with rfl | rfl <;> exact .inl rfl
  | runFinished cases =>
      cases writes
      rcases cases with rfl | rfl | rfl | ⟨cancelled, rfl⟩ <;> exact .inl rfl
  | runPrepared | runSpawned | runLaunching | runWaiting | runStops | runEnded
  | runStopped | runRetries | completeLoaded =>
      cases writes
      exact .inl rfl
  | _ => cases writes

theorem Section.removes_entry
    (made : Section host session now answer situation task outcome)
    {control : Control} (found : situation.state.control id = some control)
    (about : task.removes = some (id, control.executionId))
    (removes : task.completes control.executionId = true ∨
      task.records control.executionId = true) :
    outcome.state.control id = none := by
  cases task with
  | completeRemove run finish =>
      obtain ⟨rfl, hid⟩ := Prod.mk.inj (Option.some.inj about)
      cases made with
      | runCancelled waiting => rcases waiting with h | h | h <;> cases h
      | completeRemoved => exact State.completeExecution_vacant found hid.symm
      | givesUp made => cases made
  | recordTerminal attachmentId other stored name =>
      obtain ⟨rfl, hid⟩ := Prod.mk.inj (Option.some.inj about)
      cases made with
      | runCancelled waiting => rcases waiting with h | h | h <;> cases h
      | recordTerminal => exact State.recordTerminal_vacant found hid.symm
      | givesUp made => cases made
  | _ => rcases removes with h | h <;> cases h

theorem Finishes.left_writer {situation : Situation} {other : ManagerTask}
    (finishes : Finishes host answer situation outcome executionId task)
    (left : other ∈ outcome.tasks) : other.writer ≠ some executionId := by
  intro writes
  cases finishes with
  | completed about tasks =>
      rw [tasks] at left
      cases List.mem_singleton.mp left
      cases writes
  | terminated tasks => cases (tasks other left).symm.trans writes
  | recorded rewrites tasks =>
      rw [tasks] at left
      cases List.mem_singleton.mp left
      cases writes

theorem ManagerTask.removes_of_flag {control : Control}
    (flag : task.completes control.executionId = true ∨
      task.records control.executionId = true) :
    ∃ workloadId,
      task.execution = some (control.executionId, workloadId) ∧
        task.removes = some (workloadId, control.executionId) := by
  cases task <;>
    simp [ManagerTask.completes, ManagerTask.records] at flag <;>
    rw [← flag] <;> exact ⟨_, rfl, rfl⟩

theorem Section.monitorTick_kept {stored : StoredExecution}
    {replacementAt : Nat} {wasRecovering : Bool}
    (made : Section host session now answer situation
      (.monitorTick executionId stored replacementAt wasRecovering) outcome)
    (takes : (ManagerTask.monitorTick executionId stored replacementAt
      wasRecovering).takesOver now situation.state = none) :
    outcome.state = situation.state := by
  cases made with
  | givesUp made => rfl
  | runCancelled waiting => rcases waiting with h | h | h <;> cases h
  | monitorWaits => rfl
  | monitorReplaces ticked => simp [ManagerTask.takesOver, ticked] at takes

end Sections

theorem ManagerTask.finishes_execution {task : ManagerTask}
    {execution : String × String} (h : task.finishes = some execution) :
    task.execution = some execution := by
  cases task <;> cases h
  rfl

namespace World

variable {host : Host} {world next : World} {event : Event}
  {manager after : Manager} {id executionId : String}

/-- A step does not cross the end of an execution. -/
def OnTime (host : Host) (world : World) (event : Event) : Prop :=
  (match world.controller, world.advancedTask event, event with
  | some manager, some task, .advance _ answer =>
      task.onTime host world.now answer manager.tasks (world.situation manager)
  | _, _, _ => true) = true

instance : Decidable (OnTime host world event) := instDecidableEqBool _ _

theorem onTime_advance {index : Nat} {answer : Answer} {task : ManagerTask}
    (onTime : OnTime host world (.advance index answer))
    (running : world.controller = some manager)
    (found : manager.tasks[index]? = some task) :
    task.onTime host world.now answer manager.tasks
      (world.situation manager) = true := by
  simpa [OnTime, running, advancedTask, found] using onTime

/-! ## Removed entries -/

/-- An execution that `supervisor_terminal` has still to finish has no entry. -/
def FinishesVacant (world : World) : Prop :=
  ∀ manager, world.controller = some manager → ∀ task ∈ manager.tasks,
    ∀ executionId workloadId, task.finishes = some (executionId, workloadId) →
      ∀ id, manager.state.activeId id ≠ some executionId

theorem Reachable.finishesVacant (reachable : Reachable host world) :
    FinishesVacant world := by
  refine Reachable.invariant ?_ Runs.refl reachable ?_
  · intro world event next reachable held _ moved after runs task htask
      executionId workloadId finishes id active
    have execution := ManagerTask.finishes_execution finishes
    have recorded := Reachable.recorded (reachable.tail trivial moved) after
      runs
    obtain rfl := HasRow.unique (recorded.entries id _ active)
      (recorded.tasks task htask _ _ execution)
    have kept : ∀ before, world.controller = some before →
        task ∈ before.tasks → False := by
      intro before running hold
      rcases (step_moved moved).activeId_before running runs active with
        hactive | hunused
      · exact held before running task hold _ _ finishes _ hactive
      · obtain ⟨row, hrow, -⟩ := (Reachable.recorded reachable before
          running).tasks task hold _ _ execution
        cases hunused.symm.trans hrow
    cases step_moved moved with
    | elapsed | processExited => exact kept after runs htask
    | controllerExited => cases runs
    | startup closed =>
        obtain ⟨state, -, rfl⟩ := Option.map_eq_some_iff.mp runs
        cases List.mem_singleton.mp htask
        cases finishes
    | command running serving =>
        cases runs
        rcases List.mem_append.mp htask with hold | hnew
        · exact kept _ running hold
        · cases (Command.leaves_unfinished hnew).1.symm.trans finishes
    | attach running serving =>
        cases runs
        rcases List.mem_append.mp htask with hold | hnew
        · exact kept _ running hold
        · cases (attachTasks_unfinished hnew).1.symm.trans finishes
    | advance running found made =>
        cases runs
        rcases List.mem_append.mp htask with hold | hnew
        · exact kept _ running (List.mem_of_mem_eraseIdx hold)
        · cases (made.finishes hnew finishes).2.symm.trans active
  · intro manager running
    cases running

/-! ## Rows that have ended -/

/-- What is left to be done for executions whose rows have ended: no task
finishes one or starts it again, and one is about to remove its entry. -/
structure Closed (database : Database) (manager : Manager) : Prop where
  writers : ∀ task ∈ manager.tasks, ∀ executionId,
    task.writer = some executionId → ¬ HasEnded database executionId
  entries : ∀ id control, manager.state.control id = some control →
    HasEnded database control.executionId →
    ∃ task ∈ manager.tasks,
      if control.locallyOwned then task.completes control.executionId = true
      else task.records control.executionId = true

theorem Closed.completes (closed : Closed world.database manager)
    {control : Control} (found : manager.state.control id = some control)
    (owned : control.locallyOwned = true)
    (ended : HasEnded world.database control.executionId) :
    manager.tasks.any (ManagerTask.completes control.executionId) = true := by
  obtain ⟨task, htask, removes⟩ := closed.entries id control found ended
  rw [owned, if_pos rfl] at removes
  exact List.any_eq_true.mpr ⟨task, htask, removes⟩

theorem Closed.records (closed : Closed world.database manager)
    {control : Control} (found : manager.state.control id = some control)
    (unowned : control.locallyOwned = false)
    (ended : HasEnded world.database control.executionId) :
    manager.tasks.any (ManagerTask.records control.executionId) = true := by
  obtain ⟨task, htask, removes⟩ := closed.entries id control found ended
  rw [unowned, if_neg nofun] at removes
  exact List.any_eq_true.mpr ⟨task, htask, removes⟩

section Advance

variable {index : Nat} {answer : Answer} {task : ManagerTask}
  {outcome : Outcome}

theorem Closed.spares (closed : Closed world.database manager)
    (htask : task ∈ manager.tasks)
    (onTime : task.onTime host world.now answer manager.tasks
      (world.situation manager) = true)
    (ended : HasEnded world.database executionId) :
    task.rewrites host answer (world.situation manager) ≠
      some executionId := by
  intro rewrites
  cases task with
  | attachSupervisor hello stored =>
      simp only [ManagerTask.onTime, rewrites, Option.isNone_some,
        Bool.false_or, Bool.not_eq_true'] at onTime
      simp only [ManagerTask.rewrites] at rewrites
      split at rewrites
      · rename_i state accepted
        obtain ⟨-, hid⟩ := Option.ite_none_right_eq_some.mp rewrites
        cases hid
        obtain ⟨control, found, owned⟩ := State.attachSupervisor_owned accepted
        obtain ⟨hactive, -⟩ := State.control_attachSupervisor accepted
        have about : control.executionId = hello.executionId :=
          Option.some.inj ((State.control_activeId found).symm.trans hactive)
        have completes := closed.completes found owned (about ▸ ended)
        rw [about, onTime] at completes
        cases completes
      · cases rewrites
  | runSpawned run process =>
      obtain ⟨-, hid⟩ := Option.ite_none_right_eq_some.mp rewrites
      exact closed.writers _ htask _ hid ended
  | completeFinish run finish stored =>
      obtain ⟨-, hid⟩ := Option.ite_none_right_eq_some.mp rewrites
      exact closed.writers _ htask _ hid ended
  | terminalFinish other stored name result restart =>
      obtain ⟨-, hid⟩ := Option.ite_none_right_eq_some.mp rewrites
      exact closed.writers _ htask _ hid ended
  | recordCommit attachmentId other stored observation terminal =>
      have hid : other = executionId :=
        Option.some.inj (Option.ite_none_right_eq_some.mp rewrites).2
      subst hid
      have idle : ∀ locallyOwned, manager.state.owned other =
          some locallyOwned → locallyOwned = true →
            manager.tasks.any (ManagerTask.completes other) = true := by
        rintro _ howned rfl
        obtain ⟨id, control, found, rfl, owned⟩ :=
          State.control_of_owned howned
        exact closed.completes found owned ended
      have unrecorded : manager.state.owned other = some false →
          manager.tasks.any (ManagerTask.records other) = true := by
        intro howned
        obtain ⟨id, control, found, rfl, owned⟩ :=
          State.control_of_owned howned
        exact closed.records found owned ended
      have unfinished : manager.tasks.any (ManagerTask.terminates other) =
          false := by
        refine List.any_eq_false.mpr fun finishing hmem terminates => ?_
        cases finishing <;> simp [ManagerTask.terminates] at terminates
        subst terminates
        exact closed.writers _ hmem _ rfl ended
      cases terminal with
      | some terminal =>
          obtain ⟨unmarked, unowned⟩ := ManagerTask.onTime_recorded onTime rewrites
          have recorded := unrecorded unowned
          rw [unmarked] at recorded
          cases recorded
      | none =>
          simp only [ManagerTask.onTime, rewrites, Option.isNone_some,
            Bool.false_or, Bool.and_eq_true, Bool.not_eq_true', unfinished,
            Bool.or_false] at onTime
          obtain ⟨⟨unmarked, uncompleted⟩, hsome⟩ := onTime
          obtain ⟨locallyOwned, howned⟩ := Option.isSome_iff_exists.mp hsome
          cases locallyOwned with
          | true =>
              have completed := idle true howned rfl
              rw [uncompleted] at completed
              cases completed
          | false =>
              have recorded := unrecorded howned
              rw [unmarked] at recorded
              cases recorded
  | _ => cases rewrites

theorem Closed.not_taken (closed : Closed world.database manager)
    (owners : Owners world.database manager.tasks)
    (htask : task ∈ manager.tasks)
    (onTime : task.onTime host world.now answer manager.tasks
      (world.situation manager) = true)
    (ended : HasEnded world.database executionId) :
    task.takesOver world.now manager.state ≠ some executionId := by
  intro takes
  cases task with
  | monitorTick other stored replacementAt wasRecovering =>
      simp only [ManagerTask.onTime, situation, takes, Option.isNone_some,
        Bool.false_or, Bool.not_eq_true'] at onTime
      unfold ManagerTask.takesOver at takes
      dsimp only at takes
      split at takes
      · rename_i workloadId ticked
        cases takes
        have active : manager.state.activeId workloadId = some executionId :=
          State.monitorTick_replaces (Prod.ext ticked rfl)
        rw [State.activeId_control] at active
        obtain ⟨control, found, rfl⟩ := Option.map_eq_some_iff.mp active
        cases owned : control.locallyOwned with
        | true =>
            obtain ⟨removing, hmem, removes⟩ :=
              List.any_eq_true.mp (closed.completes found owned ended)
            cases removing <;> simp [ManagerTask.completes] at removes
            obtain ⟨index, hindex⟩ := List.getElem?_of_mem htask
            have same := owners.distinct.unique hindex hmem rfl
              (congrArg some removes)
            cases same
        | false =>
            have records := closed.records found owned ended
            rw [onTime] at records
            cases records
      · cases takes
  | _ => cases takes

/-- `supervisor_terminal` removes no entry of an execution whose row has
ended. -/
theorem Closed.not_removed {stored : StoredExecution} {result : AttemptResult}
    (closed : Closed world.database manager)
    (onTime : (ManagerTask.terminalRemove executionId stored result).onTime
      host world.now answer manager.tasks (world.situation manager) = true)
    (ended : HasEnded world.database executionId) :
    (manager.state.supervisorTerminal executionId stored result).isSome ≠
      true := by
  intro removes
  obtain ⟨removed, hremoved⟩ := Option.isSome_iff_exists.mp removes
  simp only [ManagerTask.onTime, situation, hremoved, Option.isNone_some,
    Bool.false_or, Bool.not_eq_true'] at onTime
  obtain ⟨active, hfilter, -⟩ := Option.map_eq_some_iff.mp hremoved
  obtain ⟨hentry, hunowned⟩ := Option.filter_eq_some_iff.mp hfilter
  obtain ⟨hlookup, rfl⟩ := State.entry_eq_some.mp hentry
  have unowned : active.locallyOwned = false := by simpa using hunowned
  have records := closed.records (State.control_of_lookup hlookup) unowned
    ended
  change manager.tasks.any (ManagerTask.records active.executionId) = true
    at records
  rw [onTime] at records
  cases records

/-- The entry of an execution whose row has ended was there before, with the
same owner. -/
theorem Closed.entry_before (closed : Closed world.database manager)
    (owners : Owners world.database manager.tasks)
    (htask : task ∈ manager.tasks)
    (onTime : task.onTime host world.now answer manager.tasks
      (world.situation manager) = true)
    (made : Section host manager.session world.now answer
      (world.situation manager) task outcome) {changed : Control}
    (found : outcome.state.control id = some changed)
    (ended : HasEnded world.database changed.executionId) :
    ∃ control, manager.state.control id = some control ∧
      control.executionId = changed.executionId ∧
      control.locallyOwned = changed.locallyOwned := by
  cases made.control.entryFrom found with
  | fresh unused =>
      obtain ⟨row, hrow, -⟩ := ended
      cases unused.symm.trans hrow
  | kept hcontrol same owner => exact ⟨_, hcontrol, same, owner⟩
  | @taken control stored replacementAt wasRecovering hcontrol same ticks =>
      cases ticks
      have htaken := closed.not_taken owners htask onTime ended
      have none : (ManagerTask.monitorTick changed.executionId stored
          replacementAt wasRecovering).takesOver world.now manager.state =
            none := by
        unfold ManagerTask.takesOver at htaken ⊢
        dsimp only at htaken ⊢
        split
        · rename_i ticked
          rw [ticked] at htaken
          exact absurd rfl htaken
        · rfl
      have kept : outcome.state = manager.state := made.monitorTick_kept none
      exact ⟨changed, kept ▸ found, rfl, rfl⟩

/-- While a task finishes an execution, no other one finishes it or runs its
supervisor. -/
theorem writer_ne_of_finishes (reachable : Reachable host world)
    (running : world.controller = some manager)
    (found : manager.tasks[index]? = some task)
    (onTime : task.onTime host world.now answer manager.tasks
      (world.situation manager) = true)
    (finishes : Finishes host answer (world.situation manager) outcome
      executionId task) {other : ManagerTask}
    (stays : other ∈ manager.tasks.eraseIdx index) :
    other.writer ≠ some executionId := by
  intro writes
  have owners := reachable.owners running
  have owned := ManagerTask.writer_owner writes
  cases finishes with
  | completed about =>
      exact owners.distinct.eraseIdx found stays (congrArg some about) owned
  | terminated => exact owners.distinct.eraseIdx found stays rfl owned
  | recorded rewrites =>
      obtain ⟨id, control, hcontrol, habout, hunowned⟩ :=
        State.control_of_owned (ManagerTask.onTime_recorded onTime rewrites).2
      have hmem := List.mem_of_mem_eraseIdx stays
      cases hterminates : other.finishes with
      | some execution =>
          cases other <;> cases hterminates
          cases writes
          refine reachable.finishesVacant manager running _ hmem _ _ rfl id ?_
          rw [← habout]
          exact State.control_activeId hcontrol
      | none =>
          have runs : other.runs = some executionId := by
            cases other <;> first | exact writes | cases hterminates
          exact (reachable.ownsRuns.unowned reachable running
            ⟨id, control, hcontrol, habout, hunowned⟩).2 other hmem runs

theorem Closed.left_writer (closed : Closed world.database manager)
    (owners : Owners world.database manager.tasks)
    (htask : task ∈ manager.tasks)
    (made : Section host manager.session world.now answer
      (world.situation manager) task outcome)
    (onTime : task.onTime host world.now answer manager.tasks
      (world.situation manager) = true) {other : ManagerTask}
    (left : other ∈ outcome.tasks)
    (ended : HasEnded world.database executionId) :
    other.writer ≠ some executionId := by
  intro writes
  rcases made.writer_from left writes with
    hsame | hunused | htakes | ⟨stored, result, rfl, hremoves⟩
  · exact closed.writers task htask executionId hsame ended
  · obtain ⟨row, hrow, -⟩ := ended
    cases hunused.symm.trans hrow
  · exact closed.not_taken owners htask onTime ended htakes
  · exact closed.not_removed onTime ended hremoves

/-- An entry that was about to be removed still is, or it is removed now. -/
theorem Closed.entry_kept (reachable : Reachable host world)
    (closed : Closed world.database manager)
    (running : world.controller = some manager)
    (found : manager.tasks[index]? = some task)
    (made : Section host manager.session world.now answer
      (world.situation manager) task outcome)
    (onTime : task.onTime host world.now answer manager.tasks
      (world.situation manager) = true) {changed : Control}
    (hchanged : outcome.state.control id = some changed)
    (ended : HasEnded world.database changed.executionId) :
    ∃ removing ∈ manager.tasks.eraseIdx index,
      if changed.locallyOwned then
        removing.completes changed.executionId = true
      else removing.records changed.executionId = true := by
  have recorded := reachable.recorded manager running
  obtain ⟨control, hcontrol, hid, howner⟩ := closed.entry_before
    (reachable.owners running) (List.mem_of_getElem? found) onTime made
    hchanged ended
  obtain ⟨removing, hmem, removes⟩ :=
    closed.entries id control hcontrol (hid ▸ ended)
  by_cases hremoving : removing = task
  · subst hremoving
    have hflag : removing.completes control.executionId = true ∨
        removing.records control.executionId = true := by
      split at removes
      · exact .inl removes
      · exact .inr removes
    obtain ⟨workloadId, hexecution, hremoves⟩ :=
      ManagerTask.removes_of_flag hflag
    obtain rfl := HasRow.unique
      (recorded.entries id _ (State.control_activeId hcontrol))
      (recorded.tasks removing hmem _ _ hexecution)
    have hvacant := made.removes_entry hcontrol hremoves hflag
    cases hvacant.symm.trans hchanged
  · refine ⟨removing, mem_eraseIdx_of_ne found hmem hremoving, ?_⟩
    rw [← hid, ← howner]
    exact removes

/-- The task that finishes an execution leaves one that removes its entry. -/
theorem removed_of_finishes (reachable : Reachable host world)
    (running : world.controller = some manager)
    (htask : task ∈ manager.tasks)
    (onTime : task.onTime host world.now answer manager.tasks
      (world.situation manager) = true) {control : Control}
    (hcontrol : manager.state.control id = some control)
    (finishes : Finishes host answer (world.situation manager) outcome
      control.executionId task) :
    ∃ removing ∈ outcome.tasks,
      if control.locallyOwned then
        removing.completes control.executionId = true
      else removing.records control.executionId = true := by
  cases finishes with
  | @completed run finish stored about left =>
      have owned := reachable.ownsRuns manager running _ htask _ rfl id
        control hcontrol about.symm
      refine ⟨.completeRemove run finish, ?_, ?_⟩
      · rw [left]
        exact List.mem_singleton_self _
      · rw [owned, if_pos rfl]
        exact decide_eq_true about
  | terminated =>
      exact absurd (State.control_activeId hcontrol)
        (reachable.finishesVacant manager running _ htask _ _ rfl id)
  | @recorded attachmentId stored observation terminal rewrites left =>
      have howned := State.owned_of_control
        (reachable.recorded manager running).single hcontrol rfl
      have hunowned : control.locallyOwned = false :=
        Option.some.inj (howned.symm.trans
          (ManagerTask.onTime_recorded onTime rewrites).2)
      refine ⟨.recordTerminal attachmentId control.executionId stored
        terminal.state, ?_, ?_⟩
      · rw [left]
        exact List.mem_singleton_self _
      · rw [hunowned, if_neg nofun]
        exact decide_eq_true rfl

theorem Closed.advance (reachable : Reachable host world)
    (closed : Closed world.database manager)
    (running : world.controller = some manager)
    (found : manager.tasks[index]? = some task)
    (made : Section host manager.session world.now answer
      (world.situation manager) task outcome)
    (onTime : task.onTime host world.now answer manager.tasks
      (world.situation manager) = true) :
    Closed outcome.database
      { manager with
        state := outcome.state
        tasks := manager.tasks.eraseIdx index ++ outcome.tasks } := by
  have htask := List.mem_of_getElem? found
  have owners := reachable.owners running
  have finishes : ∀ {executionId}, HasEnded outcome.database executionId →
      HasEnded world.database executionId ∨
        Finishes host answer (world.situation manager) outcome executionId
          task ∧ outcome.state = manager.state :=
    fun ended => made.finishes_row (reachable.hasOutcome manager running task
      htask) ended
  constructor
  · intro other hother executionId writes ended
    rcases finishes ended with before | ⟨finished, -⟩ <;>
      rcases List.mem_append.mp hother with stays | left
    · exact closed.writers other (List.mem_of_mem_eraseIdx stays) executionId
        writes before
    · exact closed.left_writer owners htask made onTime left before writes
    · exact writer_ne_of_finishes reachable running found onTime finished stays
        writes
    · exact finished.left_writer left writes
  · intro id changed hchanged ended
    rcases finishes ended with before | ⟨finished, same⟩
    · obtain ⟨removing, hmem, removes⟩ := closed.entry_kept reachable running
        found made onTime hchanged before
      exact ⟨removing, List.mem_append_left _ hmem, removes⟩
    · obtain ⟨removing, hmem, removes⟩ :=
        removed_of_finishes reachable running htask onTime (same ▸ hchanged)
          finished
      exact ⟨removing, List.mem_append_right _ hmem, removes⟩

end Advance

/-! ## Steps -/

/-- The rows that have ended are closed in the running controller. -/
def AllClosed (world : World) : Prop :=
  ∀ manager, world.controller = some manager → Closed world.database manager

theorem opened_unfinished {session : String} {answers : List Answer}
    {database : Database} {state : State} {control : Control}
    (opened : (openManager host session answers database).2 = some state)
    (found : state.control id = some control) :
    ¬ HasEnded (openManager host session answers database).1
      control.executionId := by
  obtain ⟨active, hactive, rfl⟩ := Option.map_eq_some_iff.mp found
  obtain ⟨executionId, row, hrow, hended, -, hsession, rfl⟩ :=
    openManager_entry opened hactive
  rintro ⟨closed, hclosed, hnotEnded⟩
  cases (openManager_spares hrow hsession).symm.trans hclosed
  exact hnotEnded hended

theorem AllClosed.step (reachable : Reachable host world)
    (held : AllClosed world) (onTime : OnTime host world event)
    (moved : step host world event = some next) : AllClosed next := by
  intro after runs
  cases step_moved moved with
  | elapsed | processExited => exact held after runs
  | controllerExited => cases runs
  | startup closed =>
      obtain ⟨state, opened, rfl⟩ := Option.map_eq_some_iff.mp runs
      refine ⟨?_, ?_⟩
      · intro task htask executionId writes
        cases List.mem_singleton.mp htask
        cases writes
      · intro id control found ended
        exact absurd ended (opened_unfinished opened found)
  | command running serving =>
      rename_i command answer manager
      have closed := held manager running
      have before : ∀ executionId, HasEnded (command.perform host
          manager.session answer (world.situation manager)).database
          executionId → HasEnded world.database executionId := by
        intro executionId ended
        rcases (Command.rows host manager.session answer
          (world.situation manager) command).hasEnded ended with
          hbefore | ⟨hnone, -⟩
        · exact hbefore
        · cases hnone
      cases runs
      refine ⟨?_, ?_⟩
      · intro task htask executionId writes ended
        rcases List.mem_append.mp htask with hold | hnew
        · exact closed.writers task hold executionId writes
            (before executionId ended)
        · obtain ⟨row, hrow, -⟩ := before executionId ended
          have hunused := (CommandLeaves.owner (Command.leaves hnew)).2.2 _
            (ManagerTask.writer_owner writes)
          cases hunused.1.symm.trans hrow
      · intro id changed found ended
        have hbefore := before _ ended
        cases Command.entryFrom found with
        | fresh unused =>
            obtain ⟨row, hrow, -⟩ := hbefore
            cases unused.symm.trans hrow
        | kept hcontrol same owner =>
            obtain ⟨task, htask, removes⟩ := closed.entries id _ hcontrol
              (same ▸ hbefore)
            refine ⟨task, List.mem_append_left _ htask, ?_⟩
            rw [← same, ← owner]
            exact removes
        | taken hcontrol same ticks => cases ticks
  | attach running serving =>
      have closed := held _ running
      cases runs
      refine ⟨?_, ?_⟩
      · intro task htask executionId writes ended
        rcases List.mem_append.mp htask with hold | hnew
        · exact closed.writers task hold executionId writes ended
        · obtain ⟨row, -, rfl⟩ := mem_attachTasks hnew
          cases writes
      · intro id control found ended
        obtain ⟨task, htask, removes⟩ := closed.entries id control found ended
        exact ⟨task, List.mem_append_left _ htask, removes⟩
  | advance running found made =>
      cases runs
      exact Closed.advance reachable (held _ running) running found made
        (onTime_advance onTime running found)

theorem AllClosed.spares (held : AllClosed world)
    (onTime : OnTime host world event) : SparesEnded host world event := by
  intro id row found ended target
  unfold World.rewrites at target
  split at target
  · rename_i manager task index answer running advanced
    obtain ⟨hadvanced, hmem⟩ : manager.tasks[index]? = some task ∧ True := by
      simpa [advancedTask, running] using advanced
    exact (held manager running).spares (List.mem_of_getElem? hadvanced)
      (onTime_advance onTime running hadvanced) ⟨row, found, ended⟩ target
  · cases target

/--
A row that has ended has an outcome, and from then on only its cursor moves, as
long as nothing crosses the end of an execution.
-/
theorem finished_row_immutable {later : World} {id : String}
    {row : StoredExecution}
    (before : Runs (World.step host) (OnTime host) initial world)
    (found : world.database.executions.lookup id = some row)
    (ended : row.endedUnixMs ≠ 0)
    (after : Runs (World.step host) (OnTime host) world later) :
    row.state.isOutcome = true ∧ KeepsRow id row later := by
  have hreachable : Reachable host world :=
    before.mono fun _ _ _ => trivial
  have hbefore : AllClosed world ∧ EndedOutcome world := by
    refine @Reachable.invariant host (OnTime host)
      (fun world => AllClosed world ∧ EndedOutcome world) _ _ ?_ Runs.refl
      before ⟨nofun, ?_⟩
    · intro world event next hreachable held onTime moved
      exact ⟨held.1.step hreachable onTime moved,
        held.2.step hreachable.hasOutcome (held.1.spares onTime) moved⟩
    · intro id row hrow
      simp [initial, Database.empty] at hrow
  refine ⟨hbefore.2 id row found ended, ?_⟩
  have hlater : AllClosed later ∧ KeepsRow id row later := by
    refine @Reachable.invariant host (OnTime host)
      (fun world => AllClosed world ∧ KeepsRow id row world) _ _ ?_ hreachable
      after ⟨hbefore.1, row.committedSequence, found⟩
    intro world event next hreachable held onTime moved
    exact ⟨held.1.step hreachable onTime moved,
      held.2.step ended hreachable.hasOutcome (held.1.spares onTime) moved⟩
  exact hlater.2

/-! ## A late observation -/

/-- The supervisor of `tool` exits with a result; the execution completes. -/
def completedEvents : List Event :=
  [.processExited 0, .advance 0 calm,
    .advance 1 { calm with result := some completedResult },
    .advance 1 calm, .advance 1 calm, .advance 1 calm]

/-- The first observation of the execution arrives only then. -/
def lateEvents : List Event :=
  [.advance 0
      { calm with
        observation := some ⟨1, .attemptStarted, none, "", 1, 42⟩ },
    .advance 0 calm, .advance 0 calm]

def completedWorld : World := worldAfter attachedWorld completedEvents

def completedRow : StoredExecution :=
  { runningRow with
    state := .completed
    endedUnixMs := 1_000
    exitCode := some 0 }

theorem finished_row_rewritten :
    ¬ ∀ (host : Host) (world later : World) (id : String)
      (row changed : StoredExecution), Reachable host world →
      world.database.executions.lookup id = some row → row.endedUnixMs ≠ 0 →
      Runs (World.step host) (fun _ _ => True) world later →
      later.database.executions.lookup id = some changed →
      row.state.isOutcome = true ∧ changed.state = row.state ∧
        changed.attempt = row.attempt ∧ changed.exitCode = row.exitCode ∧
        changed.error = row.error ∧
        changed.workloadProcessId = row.workloadProcessId := by
  intro h
  have hreachable : Reachable installation completedWorld :=
    attachedWorld_reachable.trans (runs_worldAfter (by decide +kernel))
  have hlate : Runs (World.step installation) (fun _ _ => True) completedWorld
      (worldAfter completedWorld lateEvents) :=
    runs_worldAfter (by decide +kernel)
  have hrow : completedWorld.database.executions.lookup "e1" =
      some completedRow := by
    decide +kernel
  have hchanged : (worldAfter completedWorld lateEvents).database.executions.lookup
      "e1" = some
        { completedRow with
          state := .running
          workloadProcessId := 42
          attempt := 1
          committedSequence := 1 } := by
    decide +kernel
  have hstate := (h installation completedWorld _ "e1" completedRow _
    hreachable hrow (by decide) hlate hchanged).2.1
  cases hstate

/-- The same run up to where the row is finished, from the start. -/
def finishedEvents : List Event :=
  startEvents "e1" 7 ++
    [.attach (sampleHello "e1" 7) calm,
      .advance 1 { calm with uuid := "a1" }] ++ completedEvents.take 5

/-- The entry is removed, and the attachment ends without an observation. -/
def closedEvents : List Event :=
  [.advance 1 calm, .advance 0 { calm with interrupted := true },
    .advance 0 calm]

theorem finished_row_immutable_closed :
    completedRow.state.isOutcome = true ∧
      KeepsRow "e1" completedRow
        (worldAfter (worldAfter servingWorld finishedEvents) closedEvents) :=
  finished_row_immutable
    ((runs_servingWorld (by decide +kernel)).trans
      (runs_worldAfter (by decide +kernel)))
    (by decide +kernel) (by decide) (runs_worldAfter (by decide +kernel))

end World

end Susm.Controller
