import Susm.Controller.Executions
import Susm.Controller.StopIntents

/-!
# Unfinished rows

Every unfinished row has an entry, or a task that is about to finish it.  The
second holds only while nothing fails between the two halves of a finish, and no
new execution of the workload is started there.
-/

namespace Susm.Controller

open Susm.Foundation
open Susm.Protocol

/-! ## Finishing tasks -/

/-- The execution and the workload of an entry that has been removed before its
row is finished. -/
def ManagerTask.finishes : ManagerTask → Option (String × String)
  | .terminalFinish executionId stored _ _ _ =>
      some (executionId, stored.workloadId)
  | _ => none

def ManagerTask.finished : ManagerTask → Option String
  | .recordTerminal _ executionId _ _ => some executionId
  | .completeRemove run _ => some run.executionId
  | _ => none

/-- The storage calls that finish a row succeed, with an end that is not the
Unix epoch. -/
def ManagerTask.settles (answer : Answer) : ManagerTask → Bool
  | .completeLoad _ _ => answer.stored
  | .completeFinish run _ _ =>
      answer.stored && (unixMs answer.systemTime).getD run.started != 0
  | .terminalFinish _ _ _ _ _ =>
      answer.stored && (unixMs answer.systemTime).any (· != 0)
  | .recordCommit _ _ _ _ terminal => terminal.all (·.endedUnixMs != 0)
  | _ => true

theorem ManagerTask.settles_ending {task : ManagerTask} {answer : Answer}
    {ended : Int} (settles : task.settles answer = true)
    (ending : task.ending answer = some ended) : ended ≠ 0 := by
  cases task with
  | completeFinish run finish stored =>
      cases ending
      simpa [ManagerTask.settles] using (Bool.and_eq_true_iff.mp settles).2
  | terminalFinish executionId stored outcome result restart =>
      have hclock : unixMs answer.systemTime = some ended := ending
      simpa [ManagerTask.settles, hclock] using
        (Bool.and_eq_true_iff.mp settles).2
  | recordCommit attachmentId executionId stored observation terminal =>
      obtain ⟨update, rfl, rfl⟩ := Option.map_eq_some_iff.mp ending
      simpa [ManagerTask.settles] using settles
  | _ => cases ending

section Sections

variable {host : Host} {session : String} {now : Nat} {answer : Answer}
  {situation : Situation} {outcome : Outcome} {task other : ManagerTask}

/-- An entry is removed before its row is finished by `supervisor_terminal`. -/
theorem Section.finishes
    (made : Section host session now answer situation task outcome)
    (hother : other ∈ outcome.tasks) {executionId workloadId : String}
    (finishes : other.finishes = some (executionId, workloadId)) :
    task.execution = some (executionId, workloadId) ∧
      outcome.state.activeId workloadId = none := by
  cases made.succeeds hother with
  | terminalRemoved removed =>
      cases finishes
      exact ⟨rfl, (State.vacates_supervisorTerminal removed).2⟩
  | returned calls returns =>
      rename_i caller
      cases caller <;> simp [Caller.tasks] at returns <;> subst returns <;>
        cases finishes
  | runFailed =>
      unfold supervisorFailed at finishes
      dsimp only at finishes
      split at finishes <;> cases finishes
  | _ => cases finishes

theorem Section.finished
    (made : Section host session now answer situation task outcome)
    (settles : task.settles answer = true)
    (recorded : ∀ executionId workloadId,
      task.execution = some (executionId, workloadId) →
      HasRow situation.database executionId workloadId)
    (hother : other ∈ outcome.tasks) {executionId : String}
    (finished : other.finished = some executionId) :
    ∃ row, outcome.database.executions.lookup executionId = some row ∧
      row.endedUnixMs ≠ 0 := by
  cases made.succeeds hother with
  | recordEnded committed =>
      cases finished
      obtain ⟨row, -, ⟨hfalse, -⟩ | ⟨-, -, htables⟩⟩ :=
        Database.commitObservation_ok committed
      · cases hfalse
      · rw [htables]
        refine ⟨_, AList.lookup_insert _, ?_⟩
        simpa [ManagerTask.settles, Database.observed] using settles
  | completeUnloaded failed =>
      rename_i run finish
      cases finished
      obtain ⟨row, hrow, -⟩ := recorded _ _ rfl
      rcases failed with hnone | hfailed
      · cases hrow.symm.trans hnone
      · rw [ManagerTask.settles, hfailed] at settles
        cases settles
  | completeFinished ended tables =>
      rename_i run finish stored execution
      cases finished
      obtain ⟨row, hrow, -⟩ := recorded _ _ rfl
      rw [tables]
      simp only [Database.finishExecution, Map.lookup_modify, if_true]
      refine ⟨_, congrArg (Option.map _) hrow, ?_⟩
      have hending := (Bool.and_eq_true_iff.mp settles).2
      rw [← ended] at hending
      simpa using hending
  | completeUnfinished failed =>
      rw [ManagerTask.settles, failed] at settles
      cases settles
  | returned calls returns =>
      rename_i caller
      cases caller <;> simp [Caller.tasks] at returns <;> subst returns <;>
        cases finished
  | runFailed =>
      unfold supervisorFailed at finished
      dsimp only at finished
      split at finished <;> cases finished
  | _ => cases finished

end Sections

namespace World

variable {host : Host} {world next : World} {event : Event}

/-! ## Runs that settle -/

/-- The times and the storage calls of a step let no row stay unfinished. -/
def settles (world : World) (event : Event) : Bool :=
  match event, world.advancedTask event with
  | .startup _ answers, _ =>
      answers.all fun answer => unixMs answer.systemTime != some 0
  | .advance _ answer, some task => task.settles answer
  | _, _ => true

/-- A row of the workload is about to be finished after its entry. -/
def finishing (world : World) (id : String) : Bool :=
  world.controller.any fun manager => manager.tasks.any fun task =>
    task.finishes.any fun execution => execution.2 = id

/-- The step settles, and starts nothing between the halves of a finish. -/
def Settles (world : World) (event : Event) : Prop :=
  world.settles event = true ∧
    ∀ id ∈ world.starts event, world.finishing id = false

instance : Decidable (Settles world event) :=
  inferInstanceAs (Decidable (_ ∧ ∀ id ∈ world.starts event, _))

theorem starts_startable {id : String} (starts : world.starts event = some id) :
    ∃ manager, world.controller = some manager ∧
      manager.state.startable id = true := by
  obtain ⟨-, hany⟩ := Option.filter_eq_some_iff.mp starts
  cases running : world.controller with
  | none => simp [running] at hany
  | some manager => exact ⟨manager, rfl, by simpa [running] using hany⟩

theorem settles_ending {ended : Int} (settles : world.settles event = true)
    (ending : world.ending event = some ended) : ended ≠ 0 := by
  cases event with
  | advance index answer =>
      unfold World.settles at settles
      unfold World.ending at ending
      generalize world.advancedTask (.advance index answer) = task
        at settles ending
      cases task with
      | none => cases ending
      | some task => exact ManagerTask.settles_ending settles ending
  | _ => cases ending

theorem Moved.ended_row (moved : Moved host world event next)
    (all : AllTasks ManagerTask.HasOutcome world)
    (settles : world.settles event = true) {id : String}
    {row : StoredExecution}
    (found : world.database.executions.lookup id = some row)
    (ended : row.endedUnixMs ≠ 0) :
    ∃ after, next.database.executions.lookup id = some after ∧
      after.endedUnixMs ≠ 0 := by
  rcases moved.rows all id with
    hspared | ⟨-, other, rewritten, hother, hrewritten, rewrites⟩ |
    ⟨other, closed, hother, hopen, -⟩
  · rw [found] at hspared
    generalize hafter : next.database.executions.lookup id = after at hspared
    cases hspared with
    | kept => exact ⟨row, rfl, ended⟩
    | acknowledged _ sequence => exact ⟨_, rfl, ended⟩
  · cases found.symm.trans hother
    refine ⟨rewritten, hrewritten, ?_⟩
    cases rewrites with
    | launched same state endedUnixMs => rwa [endedUnixMs]
    | progressed same state endedUnixMs => rwa [endedUnixMs]
    | ended same state endedUnixMs => exact settles_ending settles endedUnixMs
  · cases found.symm.trans hother
    exact absurd hopen ended

theorem Moved.unfinished_row (moved : Moved host world event next)
    (all : AllTasks ManagerTask.HasOutcome world)
    (settles : world.settles event = true) {id : String}
    {after : StoredExecution}
    (found : next.database.executions.lookup id = some after)
    (unfinished : after.endedUnixMs = 0) :
    world.database.executions.lookup id = none ∨
      ∃ row, world.database.executions.lookup id = some row ∧
        row.endedUnixMs = 0 ∧ row.workloadId = after.workloadId := by
  rcases moved.rows all id with
    hspared | ⟨-, row, rewritten, hrow, hrewritten, rewrites⟩ |
    ⟨row, closed, hrow, hopen, hclosed, same, -⟩
  · rw [found] at hspared
    generalize hbefore : world.database.executions.lookup id = before
      at hspared
    cases hspared with
    | kept => exact .inr ⟨after, rfl, unfinished, rfl⟩
    | inserted => exact .inl rfl
    | acknowledged row sequence => exact .inr ⟨row, rfl, unfinished, rfl⟩
  · cases found.symm.trans hrewritten
    refine .inr ⟨row, hrow, ?_, rewrites.same.workloadId.symm⟩
    cases rewrites with
    | launched same state endedUnixMs => rwa [← endedUnixMs]
    | progressed same state endedUnixMs => rwa [← endedUnixMs]
    | ended same state endedUnixMs =>
        exact absurd unfinished (settles_ending settles endedUnixMs)
  · cases found.symm.trans hclosed
    exact .inr ⟨row, hrow, hopen, same.workloadId.symm⟩

/-! ## The invariant -/

/-- Unfinished rows have an entry or are about to be finished. -/
structure Tracked (database : Database) (manager : Manager) : Prop where
  rows : ∀ id row, database.executions.lookup id = some row →
    row.endedUnixMs = 0 →
    manager.state.activeId row.workloadId = some id ∨
      ∃ task ∈ manager.tasks, task.finishes = some (id, row.workloadId)
  vacant : ∀ task ∈ manager.tasks, ∀ id workloadId,
    task.finishes = some (id, workloadId) →
    manager.state.activeId workloadId = none
  finished : ∀ task ∈ manager.tasks, ∀ id, task.finished = some id →
    ∃ row, database.executions.lookup id = some row ∧ row.endedUnixMs ≠ 0

structure Settled (world : World) : Prop where
  one : OneUnfinished world.database
  tracked : ∀ manager, world.controller = some manager →
    Tracked world.database manager

theorem Settled.none_unfinished (held : Settled world)
    (admits : Settles world event) {id executionId : String}
    (starts : world.starts event = some id) {row : StoredExecution}
    (found : world.database.executions.lookup executionId = some row)
    (workload : row.workloadId = id) : row.endedUnixMs ≠ 0 := by
  intro hended
  obtain ⟨manager, running, hstartable⟩ := starts_startable starts
  have hidle := State.startable_idle hstartable
  subst workload
  rcases (held.tracked manager running).rows _ _ found hended with
    hactive | ⟨task, htask, hfinishes⟩
  · cases hidle.symm.trans hactive
  · have hfree := admits.2 _ starts
    unfold finishing at hfree
    simp only [running, Option.any_some, List.any_eq_false] at hfree
    simpa [hfinishes] using hfree task htask

theorem Settled.one_step (held : Settled world)
    (all : AllTasks ManagerTask.HasOutcome world)
    (admits : Settles world event) (moved : Moved host world event next) :
    OneUnfinished next.database := by
  intro first second one two hone htwo hended hended' hsame
  rcases moved.unfinished_row all admits.1 hone hended with
    hnew | ⟨row, hrow, hopen, hworkload⟩ <;>
  rcases moved.unfinished_row all admits.1 htwo hended' with
    hnew' | ⟨row', hrow', hopen', hworkload'⟩
  · obtain ⟨-, manager, running, hactive⟩ := moved.inserted hnew hone
    obtain ⟨-, manager', running', hactive'⟩ := moved.inserted hnew' htwo
    cases running.symm.trans running'
    rw [hsame] at hactive
    exact Option.some.inj (hactive.symm.trans hactive')
  · obtain ⟨hstarts, -⟩ := moved.inserted hnew hone
    refine absurd hopen' (held.none_unfinished admits hstarts hrow' ?_)
    rw [hworkload', hsame]
  · obtain ⟨hstarts, -⟩ := moved.inserted hnew' htwo
    refine absurd hopen (held.none_unfinished admits hstarts hrow ?_)
    rw [hworkload, hsame]
  · refine held.one _ _ row row' hrow hrow' hopen hopen' ?_
    rw [hworkload, hworkload', hsame]

theorem terminalFinished_row {manager : Manager} {answer : Answer}
    {task : ManagerTask} {outcome : Outcome} {id workloadId : String}
    {row : StoredExecution}
    (made : Section host manager.session world.now answer
      (world.situation manager) task outcome)
    (settles : task.settles answer = true)
    (finishes : task.finishes = some (id, workloadId))
    (found : outcome.database.executions.lookup id = some row) :
    row.endedUnixMs ≠ 0 := by
  cases made with
  | terminalFinished clock succeeded =>
      cases finishes
      simp only [Situation.leave, Situation.withDatabase,
        Database.finishExecution, Map.lookup_modify, if_true] at found
      obtain ⟨before, -, rfl⟩ := Option.map_eq_some_iff.mp found
      simpa [ManagerTask.settles, clock, succeeded] using settles
  | givesUp made =>
      cases made with
      | terminalFinish failed =>
          rcases failed with hclock | hstored
          · simp [ManagerTask.settles, hclock] at settles
          · simp [ManagerTask.settles, hstored] at settles
      | _ => cases finishes
  | runCancelled waiting => rcases waiting with rfl | rfl | rfl <;> cases finishes
  | _ => cases finishes

theorem settles_advance {manager : Manager} {index : Nat} {answer : Answer}
    {task : ManagerTask} (settles : world.settles (.advance index answer) = true)
    (running : world.controller = some manager)
    (found : manager.tasks[index]? = some task) :
    task.settles answer = true := by
  simpa [World.settles, advancedTask, running, found] using settles

theorem Command.leaves_unfinished {host : Host} {session : String}
    {answer : Answer} {situation : Situation} {command : Command}
    {task : ManagerTask}
    (htask : task ∈ (command.perform host session answer situation).tasks) :
    task.finishes = none ∧ task.finished = none := by
  cases Command.leaves htask <;> exact ⟨rfl, rfl⟩

theorem attachTasks_unfinished {database : Database} {hello : Hello}
    {stored : Bool} {task : ManagerTask}
    (htask : task ∈ attachTasks database hello stored) :
    task.finishes = none ∧ task.finished = none := by
  obtain ⟨row, -, rfl⟩ := mem_attachTasks htask
  exact ⟨rfl, rfl⟩

section Running

variable {manager after : Manager}

theorem Moved.new_task (moved : Moved host world event next)
    (settles : world.settles event = true)
    (running : world.controller = some manager)
    (recorded : Recorded world.database manager)
    (runs : next.controller = some after) {task : ManagerTask}
    (htask : task ∈ after.tasks) :
    task ∈ manager.tasks ∨
      ((∀ id workloadId, task.finishes = some (id, workloadId) →
          after.state.activeId workloadId = none) ∧
        ∀ id, task.finished = some id →
          ∃ row, next.database.executions.lookup id = some row ∧
            row.endedUnixMs ≠ 0) := by
  cases moved with
  | elapsed | processExited =>
      cases running.symm.trans runs
      exact .inl htask
  | controllerExited => cases runs
  | startup closed => cases closed.symm.trans running
  | command controller serving =>
      cases running.symm.trans controller
      cases runs
      rcases List.mem_append.mp htask with htask | htask
      · exact .inl htask
      · obtain ⟨hfinishes, hfinished⟩ := Command.leaves_unfinished htask
        refine .inr ⟨fun id workloadId h => ?_, fun id h => ?_⟩
        · cases hfinishes.symm.trans h
        · cases hfinished.symm.trans h
  | attach controller serving =>
      cases running.symm.trans controller
      cases runs
      rcases List.mem_append.mp htask with htask | htask
      · exact .inl htask
      · obtain ⟨hfinishes, hfinished⟩ := attachTasks_unfinished htask
        refine .inr ⟨fun id workloadId h => ?_, fun id h => ?_⟩
        · cases hfinishes.symm.trans h
        · cases hfinished.symm.trans h
  | advance controller found made =>
      cases running.symm.trans controller
      cases runs
      rcases List.mem_append.mp htask with htask | htask
      · exact .inl (List.mem_of_mem_eraseIdx htask)
      · refine .inr ⟨fun id workloadId h => (made.finishes htask h).2, ?_⟩
        intro id hfinished
        exact made.finished (settles_advance settles running found)
          (recorded.tasks _ (List.mem_of_getElem? found)) htask hfinished

theorem Moved.old_task (moved : Moved host world event next)
    (settles : world.settles event = true)
    (running : world.controller = some manager)
    (runs : next.controller = some after) {task : ManagerTask}
    (htask : task ∈ manager.tasks) {id workloadId : String}
    (finishes : task.finishes = some (id, workloadId)) :
    task ∈ after.tasks ∨ Ended next.database id := by
  cases moved with
  | elapsed | processExited =>
      cases running.symm.trans runs
      exact .inl htask
  | controllerExited => cases runs
  | startup closed => cases closed.symm.trans running
  | command controller serving =>
      cases running.symm.trans controller
      cases runs
      exact .inl (List.mem_append_left _ htask)
  | attach controller serving =>
      cases running.symm.trans controller
      cases runs
      exact .inl (List.mem_append_left _ htask)
  | advance controller found made =>
      rename_i index answer manager advanced outcome
      cases running.symm.trans controller
      cases runs
      by_cases hsame : task = advanced
      · subst hsame
        refine .inr fun row hrow => ?_
        exact terminalFinished_row made
          (settles_advance settles running found) finishes hrow
      · exact .inl (List.mem_append_left _ (mem_eraseIdx_of_ne found htask hsame))

theorem Moved.removed_entry (moved : Moved host world event next)
    (all : AllTasks ManagerTask.HasOutcome world)
    (settles : world.settles event = true)
    (running : world.controller = some manager)
    (tracked : Tracked world.database manager)
    (runs : next.controller = some after) {id workloadId : String}
    (removes : world.removes event = some (workloadId, id))
    (active : manager.state.activeId workloadId = some id)
    (empty : after.state.activeId workloadId = none) :
    (∃ task ∈ after.tasks, task.finishes = some (id, workloadId)) ∨
      ∃ row, next.database.executions.lookup id = some row ∧
        row.endedUnixMs ≠ 0 := by
  have ended : ∀ {task : ManagerTask}, task ∈ manager.tasks →
      task.finished = some id →
      ∃ row, next.database.executions.lookup id = some row ∧
        row.endedUnixMs ≠ 0 := by
    intro task htask hfinished
    obtain ⟨row, hrow, hended⟩ := tracked.finished task htask id hfinished
    exact moved.ended_row all settles hrow hended
  obtain ⟨task, hadvanced, hremoves⟩ := Option.bind_eq_some_iff.mp removes
  cases moved with
  | advance controller found made =>
      cases running.symm.trans controller
      cases runs
      rw [advancedTask_eq running found] at hadvanced
      cases hadvanced
      have hmem := List.mem_of_getElem? found
      cases task with
      | terminalRemove executionId stored result =>
          cases hremoves
          cases made with
          | givesUp made => cases made; cases active.symm.trans empty
          | runCancelled waiting => rcases waiting with h | h | h <;> cases h
          | terminalRemoved =>
              exact .inl ⟨_, List.mem_append_right _ (List.mem_singleton_self _),
                rfl⟩
      | recordTerminal attachmentId executionId stored name =>
          cases hremoves
          exact .inr (ended hmem rfl)
      | completeRemove run finish =>
          cases hremoves
          exact .inr (ended hmem rfl)
      | _ => cases hremoves
  | _ => cases hadvanced

theorem Tracked.step (moved : Moved host world event next)
    (all : AllTasks ManagerTask.HasOutcome world) (held : Settled world)
    (admits : Settles world event) (running : world.controller = some manager)
    (recorded : Recorded world.database manager)
    (runs : next.controller = some after) : Tracked next.database after := by
  have tracked := held.tracked manager running
  constructor
  · intro id row hrow hended
    rcases moved.unfinished_row all admits.1 hrow hended with
      hnew | ⟨before, hbefore, hopen, hworkload⟩
    · obtain ⟨-, other, hother, hactive⟩ := moved.inserted hnew hrow
      cases runs.symm.trans hother
      exact .inl hactive
    have unended : ¬ Ended next.database id := fun h => h row hrow hended
    rcases tracked.rows id before hbefore hopen with
      hactive | ⟨task, htask, hfinishes⟩
    · rw [hworkload] at hactive
      cases moved.place running runs row.workloadId with
      | kept same => exact .inl (same.trans hactive)
      | vacated removes active empty =>
          cases hactive.symm.trans active
          rcases moved.removed_entry all admits.1 running tracked runs removes
            active empty with hfinishing | ⟨other, hother, hclosed⟩
          · exact .inr hfinishing
          · cases hrow.symm.trans hother
            exact absurd hended hclosed
      | occupied starts idle => cases hactive.symm.trans idle
    · rw [hworkload] at hfinishes
      rcases moved.old_task admits.1 running runs htask hfinishes with
        hkept | hfinished
      · exact .inr ⟨task, hkept, hfinishes⟩
      · exact absurd hfinished unended
  · intro task htask id workloadId hfinishes
    rcases moved.new_task admits.1 running recorded runs htask with
      hold | ⟨hvacant, -⟩
    · have hempty := tracked.vacant task hold id workloadId hfinishes
      cases moved.place running runs workloadId with
      | kept same => exact same.trans hempty
      | vacated removes active empty => exact empty
      | occupied starts idle =>
          have hfree := admits.2 workloadId starts
          simp only [finishing, running, Option.any_some,
            List.any_eq_false] at hfree
          exact absurd (by simp [hfinishes]) (hfree task hold)
    · exact hvacant id workloadId hfinishes
  · intro task htask id hfinished
    rcases moved.new_task admits.1 running recorded runs htask with
      hold | ⟨-, hended⟩
    · obtain ⟨row, hrow, hclosed⟩ := tracked.finished task hold id hfinished
      exact moved.ended_row all admits.1 hrow hclosed
    · exact hended id hfinished

end Running

theorem Tracked.startup (one : OneUnfinished world.database) {session : String}
    {answers : List Answer}
    (settles : world.settles (.startup session answers) = true)
    {manager : Manager}
    (running : (world.opened host session answers).controller = some manager) :
    Tracked (world.opened host session answers).database manager := by
  obtain ⟨state, hstate, rfl⟩ := Option.map_eq_some_iff.mp running
  have clock : ∀ answer ∈ answers, unixMs answer.systemTime ≠ some 0 := by
    intro answer hanswer
    have hall := List.all_eq_true.mp settles answer hanswer
    simpa using hall
  constructor
  · intro id row hrow hended
    obtain ⟨before, hfound⟩ := openManager_tracks one clock hstate hrow hended
    exact .inl (State.activeId_eq_some.mpr ⟨_, hfound, rfl⟩)
  · intro task htask id workloadId finishes
    cases List.mem_singleton.mp htask
    cases finishes
  · intro task htask id finished
    cases List.mem_singleton.mp htask
    cases finished

theorem Settled.step (reachable : Reachable host world) (held : Settled world)
    (admits : Settles world event) (moved : step host world event = some next) :
    Settled next := by
  have all := reachable.hasOutcome
  have made := step_moved moved
  refine ⟨held.one_step all admits made, ?_⟩
  intro after runs
  cases running : world.controller with
  | some manager =>
      exact Tracked.step made all held admits running
        (reachable.recorded manager running) runs
  | none =>
      cases made with
      | startup closed => exact Tracked.startup held.one admits.1 runs
      | elapsed | processExited => cases running.symm.trans runs
      | controllerExited => cases runs
      | command controller | attach controller | advance controller =>
          cases running.symm.trans controller

/--
In runs that settle, no two unfinished rows are of one workload, and a new
controller has an entry for every unfinished row of its session.
-/
theorem one_unfinished_row
    (run : Runs (World.step host) Settles initial world) :
    OneUnfinished world.database ∧
      ∀ session answers state,
        (openManager host session answers world.database).2 = some state →
        ∀ id row, world.database.executions.lookup id = some row →
          row.endedUnixMs = 0 → row.snapshot.managerSessionId = session →
          state.active.lookup row.workloadId =
            some (openedExecution host id row) := by
  have held : Settled world := by
    refine Reachable.invariant ?_ Runs.refl run ?_
    · intro world event next reachable held admits moved
      exact held.step reachable admits moved
    · constructor
      · intro first second one two hone
        simp [initial, Database.empty] at hone
      · intro manager running
        cases running
  refine ⟨held.one, ?_⟩
  intro session answers state opened id row found unfinished current
  exact openManager_keeps held.one opened found unfinished current

/-! ## An execution that is never finished -/

/-- The finish of `e1` cannot be stored, and the tool is started again. -/
def unstartedAgainEvents : List Event :=
  startEvents "e1" 7 ++
    [.processExited 0, .advance 0 calm,
      .advance 0 { calm with result := some completedResult },
      .advance 0 { calm with stored := false }, .advance 0 calm,
      .command (.startService "tool") { calm with uuid := "e2" }]

theorem two_unfinished_rows :
    ¬ ∀ (host : Host) (world : World), Reachable host world →
      OneUnfinished world.database := by
  intro h
  have hreachable : Reachable installation
      (worldAfter servingWorld unstartedAgainEvents) :=
    servingWorld_reachable.trans (runs_worldAfter (by decide +kernel))
  have hrow : ∀ id ∈ ["e1", "e2"],
      ((worldAfter servingWorld unstartedAgainEvents).database.executions.lookup
        id).map (fun row => (row.endedUnixMs, row.workloadId)) =
          some (0, "tool") := by
    decide +kernel
  obtain ⟨one, hone, hfirst⟩ := Option.map_eq_some_iff.mp (hrow "e1" (by simp))
  obtain ⟨two, htwo, hsecond⟩ := Option.map_eq_some_iff.mp (hrow "e2" (by simp))
  obtain ⟨hended, hworkload⟩ := Prod.mk.inj hfirst
  obtain ⟨hended', hworkload'⟩ := Prod.mk.inj hsecond
  have hsame := h installation _ hreachable "e1" "e2" one two hone htwo hended
    hended' (hworkload.trans hworkload'.symm)
  simp at hsame

def startedAgainEvents : List Event :=
  startEvents "e1" 7 ++
    [.processExited 0, .advance 0 calm,
      .advance 0 { calm with result := some completedResult },
      .advance 0 calm, .advance 0 calm, .advance 0 calm,
      .command (.startService "tool") { calm with uuid := "e2" }]

theorem one_unfinished_row_started :
    ["e1", "e2"].map (fun id =>
        ((worldAfter servingWorld startedAgainEvents).database.executions.lookup
          id).map fun row => decide (row.endedUnixMs = 0)) =
        [some false, some true] ∧
      OneUnfinished (worldAfter servingWorld startedAgainEvents).database ∧
      ∀ session answers state,
        (openManager installation session answers
          (worldAfter servingWorld startedAgainEvents).database).2 =
          some state →
        ∀ id row,
          (worldAfter servingWorld
            startedAgainEvents).database.executions.lookup id = some row →
          row.endedUnixMs = 0 → row.snapshot.managerSessionId = session →
          state.active.lookup row.workloadId =
            some (openedExecution installation id row) :=
  ⟨by decide +kernel,
    one_unfinished_row ((runs_servingWorld (by decide +kernel)).trans
      (runs_worldAfter (by decide +kernel)))⟩

end World

end Susm.Controller
