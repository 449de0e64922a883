import Susm.Controller.Installation
import Susm.Controller.Opening

/-!
# Finished rows

The rows of executions over runs of the world.  A row that has ended is rewritten
by whatever statement reaches it; as long as none does, it stays as it is.
-/

namespace Susm.Controller

open Susm.Foundation
open Susm.Protocol

namespace World

variable {host : Host} {world next : World} {event : Event}

/-! ## Rows over steps -/

def rewrites (host : Host) (world : World) (event : Event) : Option String :=
  match world.controller, world.advancedTask event, event with
  | some manager, some task, .advance _ answer =>
      task.rewrites host answer (world.situation manager)
  | _, _, _ => none

/-- The end that an event stores in a row. -/
def ending (world : World) (event : Event) : Option Int :=
  match world.advancedTask event, event with
  | some task, .advance _ answer => task.ending answer
  | _, _ => none

theorem Reachable.hasOutcome (reachable : Reachable host world) :
    AllTasks ManagerTask.HasOutcome world := by
  refine Runs.invariant ?_ reachable ?_
  · intro world event next all _ moved
    refine allTasks_step trivial ?_ (fun _ _ => trivial) ?_ all moved
    · intro session answer situation command task htask
      cases command with
      | startService id | runJob id =>
          exact startSection_hasOutcome (by simp) task htask
      | reload =>
          simp only [Command.perform, Situation.leave, reloadTasks] at htask
          split at htask
          · exact Caller.hasOutcome .client task htask
          · split at htask
            · exact Caller.hasOutcome .client task htask
            · cases List.mem_singleton.mp htask
              trivial
      | setEnabled id enabled =>
          simp only [Command.perform] at htask
          split at htask
          · cases List.mem_singleton.mp htask
            trivial
          · cases htask
      | rerunJob id =>
          cases List.mem_singleton.mp htask
          trivial
      | _ => cases htask
    · intro session now answer situation task outcome made
      exact made.hasOutcome
  · intro manager hmanager
    cases hmanager

theorem Command.rows (host : Host) (session : String) (answer : Answer)
    (situation : Situation) (command : Command) :
    RowsChanged none none situation.database.executions
      (command.perform host session answer situation).database.executions := by
  cases command with
  | startService id | runJob id => exact startSection_rows
  | setEnabled id enabled =>
      simp only [Command.perform]
      split <;> exact rowsChanged_refl _ _ _
  | _ => exact rowsChanged_refl _ _ _

theorem Moved.rows (moved : Moved host world event next)
    (all : AllTasks ManagerTask.HasOutcome world) (id : String) :
    Spared (world.database.executions.lookup id)
        (next.database.executions.lookup id) ∨
      (world.rewrites host event = some id ∧ ∃ row changed,
        world.database.executions.lookup id = some row ∧
        next.database.executions.lookup id = some changed ∧
        Rewrites (world.ending event) row changed) ∨
      ∃ row changed, world.database.executions.lookup id = some row ∧
        row.endedUnixMs = 0 ∧
        next.database.executions.lookup id = some changed ∧
        SameExecution row changed ∧ changed.state.isOutcome = true := by
  cases moved with
  | elapsed | processExited | controllerExited | attach =>
      exact .inl (.kept _)
  | startup closed =>
      rcases @openManager_closes host _ _ world.database id with
        hsame | hclosed
      · refine .inl ?_
        simp only [opened]
        rw [hsame]
        exact .kept _
      · exact .inr (.inr hclosed)
  | command running serving =>
      rename_i command answer manager
      rcases Command.rows host manager.session answer
        (world.situation manager) command id with hspared | ⟨hnone, -⟩
      · exact .inl hspared
      · cases hnone
  | advance running found made =>
      rename_i index answer manager task outcome
      have hrows := made.rows (all _ running _ (List.mem_of_getElem? found)) id
      have htarget : world.rewrites host (.advance index answer) =
          task.rewrites host answer (world.situation manager) := by
        simp [rewrites, running, advancedTask, found]
      have hending : world.ending (.advance index answer) =
          task.ending answer := by
        simp [ending, advancedTask, running, found]
      rw [htarget, hending]
      rcases hrows with hspared | hrewritten
      · exact .inl hspared
      · exact .inr (.inl hrewritten)

/-! ## Rows that have ended -/

def SparesEnded (host : Host) (world : World) (event : Event) : Prop :=
  ∀ id row, world.database.executions.lookup id = some row →
    row.endedUnixMs ≠ 0 → world.rewrites host event ≠ some id

/-- A row that has ended says how. -/
def EndedOutcome (world : World) : Prop :=
  ∀ id row, world.database.executions.lookup id = some row →
    row.endedUnixMs ≠ 0 → row.state.isOutcome = true

theorem EndedOutcome.step (all : AllTasks ManagerTask.HasOutcome world)
    (held : EndedOutcome world) (spares : SparesEnded host world event)
    (moved : step host world event = some next) : EndedOutcome next := by
  intro id changed hchanged hended
  rcases (step_moved moved).rows all id with
    hspared | ⟨htarget, row, rewritten, hrow, hrewritten, rewrites⟩ |
    ⟨row, closed, hrow, -, hclosed, -, houtcome⟩
  · rw [hchanged] at hspared
    generalize hbefore : world.database.executions.lookup id = before
      at hspared
    cases hspared with
    | kept => exact held id changed hbefore hended
    | inserted state endedUnixMs => exact absurd endedUnixMs hended
    | acknowledged row sequence => exact held id row hbefore hended
  · cases hchanged.symm.trans hrewritten
    have hopen : row.endedUnixMs = 0 := by
      by_contra hrowEnded
      exact spares id row hrow hrowEnded htarget
    cases rewrites with
    | launched same state endedUnixMs =>
        exact absurd (endedUnixMs.trans hopen) hended
    | progressed same state endedUnixMs =>
        exact absurd (endedUnixMs.trans hopen) hended
    | ended same state => exact state
  · cases hchanged.symm.trans hclosed
    exact houtcome

/-- The row with the id is the given one but for its cursor. -/
def KeepsRow (id : String) (row : StoredExecution) (world : World) : Prop :=
  ∃ sequence, world.database.executions.lookup id =
    some { row with committedSequence := sequence }

theorem KeepsRow.step {id : String} {row : StoredExecution}
    (kept : KeepsRow id row world) (ended : row.endedUnixMs ≠ 0)
    (all : AllTasks ManagerTask.HasOutcome world)
    (spares : SparesEnded host world event)
    (moved : step host world event = some next) : KeepsRow id row next := by
  obtain ⟨sequence, found⟩ := kept
  rcases (step_moved moved).rows all id with
    hspared | ⟨htarget, other, rewritten, hother, -, -⟩ |
    ⟨other, closed, hother, hopen, -⟩
  · rw [found] at hspared
    generalize hafter : next.database.executions.lookup id = after at hspared
    cases hspared with
    | kept => exact ⟨sequence, hafter⟩
    | acknowledged _ sequence => exact ⟨sequence, hafter⟩
  · cases found.symm.trans hother
    exact absurd htarget (spares id _ found ended)
  · cases found.symm.trans hother
    exact absurd hopen ended

end World

end Susm.Controller
