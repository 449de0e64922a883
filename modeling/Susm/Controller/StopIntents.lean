import Susm.Controller.FinishedRows

/-!
# Accepted stops

A stop, a cancellation, a restart or a rerun of an active execution is accepted
in memory only.  No statement writes the state `stopping` into a row, so that a
controller that opens the tables never finds one.
-/

namespace Susm.Controller

open Susm.Foundation
open Susm.Protocol

namespace World

variable {host : Host} {world next : World} {event : Event}

/-! ## Cancelling sections -/

/-- The workload that an event cancels, as which kind, and whether it is to be
started again. -/
def cancellation (world : World) (event : Event) :
    Option (String × WorkloadKind × Bool) :=
  match event, world.advancedTask event with
  | .command (.stopService id) _, _ => some (id, .service, false)
  | .command (.cancelJob id) _, _ => some (id, .job, false)
  | .command (.restartService id) _, _ => some (id, .service, true)
  | _, some (.rerunJob id true) => some (id, .job, true)
  | _, _ => none

/-- The event cancels the active execution of a workload and answers that it
did. -/
structure Cancels (world : World) (event : Event) (manager : Manager)
    (id : String) (restartAfter : Bool) (active : ActiveExecution) :
    Prop where
  running : world.controller = some manager
  found : manager.state.active.lookup id = some active
  accepted : ∃ kind view,
    world.cancellation event = some (id, kind, restartAfter) ∧
      (manager.state.cancel id kind restartAfter).1 = .ok (true, view)

/-! ## No row is stopping -/

def NoneStopping (world : World) : Prop :=
  ∀ id row, world.database.executions.lookup id = some row →
    row.state ≠ .stopping

theorem Rewrites.not_stopping {ending : Option Int}
    {before after : StoredExecution} (rewrites : Rewrites ending before after) :
    after.state ≠ .stopping := by
  intro h
  cases rewrites with
  | launched same state => simp [h] at state
  | progressed same state => simp [h, StateName.isProgress] at state
  | ended same state => simp [h, StateName.isOutcome] at state

theorem NoneStopping.step (all : AllTasks ManagerTask.HasOutcome world)
    (held : NoneStopping world) (moved : step host world event = some next) :
    NoneStopping next := by
  intro id changed hchanged
  rcases (step_moved moved).rows all id with
    hspared | ⟨-, row, rewritten, -, hrewritten, rewrites⟩ |
    ⟨row, closed, -, -, hclosed, -, houtcome⟩
  · rw [hchanged] at hspared
    generalize hbefore : world.database.executions.lookup id = before
      at hspared
    cases hspared with
    | kept => exact held id changed hbefore
    | inserted state => simp [state]
    | acknowledged row sequence => exact held id row hbefore
  · cases hchanged.symm.trans hrewritten
    exact Rewrites.not_stopping rewrites
  · cases hchanged.symm.trans hclosed
    intro h
    simp [h, StateName.isOutcome] at houtcome

theorem Reachable.noneStopping (reachable : Reachable host world) :
    NoneStopping world := by
  refine Reachable.invariant ?_ Runs.refl reachable ?_
  · intro world event next hreachable held _ moved
    exact held.step hreachable.hasOutcome moved
  · intro id row hrow
    simp [initial, Database.empty] at hrow

theorem Reachable.opened_recovering {session : String} {answers : List Answer}
    {state : State} {workloadId : String} {active : ActiveExecution}
    (reachable : Reachable host world)
    (opened : (openManager host session answers world.database).2 = some state)
    (found : state.active.lookup workloadId = some active) :
    active.state = .recovering ∧ active.restartAfter = false := by
  obtain ⟨id, row, hrow, -, -, -, rfl⟩ := openManager_entry opened found
  have hstate : row.state ≠ .stopping := reachable.noneStopping id row hrow
  exact ⟨if_neg hstate, rfl⟩

/-! ## Stops and a crash -/

theorem cancel_stopping {state : State} {id : String}
    {kind : WorkloadKind} {restartAfter : Bool} {active : ActiveExecution}
    {view : Workload} (found : state.active.lookup id = some active)
    (accepted : (state.cancel id kind restartAfter).1 = .ok (true, view)) :
    ∃ stopping,
      (state.cancel id kind restartAfter).2.active.lookup id =
        some stopping ∧
      stopping.executionId = active.executionId ∧
      stopping.state = .stopping := by
  unfold State.cancel at accepted ⊢
  split at accepted
  · cases accepted
  split at accepted
  · cases accepted
  split at accepted
  · cases accepted
  · rename_i other hother
    cases found.symm.trans hother
    exact ⟨_, AList.lookup_insert _, rfl, rfl⟩

theorem Cancels.stopping {accepted : World} {manager : Manager} {id : String}
    {restartAfter : Bool} {active : ActiveExecution}
    (cancels : Cancels world event manager id restartAfter active)
    (moved : step host world event = some accepted) :
    ∃ after stopping, accepted.controller = some after ∧
      after.state.active.lookup id = some stopping ∧
      stopping.executionId = active.executionId ∧
      stopping.state = .stopping := by
  obtain ⟨kind, view, hcancels, haccepted⟩ := cancels.accepted
  obtain ⟨stopping, hstopping⟩ :=
    cancel_stopping cancels.found haccepted
  have hrunning := cancels.running
  cases event with
  | command command answer =>
      obtain ⟨other, hother, -, rfl⟩ := step_command moved
      cases hrunning.symm.trans hother
      cases command <;> cases hcancels
      all_goals exact ⟨_, stopping, rfl, hstopping⟩
  | advance index answer =>
      obtain ⟨other, task, outcome, hother, hfound, hadvanced, rfl⟩ :=
        step_advance moved
      cases hrunning.symm.trans hother
      simp only [cancellation, advancedTask_eq hrunning hfound] at hcancels
      cases task with
      | rerunJob other active =>
          cases active <;> cases hcancels
          cases hadvanced
          exact ⟨_, stopping, rfl, hstopping⟩
      | _ => cases hcancels
  | _ => cases hcancels

/--
Whatever happens after a stop has been accepted, the tables do not let a new
controller know of it, although the one that accepted it does.
-/
theorem stop_not_recovered {accepted crashed : World} {manager : Manager}
    {id session : String} {restartAfter : Bool} {active : ActiveExecution}
    {answers : List Answer} (reachable : Reachable host world)
    (cancels : Cancels world event manager id restartAfter active)
    (moved : step host world event = some accepted)
    (run : Runs (step host) (fun _ _ => True) accepted crashed) :
    (∃ after stopping, accepted.controller = some after ∧
      after.state.active.lookup id = some stopping ∧
      stopping.executionId = active.executionId ∧
      stopping.state = .stopping) ∧
    ¬ ∃ state recovered,
      (openManager host session answers crashed.database).2 = some state ∧
        state.active.lookup id = some recovered ∧
        recovered.executionId = active.executionId ∧
        recovered.state = .stopping := by
  refine ⟨cancels.stopping moved, ?_⟩
  rintro ⟨state, recovered, hopened, hfound, -, hstopping⟩
  have hreachable : Reachable host crashed :=
    (reachable.tail trivial moved).trans run
  have hrecovering := (hreachable.opened_recovering hopened hfound).1
  rw [hrecovering] at hstopping
  cases hstopping

/-! ## A stop that is forgotten -/

def stopEvent : Event := .command (.stopService "tool") calm

def restartEvent : Event := .command (.restartService "tool") calm

def stoppedWorld : World := worldAfter attachedWorld [stopEvent]

theorem attachedWorld_cancels :
    Cancels attachedWorld stopEvent attachedManager "tool" false
      runningExecution where
  running := rfl
  found := rfl
  accepted := ⟨.service, _, rfl, rfl⟩

theorem attachedWorld_stops :
    step installation attachedWorld stopEvent = some stoppedWorld := rfl

theorem stop_forgotten :
    ¬ ∀ (host : Host) (world accepted crashed : World) (event : Event)
      (manager : Manager) (id session : String) (restartAfter : Bool)
      (active : ActiveExecution) (answers : List Answer) (state : State)
      (row : StoredExecution), Reachable host world →
      Cancels world event manager id restartAfter active →
      manager.session = session →
      step host world event = some accepted →
      Runs (step host) (fun _ _ => True) accepted crashed →
      crashed.database.executions.lookup active.executionId = some row →
      row.endedUnixMs = 0 →
      (openManager host session answers crashed.database).2 = some state →
      ∃ recovered, state.active.lookup id = some recovered ∧
        recovered.executionId = active.executionId ∧
        recovered.state = .stopping := by
  intro h
  have hopened : ∃ state recovered,
      (openManager installation sampleSession [] stoppedWorld.database).2 =
        some state ∧
      state.active.lookup "tool" = some recovered ∧
      recovered.state = .recovering := ⟨_, _, rfl, rfl, rfl⟩
  obtain ⟨state, recovered, hstate, hfound, hrecovering⟩ := hopened
  obtain ⟨other, hother, -, hstopping⟩ :=
    h installation attachedWorld stoppedWorld stoppedWorld stopEvent
      attachedManager "tool" sampleSession false runningExecution [] state
      runningRow attachedWorld_reachable attachedWorld_cancels rfl
      attachedWorld_stops Runs.refl rfl rfl hstate
  cases hfound.symm.trans hother
  rw [hrecovering] at hstopping
  cases hstopping

/-- The controller of the stopped world crashes. -/
theorem stop_not_recovered_crashed :
    (∃ after stopping, stoppedWorld.controller = some after ∧
      after.state.active.lookup "tool" = some stopping ∧
      stopping.executionId = "e1" ∧ stopping.state = .stopping) ∧
    ¬ ∃ state recovered,
      (openManager installation sampleSession []
        (worldAfter stoppedWorld [.controllerExited]).database).2 =
          some state ∧
        state.active.lookup "tool" = some recovered ∧
        recovered.executionId = "e1" ∧ recovered.state = .stopping :=
  stop_not_recovered attachedWorld_reachable attachedWorld_cancels
    attachedWorld_stops (runs_worldAfter (by decide +kernel))

end World

end Susm.Controller
