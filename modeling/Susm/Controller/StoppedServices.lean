import Susm.Controller.Replacements

/-!
# Stopped services

A service that has been stopped is started again by a command, by a replacement
that was already pending, or by a new controller of the session: `start_enabled`
does not distinguish a new session from a new controller.
-/

namespace Susm.Controller

open Susm.Foundation
open Susm.Protocol

/-- The workload that `start_enabled` tries to start next. -/
def ManagerTask.enables : ManagerTask → Option String
  | .startEnabledServices (id :: _) _ | .startEnabledJobs (id :: _) => some id
  | _ => none

section Sections

variable {host : Host} {session : String} {now : Nat} {answer : Answer}
  {situation : Situation} {outcome : Outcome} {task other : ManagerTask}
  {id : String}

theorem Caller.tasks_replacing {caller : Caller} (htask : task ∈ caller.tasks) :
    task.replacing = none := by
  cases caller with
  | client => cases htask
  | startup | stream =>
      cases List.mem_singleton.mp htask
      rfl

theorem supervisorFailed_replacing {run : RunExecution}
    {unavailable : ExecutionFinish} :
    (supervisorFailed run unavailable).replacing = none := by
  unfold supervisorFailed
  dsimp only
  split <;> rfl

theorem occupant_of_entry {state : State} {executionId : String}
    {active : ActiveExecution}
    (found : state.entry id executionId = some active)
    (flag : active.restartAfter = true) :
    state.occupant id = some (executionId, true) := by
  obtain ⟨hlookup, hid⟩ := State.entry_eq_some.mp found
  simp [State.occupant, hlookup, ActiveExecution.occupant, hid, flag]

/-- A replacement comes from a replacement, or from an entry that asks for
one. -/
theorem Section.replacing_from
    (made : Section host session now answer situation task outcome)
    (hother : other ∈ outcome.tasks) (replacing : other.replacing = some id) :
    task.replacing = some id ∨
      ∃ executionId, situation.state.occupant id = some (executionId, true) := by
  cases made.succeeds hother with
  | returned calls returns =>
      cases (Caller.tasks_replacing returns).symm.trans replacing
  | runFailed => cases supervisorFailed_replacing.symm.trans replacing
  | terminalRemoved removed =>
      rename_i executionId stored result name restart
      refine .inr ⟨executionId, ?_⟩
      cases restart with
      | false => cases replacing
      | true =>
          cases replacing
          obtain ⟨active, hfilter, hnext⟩ := Option.map_eq_some_iff.mp removed
          obtain ⟨hentry, -⟩ := Option.filter_eq_some_iff.mp hfilter
          have hrestart := (Prod.mk.inj (Prod.mk.inj hnext).2).1
          exact occupant_of_entry hentry (Bool.and_eq_true_iff.mp hrestart).2
  | recordReplaced restart =>
      cases replacing
      unfold State.recordTerminal at restart
      split at restart
      · cases restart
      · rename_i hentry
        exact .inr ⟨_, occupant_of_entry hentry
          (Bool.and_eq_true_iff.mp restart).2⟩
  | completeReplaced restart =>
      cases replacing
      simp only [State.completeExecution] at restart
      obtain ⟨active, hentry, hflag⟩ :=
        (Option.any_eq_true _ _).mp (Bool.and_eq_true_iff.mp restart).2
      exact .inr ⟨_, occupant_of_entry hentry hflag⟩
  | terminalReplaced | replacementKind => exact .inl replacing
  | _ => cases replacing

theorem Command.not_replacing {command : Command}
    (htask : task ∈ (command.perform host session answer situation).tasks) :
    task.replacing = none := by
  cases Command.leaves htask <;> rfl

theorem attachTasks_not_replacing {database : Database} {hello : Hello}
    {stored : Bool} (htask : task ∈ World.attachTasks database hello stored) :
    task.replacing = none := by
  obtain ⟨row, -, rfl⟩ := World.mem_attachTasks htask
  rfl

end Sections

namespace World

variable {host : Host} {world next : World} {event : Event}
  {manager : Manager} {id : String}

/-- The workload that `start_enabled` starts in a step, if it can be started. -/
def enables (world : World) (event : Event) : Option String :=
  ((world.advancedTask event).bind ManagerTask.enables).filter fun id =>
    world.controller.any fun manager => manager.state.startable id

/-- No command asks for an execution of the workload, and `start_enabled` does
not start it. -/
def LeavesStopped (id : String) (world : World) (event : Event) : Prop :=
  world.asks event ≠ some id ∧ world.enables event ≠ some id

instance : DecidableRel (LeavesStopped id) :=
  fun world event => inferInstanceAs (Decidable
    (world.asks event ≠ _ ∧ world.enables event ≠ _))

theorem asks_of_cancellation {kind : WorkloadKind}
    (cancels : world.cancellation event = some (id, kind, true)) :
    world.asks event = some id := by
  cases event with
  | command command answer =>
      cases command <;> cases cancels
      all_goals rfl
  | advance index answer =>
      simp only [cancellation] at cancels
      simp only [asks]
      generalize world.advancedTask (.advance index answer) = task at *
      cases task with
      | none => cases cancels
      | some task =>
          cases task with
          | rerunJob other active =>
              cases active <;> cases cancels
              rfl
          | _ => cases cancels
  | _ => cases cancels

theorem asks_of_restarts (restarts : world.restarts event = some id) :
    world.asks event = some id := by
  obtain ⟨manager, -, h⟩ := Option.bind_eq_some_iff.mp restarts
  obtain ⟨⟨other, kind, restartAfter⟩, cancels, h⟩ :=
    Option.bind_eq_some_iff.mp h
  dsimp only at h
  split at h
  · cases h
    exact asks_of_cancellation cancels
  · cases h

/-- What starts a workload: a command, `start_enabled` or a replacement. -/
theorem starts_cases (starts : world.starts event = some id) :
    world.asks event = some id ∨ world.enables event = some id ∨
      ∃ manager, world.controller = some manager ∧
        ∃ task ∈ manager.tasks, task.replacing = some id := by
  obtain ⟨hattempt, hstartable⟩ := Option.filter_eq_some_iff.mp starts
  cases event with
  | command command answer =>
      cases command <;> cases hattempt <;> exact .inl rfl
  | advance index answer =>
      cases hadvanced : world.advancedTask (.advance index answer) with
      | none =>
          simp only [hadvanced] at hattempt
          cases hattempt
      | some task =>
          simp only [hadvanced] at hattempt
          have enabled (h : task.enables = some id) :
              world.enables (.advance index answer) = some id := by
            simp only [enables, hadvanced, Option.bind_some, h]
            exact Option.filter_eq_some_iff.mpr ⟨rfl, hstartable⟩
          cases task with
          | startEnabledServices services jobs =>
              cases services with
              | nil => cases hattempt
              | cons other services => exact .inr (.inl (enabled hattempt))
          | startEnabledJobs jobs =>
              cases jobs with
              | nil => cases hattempt
              | cons other jobs => exact .inr (.inl (enabled hattempt))
          | rerunJob other active =>
              cases active with
              | true => cases hattempt
              | false =>
                  cases hattempt
                  refine .inl ?_
                  simp only [asks, hadvanced]
          | replacementStart workloadId kind caller =>
              cases hattempt
              obtain ⟨manager, running, found⟩ :=
                Option.bind_eq_some_iff.mp hadvanced
              exact .inr (.inr ⟨manager, running, _,
                List.mem_of_getElem? found, rfl⟩)
          | _ => cases hattempt
  | _ => cases hattempt

/-! ## The invariant -/

/-- No replacement of the workload is under way or will be asked for, and it has
no rows but those it had. -/
structure Resting (id : String) (first : Database) (world : World) : Prop where
  rows : ∀ executionId, HasRow world.database executionId id →
    HasRow first executionId id
  unflagged : ∀ executionId, Unflagged id executionId world
  free : AllTasks (fun task => task.replacing ≠ some id) world

theorem Resting.step {first : Database} (held : Resting id first world)
    (reachable : Reachable host world) (quiet : LeavesStopped id world event)
    (moved : step host world event = some next) : Resting id first next := by
  have made := step_moved moved
  have notRestarted : world.restarts event ≠ some id :=
    fun h => quiet.1 (asks_of_restarts h)
  have unstarted : world.starts event ≠ some id := by
    intro h
    rcases starts_cases h with h | h | ⟨manager, running, task, htask, h⟩
    · exact quiet.1 h
    · exact quiet.2 h
    · exact held.free manager running task htask h
  constructor
  · intro executionId hrow
    obtain ⟨row, hafter, hworkload⟩ := hrow
    cases hbefore : world.database.executions.lookup executionId with
    | none =>
        obtain ⟨hstarts, -⟩ := made.inserted hbefore hafter
        rw [hworkload] at hstarts
        exact absurd hstarts unstarted
    | some before =>
        have known : HasRow world.database executionId before.workloadId :=
          ⟨before, hbefore, rfl⟩
        have hsame := (made.hasRow reachable.hasOutcome known).unique
          ⟨row, hafter, hworkload⟩
        exact held.rows executionId (hsame ▸ known)
  · exact fun executionId => (held.unflagged executionId).step notRestarted moved
  · intro after runs task htask
    cases made with
    | elapsed | processExited => exact held.free after runs task htask
    | controllerExited => cases runs
    | startup closed =>
        obtain ⟨state, -, rfl⟩ := Option.map_eq_some_iff.mp runs
        cases List.mem_singleton.mp htask
        simp [ManagerTask.replacing]
    | command running serving =>
        cases runs
        rcases List.mem_append.mp htask with htask | htask
        · exact held.free _ running task htask
        · simp [Command.not_replacing htask]
    | attach running serving =>
        cases runs
        rcases List.mem_append.mp htask with htask | htask
        · exact held.free _ running task htask
        · simp [attachTasks_not_replacing htask]
    | advance running found made =>
        cases runs
        rcases List.mem_append.mp htask with htask | htask
        · exact held.free _ running task (List.mem_of_mem_eraseIdx htask)
        · intro hreplacing
          rcases made.replacing_from htask hreplacing with
            hbefore | ⟨executionId, hflag⟩
          · exact held.free _ running _ (List.mem_of_getElem? found) hbefore
          · cases held.unflagged executionId _ true running hflag

theorem Cancels.leavesStopped {active : ActiveExecution}
    (cancels : Cancels world event manager id false active) (other : String) :
    LeavesStopped other world event := by
  obtain ⟨kind, view, cancels, -⟩ := cancels.accepted
  cases event with
  | command command answer =>
      cases command <;> cases cancels
      all_goals exact ⟨nofun, nofun⟩
  | advance index answer =>
      simp only [cancellation] at cancels
      generalize world.advancedTask (.advance index answer) = task at cancels
      cases task with
      | none => cases cancels
      | some task =>
          cases task with
          | rerunJob other active => cases active <;> cases cancels
          | _ => cases cancels
  | _ => cases cancels

/--
When a service is stopped while no replacement of it is pending, it has no new
execution in any run in which no command asks for one and `start_enabled` does
not start it.
-/
theorem stopped_stays_stopped {accepted last : World} {active : ActiveExecution}
    (reachable : Reachable host world)
    (cancels : Cancels world event manager id false active)
    (moved : step host world event = some accepted)
    (unflagged : active.restartAfter = false)
    (free : ∀ task ∈ manager.tasks, task.replacing ≠ some id)
    (run : Runs (step host) (LeavesStopped id) accepted last) :
    ∀ executionId, HasRow last.database executionId id →
      HasRow accepted.database executionId id := by
  have start : Resting id accepted.database world := by
    constructor
    · exact fun _ hrow => (step_moved moved).hasRow reachable.hasOutcome hrow
    · intro executionId other flag running hoccupant
      cases cancels.running.symm.trans running
      simp only [State.occupant, cancels.found, Option.map_some] at hoccupant
      exact (Prod.mk.inj (Option.some.inj hoccupant)).2.symm.trans unflagged
    · intro other running
      cases cancels.running.symm.trans running
      exact free
  have held : Resting id accepted.database last := by
    refine Reachable.invariant ?_ (reachable.tail trivial moved) run
      (start.step reachable (cancels.leavesStopped id) moved)
    intro world event next hreachable held quiet moved
    exact held.step hreachable quiet moved
  exact held.rows

/-! ## An enabled service that is started again -/

/-- No command asks for an execution of the workload, and controllers are
started in the session. -/
def InSession (id session : String) (world : World) (event : Event) : Prop :=
  world.asks event ≠ some id ∧
    match event with
    | .startup other _ => other = session
    | _ => True

instance {session : String} : DecidableRel (InSession id session) := by
  intro world event
  unfold InSession
  cases event <;> infer_instance

def enabledWorld : World :=
  worldAfter attachedWorld
    [.command (.setEnabled "tool" true) calm, .advance 2 calm]

/-- The enabled tool has been stopped, and its supervisor has ended. -/
def restingWorld : World :=
  worldAfter (worldAfter enabledWorld [stopEvent])
    (finishEvents ++ [.advance 1 calm])

def replacedEvents : List Event :=
  [.controllerExited, .startup sampleSession [], .advance 0 calm,
    .advance 0 calm, .advance 0 calm, .advance 0 { calm with uuid := "e2" }]

theorem enabledWorld_cancels :
    ∃ manager active, manager.session = sampleSession ∧
      active.executionId = "e1" ∧
      Cancels enabledWorld stopEvent manager "tool" false active :=
  ⟨_, _, rfl, rfl, rfl, rfl, .service, _, rfl, rfl⟩

theorem stopped_service_started :
    ¬ ∀ (host : Host) (world accepted terminal last : World) (event : Event)
      (manager : Manager) (id : String) (active : ActiveExecution)
      (row : StoredExecution), Reachable host world →
      Cancels world event manager id false active →
      step host world event = some accepted →
      Runs (step host) (InSession id manager.session) accepted terminal →
      terminal.database.executions.lookup active.executionId = some row →
      row.endedUnixMs ≠ 0 →
      Runs (step host) (InSession id manager.session) terminal last →
      ∀ executionId, HasRow last.database executionId id →
        HasRow terminal.database executionId id := by
  intro h
  have hreachable : Reachable installation enabledWorld :=
    attachedWorld_reachable.trans (runs_worldAfter (by decide +kernel))
  obtain ⟨manager, active, hsession, hid, cancels⟩ := enabledWorld_cancels
  have hstopped : Runs (step installation) (InSession "tool" sampleSession)
      (worldAfter enabledWorld [stopEvent]) restingWorld :=
    runs_worldAfter (by decide +kernel)
  have hreplaced : Runs (step installation) (InSession "tool" sampleSession)
      restingWorld (worldAfter restingWorld replacedEvents) :=
    runs_worldAfter (by decide +kernel)
  have hended : ∃ row,
      restingWorld.database.executions.lookup "e1" = some row ∧
        row.endedUnixMs ≠ 0 :=
    ⟨_, rfl, by decide +kernel⟩
  have hstarted : HasRow (worldAfter restingWorld replacedEvents).database
      "e2" "tool" := ⟨_, rfl, rfl⟩
  obtain ⟨row, hrow, hended⟩ := hended
  rw [← hsession] at hstopped hreplaced
  obtain ⟨other, hother, -⟩ := h installation enabledWorld _ restingWorld _
    stopEvent manager "tool" active row hreachable cancels rfl hstopped
    (hid ▸ hrow) hended hreplaced "e2" hstarted
  have hnone : restingWorld.database.executions.lookup "e2" = none := by
    decide +kernel
  cases hnone.symm.trans hother

/-- The tool is not enabled, and the controller is replaced. -/
theorem stopped_stays_stopped_replaced :
    HasRow stoppedWorld.database "e1" "tool" :=
  stopped_stays_stopped attachedWorld_reachable attachedWorld_cancels
    attachedWorld_stops rfl (by decide +kernel)
    (runs_worldAfter (by decide +kernel) : Runs _ _ _
      (worldAfter stoppedWorld
        (finishEvents ++ .advance 1 calm :: replacedEvents)))
    "e1" ⟨_, rfl, rfl⟩

end World

end Susm.Controller
