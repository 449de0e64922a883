import Susm.Controller.Controls
import Susm.Controller.Removals
import Susm.Controller.StopIntents

/-!
# Executions that are being stopped

That an execution is to be stopped is remembered by the state of its entry
alone.  An accepted attachment, an observation of progress and the launch of a
supervisor write this state without a look at it; every other section leaves a
stopping entry as it is or removes it.
-/

namespace Susm.Controller

open Susm.Foundation
open Susm.Protocol

namespace State

variable {state before after : State} {id executionId : String}

/-- The execution is being stopped, or it is not active any more. -/
def StopsOnly (state : State) (executionId : String) : Prop :=
  ∀ id control, state.control id = some control →
    control.executionId = executionId → control.state = .stopping

/-- The recovery monitor does not take the execution over, whenever it ticks. -/
def Unreplaced (state : State) (executionId : String) : Prop :=
  ∀ now replacementAt wasRecovering workloadId,
    (state.monitorTick executionId now replacementAt wasRecovering).1 ≠
      .replace workloadId

theorem control_of_lookup {active : ActiveExecution}
    (found : state.active.lookup id = some active) :
    state.control id = some active.control := by
  rw [control, found, Option.map_some]

theorem monitorTick_recovering {now replacementAt : Nat}
    {wasRecovering : Bool} (replaces : (state.monitorTick executionId now
      replacementAt wasRecovering).1 = .replace id) :
    ∃ control, state.control id = some control ∧
      control.executionId = executionId ∧ control.state = .recovering := by
  rcases control_monitorTick rfl with
    ⟨-, hnone⟩ | ⟨other, control, hreplaces, hfound, hid, hrecovering, -⟩
  · exact absurd replaces (hnone id)
  · cases replaces.symm.trans hreplaces
    exact ⟨control, hfound, hid, hrecovering⟩

theorem StopsOnly.unreplaced (stops : state.StopsOnly executionId) :
    state.Unreplaced executionId := by
  intro now replacementAt wasRecovering id replaces
  obtain ⟨control, hcontrol, hid, hrecovering⟩ :=
    monitorTick_recovering replaces
  have hstopping := stops id control hcontrol hid
  rw [hrecovering] at hstopping
  cases hstopping

theorem StopsOnly.congr (stops : before.StopsOnly executionId)
    (same : ∀ id, after.control id = before.control id) :
    after.StopsOnly executionId := by
  intro id control hcontrol hid
  exact stops id control ((same id).symm.trans hcontrol) hid

/-- An entry may be written when it is of another execution, or when what is
written is that it is stopping. -/
theorem StopsOnly.writes {written : Control → Control}
    (stops : before.StopsOnly executionId)
    (writes : Writes before after id written)
    (harmless : ∀ control, before.control id = some control →
      (written control).executionId = executionId →
      (written control).state = .stopping) :
    after.StopsOnly executionId := by
  obtain ⟨control, hbefore, hafter, hothers⟩ := writes
  intro other changed hchanged hid
  by_cases hother : other = id
  · subst other
    cases hafter.symm.trans hchanged
    exact harmless control hbefore hid
  · exact stops other changed ((hothers other hother).symm.trans hchanged) hid

theorem StopsOnly.clears {removed : String}
    (stops : before.StopsOnly executionId)
    (clears : Clears before after id removed) :
    after.StopsOnly executionId := by
  obtain ⟨-, hafter, hothers⟩ := clears
  intro other control hcontrol hid
  by_cases hother : other = id
  · subst other
    cases hafter.symm.trans hcontrol
  · exact stops other control ((hothers other hother).symm.trans hcontrol) hid

theorem control_activeId {control : Control}
    (found : state.control id = some control) :
    state.activeId id = some control.executionId := by
  rw [activeId_control, found, Option.map_some]

end State

/-! ## Sections that overwrite the state -/

def ManagerTask.attaches (host : Host) (answer : Answer) (state : State) :
    ManagerTask → Option String
  | .attachSupervisor hello stored =>
      match state.attachSupervisor host hello stored answer.uuid with
      | .ok _ => some hello.executionId
      | .error _ => none
  | _ => none

/-- The execution whose state the next section of a task writes, whatever it
has been before. -/
def ManagerTask.overwrites (host : Host) (answer : Answer) (state : State) :
    ManagerTask → Option String
  | .attachSupervisor hello stored =>
      ManagerTask.attaches host answer state (.attachSupervisor hello stored)
  | .recordProgress _ executionId stored observation =>
      if (state.entry stored.workloadId executionId).isSome ∧
          (progressObservation observation).isSome then some executionId
      else none
  | .runLaunching run _ =>
      if (state.entry run.workloadId run.executionId).isSome then
        some run.executionId
      else none
  | _ => none

theorem entry_isSome {state : State} {id executionId : String}
    (active : state.activeId id = some executionId) :
    (state.entry id executionId).isSome := by
  obtain ⟨entry, hentry⟩ := State.activeId_eq_some.mp active
  rw [State.entry_eq_some.mpr hentry]
  rfl

section Sections

variable {host : Host} {answer : Answer} {situation : Situation}
  {after : State} {task : ManagerTask} {executionId : String}

theorem StartsControl.stopsOnly {id : String}
    (starts : StartsControl answer situation after id)
    (known : Known situation.database executionId)
    (stops : situation.state.StopsOnly executionId) :
    after.StopsOnly executionId := by
  intro other control hcontrol hid
  by_cases hother : other = id
  · subst other
    cases starts.written.symm.trans hcontrol
    obtain ⟨workloadId, row, hrow, -⟩ := known
    have hunused := starts.unused
    rw [show answer.uuid = executionId from hid] at hunused
    cases hunused.symm.trans hrow
  · exact stops other control ((starts.others other hother).symm.trans hcontrol)
      hid

theorem ControlAfter.stopsOnly
    (made : ControlAfter host answer situation after task)
    (known : Known situation.database executionId)
    (spares : task.overwrites host answer situation.state ≠ some executionId)
    (stops : situation.state.StopsOnly executionId) :
    after.StopsOnly executionId := by
  cases made with
  | kept same => exact stops.congr same
  | started starts => exact starts.stopsOnly known stops
  | removed removes clears => exact stops.clears clears
  | stopped kind writes => exact stops.writes writes fun _ _ _ => rfl
  | detached found ends writes =>
      refine stops.writes writes fun entry hentry hid => ?_
      cases found.symm.trans hentry
      exact absurd (stops _ _ hentry hid) ends.2.2.1
  | replaced found about recovering writes =>
      refine stops.writes writes fun entry hentry hid => ?_
      cases found.symm.trans hentry
      cases recovering.symm.trans (stops _ _ hentry hid)
  | attached accepted active writes =>
      obtain ⟨result, haccepted⟩ := accepted
      refine stops.writes writes fun entry hentry hid => ?_
      have hsame := active.symm.trans (State.control_activeId hentry)
      simp only [ManagerTask.overwrites, ManagerTask.attaches, haccepted]
        at spares
      exact absurd (hsame.trans (congrArg some hid)) spares
  | progressed observed active writes =>
      refine stops.writes writes fun entry hentry hid => ?_
      have hsame := active.symm.trans (State.control_activeId hentry)
      simp only [ManagerTask.overwrites, observed, entry_isSome active,
        Option.isSome_some, and_self, if_true] at spares
      exact absurd (hsame.trans (congrArg some hid)) spares
  | launched active writes =>
      refine stops.writes writes fun entry hentry hid => ?_
      have hsame := active.symm.trans (State.control_activeId hentry)
      simp only [ManagerTask.overwrites, entry_isSome active, if_true]
        at spares
      exact absurd (hsame.trans (congrArg some hid)) spares

theorem Command.stopsOnly {session : String} (command : Command)
    (known : Known situation.database executionId)
    (stops : situation.state.StopsOnly executionId) :
    (command.perform host session answer situation).state.StopsOnly
      executionId := by
  rcases @Command.control host session answer situation command with
    same | ⟨id, starts⟩ | ⟨id, kind, restartAfter, -, -, writes⟩ | ⟨-, -, all⟩
  · exact stops.congr same
  · exact starts.stopsOnly known stops
  · exact stops.writes writes fun _ _ _ => rfl
  · intro id control hcontrol hid
    obtain ⟨before, -, rfl⟩ :=
      Option.map_eq_some_iff.mp ((all id).symm.trans hcontrol)
    rfl

end Sections

/-! ## Overwriting -/

section Overwriting

variable {host : Host} {session : String} {now : Nat} {answer : Answer}
  {situation : Situation} {outcome : Outcome} {task : ManagerTask}
  {executionId : String}

/-- The execution is active and not being stopped. -/
def State.Unstopping (state : State) (executionId : String) : Prop :=
  ∃ id control, state.control id = some control ∧
    control.executionId = executionId ∧ control.state ≠ .stopping

theorem State.Unstopping.not_stopsOnly {state : State}
    (unstopping : state.Unstopping executionId) :
    ¬ state.StopsOnly executionId := by
  obtain ⟨id, control, hcontrol, hid, hstate⟩ := unstopping
  exact fun stops => hstate (stops id control hcontrol hid)

/-- The row that an attachment has read is not one of a stopping execution. -/
def ManagerTask.Unstopped : ManagerTask → Prop
  | .attachSupervisor _ stored => stored.state ≠ .stopping
  | _ => True

theorem activeState_stopping {name : StateName}
    (h : activeState name = .stopping) : name = .stopping := by
  cases name <;> simp [activeState] at h ⊢

theorem State.unstopping_attached {state next : State} {hello : Hello}
    {stored : StoredExecution} {attachmentId : String} {locallyOwned : Bool}
    (attached : state.attachSupervisor host hello stored attachmentId =
      .ok (locallyOwned, next))
    (unstopped : stored.state ≠ .stopping) :
    next.Unstopping hello.executionId := by
  obtain ⟨active, control, before, after, -⟩ :=
    control_attachSupervisor attached
  refine ⟨_, _, after, ?_, ?_⟩
  · exact Option.some.inj ((control_activeId before).symm.trans active)
  · simp only [Control.attached]
    split
    · simp
    · exact fun h => unstopped (activeState_stopping h)

theorem State.unstopping_progressed {state : State} {stored : StoredExecution}
    {observation : SupervisorObservation} {progress : ProgressObservation}
    {active : ActiveExecution}
    (found : state.entry stored.workloadId executionId = some active)
    (observed : progressObservation observation = some progress) :
    (state.recordProgress executionId stored observation).Unstopping
      executionId := by
  obtain ⟨hlookup, hid⟩ := entry_eq_some.mp found
  obtain ⟨control, before, after, -⟩ := writes_recordProgress found observed
  cases (control_of_lookup hlookup).symm.trans before
  refine ⟨_, _, after, hid, fun h => ?_⟩
  have hprogress := progressObservation_isProgress observed
  rw [show progress.state = .stopping from h] at hprogress
  cases hprogress

theorem State.unstopping_launched {state : State} {id : String}
    {supervisorProcessId : Nat} {active : ActiveExecution}
    (found : state.entry id executionId = some active) :
    (state.supervisorLaunching id executionId supervisorProcessId).Unstopping
      executionId := by
  obtain ⟨hlookup, hid⟩ := entry_eq_some.mp found
  obtain ⟨control, before, after, -⟩ :=
    @writes_supervisorLaunching state _ _ supervisorProcessId active found
  cases (control_of_lookup hlookup).symm.trans before
  exact ⟨_, _, after, hid, by simp [Control.launched]⟩

/-- After the sections that overwrite it, the state is not `stopping`. -/
theorem ManagerTask.overwrites_unstopping (unstopped : task.Unstopped)
    (overwrites : task.overwrites host answer situation.state =
      some executionId)
    (advanced : task.advance host session now answer situation =
      some outcome) :
    outcome.state.Unstopping executionId := by
  cases task with
  | attachSupervisor hello stored =>
      simp only [ManagerTask.overwrites, ManagerTask.attaches] at overwrites
      simp only [ManagerTask.advance] at advanced
      split at advanced
      · cases advanced
      split at advanced
      · rename_i herror
        simp [herror] at overwrites
      · rename_i next hok
        simp only [hok, Option.some.injEq] at overwrites
        subst overwrites
        have unstopping := State.unstopping_attached hok unstopped
        cases advanced
        exact unstopping
      · rename_i next hok
        simp only [hok, Option.some.injEq] at overwrites
        subst overwrites
        have unstopping := State.unstopping_attached hok unstopped
        split at advanced <;> cases advanced
        · exact unstopping
        · exact unstopping
  | recordProgress attachmentId other stored observation =>
      simp only [ManagerTask.overwrites] at overwrites
      split at overwrites
      · rename_i h
        cases overwrites
        cases advanced
        obtain ⟨active, hactive⟩ := Option.isSome_iff_exists.mp h.1
        obtain ⟨progress, hprogress⟩ := Option.isSome_iff_exists.mp h.2
        exact State.unstopping_progressed hactive hprogress
      · cases overwrites
  | runLaunching run process =>
      simp only [ManagerTask.overwrites] at overwrites
      split at overwrites
      · rename_i h
        cases overwrites
        cases advanced
        obtain ⟨active, hactive⟩ := Option.isSome_iff_exists.mp h
        exact State.unstopping_launched hactive
      · cases overwrites
  | _ => cases overwrites

theorem Section.unstopped {other : ManagerTask}
    (made : Section host session now answer situation task outcome)
    (hother : other ∈ outcome.tasks) : other.Unstopped := by
  cases made.succeeds hother with
  | returned calls returns =>
      rename_i caller
      cases caller <;> simp [Caller.tasks] at returns
      all_goals subst returns; trivial
  | runFailed =>
      simp only [supervisorFailed]
      split <;> trivial
  | _ => trivial

theorem Command.unstopped {command : Command} {other : ManagerTask}
    (hother : other ∈
      (command.perform host session answer situation).tasks) :
    other.Unstopped := by
  cases Command.leaves hother <;> trivial

end Overwriting

namespace World

variable {host : Host} {world next first last : World} {event : Event}
  {manager : Manager} {id executionId : String}

theorem Reachable.unstopped (reachable : Reachable host world) :
    AllTasks ManagerTask.Unstopped world := by
  refine Reachable.invariant ?_ Runs.refl reachable ?_
  · intro world event next hreachable all _ moved after runs task htask
    cases step_taskFrom moved runs htask with
    | kept running before => exact all _ running task before
    | opened => trivial
    | commanded running left => exact Command.unstopped left
    | attached running found => exact hreachable.noneStopping _ _ found
    | left running found advanced left =>
        exact (ManagerTask.advance_section advanced).unstopped left
  · intro manager running
    cases running

/-! ## Stopping -/

def overwrites (host : Host) (world : World) : Event → Option String
  | .advance index answer =>
      world.controller.bind fun manager =>
        manager.tasks[index]?.bind
          (ManagerTask.overwrites host answer manager.state)
  | _ => none

theorem overwrites_eq {index : Nat} {answer : Answer} {task : ManagerTask}
    (running : world.controller = some manager)
    (found : manager.tasks[index]? = some task) :
    world.overwrites host (.advance index answer) =
      task.overwrites host answer manager.state := by
  simp [overwrites, running, found]

/-- The execution that a supervisor is attached to in a step. -/
def attaches (host : Host) (world : World) : Event → Option String
  | .advance index answer =>
      world.controller.bind fun manager =>
        manager.tasks[index]?.bind
          (ManagerTask.attaches host answer manager.state)
  | _ => none

theorem attaches_eq {index : Nat} {answer : Answer} {task : ManagerTask}
    (running : world.controller = some manager)
    (found : manager.tasks[index]? = some task) :
    world.attaches host (.advance index answer) =
      task.attaches host answer manager.state := by
  simp [attaches, running, found]

/-- The controller lives on, and the state of the execution is not
overwritten. -/
def Spares (host : Host) (executionId : String) (world : World)
    (event : Event) : Prop :=
  event.isStartup = false ∧ world.overwrites host event ≠ some executionId

instance : DecidableRel (Spares host executionId) :=
  fun world event => inferInstanceAs (Decidable
    (event.isStartup = false ∧ world.overwrites host event ≠ _))

/-- The execution is being stopped or has been removed, and its recovery
monitor does not take it over. -/
def StaysStopping (executionId : String) (world : World) : Prop :=
  ∀ manager, world.controller = some manager →
    manager.state.StopsOnly executionId ∧ manager.state.Unreplaced executionId

theorem staysStopping_iff : StaysStopping executionId world ↔
    ∀ manager, world.controller = some manager →
      manager.state.StopsOnly executionId := by
  constructor
  · exact fun stays manager running => (stays manager running).1
  · exact fun stops manager running =>
      ⟨stops manager running, (stops manager running).unreplaced⟩

theorem StaysStopping.step (stays : StaysStopping executionId world)
    (known : Known world.database executionId)
    (spares : Spares host executionId world event)
    (moved : step host world event = some next) :
    StaysStopping executionId next := by
  rw [staysStopping_iff] at stays ⊢
  intro after runs
  cases step_moved moved with
  | elapsed | processExited => exact stays after runs
  | controllerExited => cases runs
  | startup => cases spares.1
  | command running serving =>
      cases runs
      exact Command.stopsOnly _ known (stays _ running)
  | attach running serving =>
      have stops := stays _ running
      cases runs
      exact stops
  | advance running found made =>
      cases runs
      exact made.control.stopsOnly known
        (overwrites_eq running found ▸ spares.2) (stays _ running)

/-- A step that overwrites the state of an execution makes it forget that it is
to be stopped. -/
theorem overwritten (reachable : Reachable host world)
    (overwrites : world.overwrites host event = some executionId)
    (moved : step host world event = some next) :
    ¬ StaysStopping executionId next := by
  cases event with
  | advance index answer =>
      obtain ⟨manager, task, outcome, running, found, advanced, rfl⟩ :=
        step_advance moved
      rw [overwrites_eq running found] at overwrites
      have unstopping := ManagerTask.overwrites_unstopping
        (reachable.unstopped manager running task (List.mem_of_getElem? found))
        overwrites advanced
      intro stays
      exact unstopping.not_stopsOnly (stays _ rfl).1
  | _ => cases overwrites

/-! ## Accepted stops -/

inductive Stops (world : World) : Event → String → Prop where
  | cancelled {event : Event} {manager : Manager} {id : String}
      {restartAfter : Bool} {active : ActiveExecution}
      (cancels : Cancels world event manager id restartAfter active) :
      Stops world event active.executionId
  | sessionEnded {answer : Answer} {manager : Manager} {id executionId : String}
      (running : world.controller = some manager)
      (goesOn : manager.state.sessionEnding = false)
      (active : manager.state.activeId id = some executionId) :
      Stops world (.command .endSession answer) executionId

theorem Stops.known (reachable : Reachable host world)
    (stops : Stops world event executionId) :
    Known world.database executionId := by
  cases stops with
  | cancelled cancels =>
      exact ⟨_, (reachable.recorded _ cancels.running).entries _ _
        (State.activeId_eq_some.mpr ⟨_, cancels.found, rfl⟩)⟩
  | sessionEnded running goesOn active =>
      exact ⟨_, (reachable.recorded _ running).entries _ _ active⟩

theorem Cancels.writes {restartAfter : Bool} {active : ActiveExecution}
    (cancels : Cancels world event manager id restartAfter active)
    (moved : step host world event = some next) :
    ∃ after, next.controller = some after ∧
      State.Writes manager.state after.state id Control.stopped := by
  obtain ⟨kind, view, hcancels, haccepted⟩ := cancels.accepted
  have hrunning := cancels.running
  cases event with
  | command command answer =>
      obtain ⟨other, hother, -, rfl⟩ := step_command moved
      cases hrunning.symm.trans hother
      cases command <;> cases hcancels
      all_goals exact ⟨_, rfl, State.control_cancel_accepted haccepted⟩
  | advance index answer =>
      obtain ⟨other, task, outcome, hother, hfound, hadvanced, rfl⟩ :=
        step_advance moved
      cases hrunning.symm.trans hother
      simp only [cancellation, advancedTask_eq hrunning hfound] at hcancels
      cases task with
      | rerunJob other active =>
          cases active <;> cases hcancels
          cases hadvanced
          exact ⟨_, rfl, State.control_cancel_accepted haccepted⟩
      | _ => cases hcancels
  | _ => cases hcancels

theorem Stops.step (reachable : Reachable host world)
    (stops : Stops world event executionId)
    (moved : step host world event = some next) :
    StaysStopping executionId next := by
  rw [staysStopping_iff]
  intro after runs
  cases stops with
  | @cancelled _ manager id restartAfter active cancels =>
      obtain ⟨written, hwritten, control, hbefore, hafter, hothers⟩ :=
        cancels.writes moved
      cases hwritten.symm.trans runs
      have hactive := State.activeId_eq_some.mpr ⟨_, cancels.found, rfl⟩
      intro other changed hchanged hid
      have hsame : other = id := by
        by_contra hother
        have hentry := (hothers other hother).symm.trans hchanged
        refine hother (activeId_unique reachable cancels.running ?_ hactive)
        rw [State.control_activeId hentry, hid]
      subst hsame
      cases hafter.symm.trans hchanged
      rfl
  | sessionEnded running goesOn active =>
      rename_i answer manager id
      obtain ⟨other, hother, -, rfl⟩ := step_command moved
      cases running.symm.trans hother
      cases runs
      intro id control hcontrol hid
      have hends := State.control_endSession manager.state id
      rw [if_neg (by simp [goesOn])] at hends
      obtain ⟨before, -, rfl⟩ :=
        Option.map_eq_some_iff.mp (hends.symm.trans hcontrol)
      rfl

/--
Once a stop has been accepted, an execution stays stopping until it is removed,
in every run of the controller that does not overwrite its state; the first step
that does makes the controller forget the stop.
-/
theorem stopping_kept (reachable : Reachable host world)
    (stops : Stops world event executionId)
    (moved : step host world event = some first)
    (run : Runs (step host) (Spares host executionId) first last) :
    StaysStopping executionId last ∧
      ∀ event next, event.isStartup = false →
        step host last event = some next →
        (StaysStopping executionId next ↔
          last.overwrites host event ≠ some executionId) := by
  have hreachable := reachable.tail trivial moved
  have held : StaysStopping executionId last ∧
      Known last.database executionId := by
    refine @Reachable.invariant _ _ (fun world =>
        StaysStopping executionId world ∧ Known world.database executionId)
      _ _ ?_ hreachable run ⟨stops.step reachable moved,
        known_step reachable moved (stops.known reachable)⟩
    intro world event next hreachable held spares moved
    exact ⟨held.1.step held.2 spares moved, known_step hreachable moved held.2⟩
  refine ⟨held.1, fun event next lives moved => ⟨?_, ?_⟩⟩
  · intro stays overwrites
    exact overwritten (hreachable.trans (run.mono fun _ _ _ => trivial))
      overwrites moved stays
  · exact fun spares => held.1.step held.2 ⟨lives, spares⟩ moved

/-! ## A stop that is overwritten -/

theorem readoptedWorld_stops : Stops readoptedWorld stopEvent "e1" := by
  have cancels : Cancels readoptedWorld stopEvent readoptedManager "tool" false
      readoptedExecution := ⟨rfl, rfl, .service, _, rfl, rfl⟩
  exact .cancelled cancels

def stoppingWorld : World := worldAfter readoptedWorld [stopEvent]

/-- An attempt that was being started when the stop arrived has started, and
the connection is lost. -/
def overwrittenEvents : List Event :=
  .advance 1
      { calm with observation := some ⟨1, .attemptStarted, none, "", 1, 42⟩ } ::
    List.replicate 3 (.advance 1 calm) ++
    [.advance 1 { calm with interrupted := true }, .advance 1 calm]

def overwrittenWorld : World := worldAfter stoppingWorld overwrittenEvents

theorem stopping_overwritten :
    ¬ ∀ (host : Host) (world first last : World) (event : Event)
      (executionId : String), Reachable host world →
      Stops world event executionId → step host world event = some first →
      Runs (step host) Goes first last → StaysStopping executionId last := by
  intro h
  have stays : StaysStopping "e1" overwrittenWorld :=
    h installation readoptedWorld stoppingWorld overwrittenWorld stopEvent "e1"
      readoptedWorld_reachable readoptedWorld_stops
      (step_worldAfter (by decide +kernel))
      (runs_worldAfter (by decide +kernel))
  have hreplaces : overwrittenWorld.controller.map (fun manager =>
      (manager.state.monitorTick "e1" 3_000 3_000 true).1) =
        some (.replace "tool") := by decide +kernel
  obtain ⟨manager, running, hreplaces⟩ := Option.map_eq_some_iff.mp hreplaces
  exact (stays manager running).2 _ _ _ _ hreplaces

/-- The stop is passed on, the connection is lost, and the monitor ticks. -/
def keptEvents : List Event :=
  [.advance 1 calm, .advance 1 { calm with interrupted := true },
    .advance 1 calm, .elapse 3_000, .advance 0 calm, .advance 0 calm]

theorem stopping_kept_detached :
    StaysStopping "e1" (worldAfter stoppingWorld keptEvents) :=
  (stopping_kept readoptedWorld_reachable readoptedWorld_stops
    (step_worldAfter (by decide +kernel))
    (runs_worldAfter (by decide +kernel))).1

end World

end Susm.Controller
