import Susm.Controller.DetachedExecutions

/-!
# Recoveries

When the stream of its last attachment is closed, an execution that nothing has
put into another state is recovering.  From the first tick that finds it so, its
monitor gives the supervisor three seconds to come back and then acts.
-/

namespace Susm.Controller

open Susm.Foundation
open Susm.Protocol

namespace ManagerTask

def acts (state : State) (now : Nat) : ManagerTask → Option String
  | .monitorPoll executionId _ replacementAt wasRecovering
  | .monitorTick executionId _ replacementAt wasRecovering =>
      match (state.monitorTick executionId now replacementAt
        wasRecovering).1 with
      | .replace _ => some executionId
      | _ => none
  | .terminalLoad executionId _ | .terminalRemove executionId _ _ =>
      some executionId
  | _ => none

/-- A task of the recovery monitor that has seen the execution recovering and
acts when the time has come, if not before. -/
def Awaits (executionId : String) (due : Nat) : ManagerTask → Prop
  | .monitorPoll other _ replacementAt wasRecovering
  | .monitorTick other _ replacementAt wasRecovering =>
      other = executionId ∧ wasRecovering = true ∧ replacementAt ≤ due
  | .terminalLoad other _ | .terminalRemove other _ _ => other = executionId
  | _ => False

end ManagerTask

namespace World

variable {host : Host} {world next : World} {event : Event}
  {manager after : Manager} {id executionId : String}

/-- A supervisor of the execution is attached: the stream of its attachment is
open. -/
def Attached (executionId : String) (world : World) : Prop :=
  ∃ manager id control attachmentId, world.controller = some manager ∧
    manager.state.control id = some control ∧
    control.executionId = executionId ∧
    control.attachmentId = some attachmentId ∧
    ∃ task ∈ manager.tasks, task.streams = some (attachmentId, executionId)

/-- The stream of its last attachment, if it has had one, is closed. -/
def Disconnected (executionId : String) (world : World) : Prop :=
  ∀ manager, world.controller = some manager →
    ∀ id control attachmentId, manager.state.control id = some control →
      control.executionId = executionId →
      control.attachmentId = some attachmentId →
      ∀ task ∈ manager.tasks, task.streams ≠ some (attachmentId, executionId)

def Ticks (executionId : String) (world : World) (event : Event) : Prop :=
  ∃ stored replacementAt wasRecovering, world.advancedTask event =
    some (.monitorTick executionId stored replacementAt wasRecovering)

/-- The controller lives on, and no supervisor is attached to the execution. -/
def Unattached (host : Host) (executionId : String) (world : World)
    (event : Event) : Prop :=
  event.isStartup = false ∧ world.attaches host event ≠ some executionId

instance : DecidableRel (Unattached host executionId) :=
  fun world event => inferInstanceAs (Decidable
    (event.isStartup = false ∧ world.attaches host event ≠ _))

/-- The execution is active, and its supervisor is not the controller's own. -/
def Unowned (executionId : String) (world : World) : Prop :=
  ∃ manager, world.controller = some manager ∧
    manager.state.Unowned executionId

/-- What the monitor of the execution does next terminalizes it or starts a
replacement. -/
def ActsNext (executionId : String) (world : World) : Prop :=
  ∃ manager, world.controller = some manager ∧
    ∃ task ∈ manager.tasks,
      task.acts manager.state world.now = some executionId

theorem Attached.attended (reachable : Reachable host world)
    (attached : Attached executionId world) : Attended executionId world := by
  obtain ⟨manager, id, control, attachmentId, running, hcontrol, rfl,
    hattachment, task, htask, hstreams⟩ := attached
  intro other hother place changed hchanged about _
  cases running.symm.trans hother
  obtain ⟨-, rfl⟩ := (reachable.recorded manager running).single.control
    hcontrol hchanged rfl about
  exact .attached hattachment htask hstreams

theorem Attended.recovering (held : Attended executionId world)
    (disconnected : Disconnected executionId world)
    (running : world.controller = some manager) {control : Control}
    (hcontrol : manager.state.control id = some control)
    (about : control.executionId = executionId)
    (unowned : control.locallyOwned = false) :
    control.attachmentId = none ∧ control.state = .recovering := by
  cases held manager running id control hcontrol about unowned with
  | attached attachment htask streams =>
      exact absurd (about ▸ streams)
        (disconnected manager running id control _ hcontrol about attachment _
          htask)
  | recovering detached state => exact ⟨detached, state⟩

/-- The execution is recovering, and its monitor acts on it at the latest when
the time has come. -/
def Overdue (executionId : String) (due : Nat) (world : World) : Prop :=
  ∀ manager, world.controller = some manager →
    ∀ id control, manager.state.control id = some control →
      control.executionId = executionId → control.locallyOwned = false →
      (control.attachmentId = none ∧ control.state = .recovering) ∧
        ∃ task ∈ manager.tasks, task.Awaits executionId due

theorem awaits_advance {answer : Answer} {index due : Nat} {task : ManagerTask}
    {outcome : Outcome} (reachable : Reachable host world)
    (keeps : KeepsMonitor executionId world (.advance index answer))
    (running : world.controller = some manager)
    (found : manager.tasks[index]? = some task)
    (awaits : task.Awaits executionId due) {control : Control}
    (hcontrol : manager.state.control id = some control)
    (about : control.executionId = executionId)
    (unowned : control.locallyOwned = false)
    (recovering : control.state = .recovering)
    (advanced : task.advance host manager.session world.now answer
      (world.situation manager) = some outcome)
    (still : outcome.state.Unowned executionId) :
    ∃ other ∈ outcome.tasks, other.Awaits executionId due := by
  have hunowned : manager.state.Unowned executionId :=
    ⟨id, control, hcontrol, about, unowned⟩
  cases task with
  | monitorPoll other stored replacementAt wasRecovering =>
      simp only [ManagerTask.advance] at advanced
      split at advanced <;> cases advanced
      · exact ⟨_, List.mem_singleton_self _, awaits.1⟩
      · exact ⟨_, List.mem_singleton_self _, awaits⟩
  | monitorTick other stored replacementAt wasRecovering =>
      obtain ⟨rfl, rfl, hdue⟩ := awaits
      have single : manager.state.Single other :=
        (reachable.recorded manager running).single
      have hticked := @State.monitorTick_found_recovering manager.state id other
        world.now replacementAt true control single hcontrol about recovering
      simp only [ManagerTask.advance] at advanced
      split at advanced <;> cases advanced
      · rename_i hgone
        exact absurd (congrArg Prod.fst hgone)
          (State.monitorTick_found hcontrol about)
      · rename_i nextAt again _ hwaits
        have hsame := hticked.symm.trans (congrArg Prod.fst hwaits)
        simp only [if_true] at hsame
        split at hsame <;> cases hsame
        exact ⟨_, List.mem_singleton_self _, rfl, rfl, hdue⟩
      · rename_i hreplaces
        exact absurd still
          (State.owns_iff.mp (State.owns_replaced single hreplaces))
  | terminalLoad other result =>
      cases awaits
      rcases monitors_advance reachable running (List.mem_of_getElem? found) rfl
        hunowned (loses_eq reachable keeps running found hunowned) advanced with
        ⟨following, hfollowing, hmonitors⟩ | howns
      · simp only [ManagerTask.advance] at advanced
        split at advanced <;> cases advanced
        · cases List.mem_singleton.mp hfollowing
          exact ⟨_, hfollowing, rfl⟩
        · cases hfollowing
      · exact absurd still (State.owns_iff.mp howns)
  | terminalRemove other stored result =>
      cases awaits
      rcases monitors_advance reachable running (List.mem_of_getElem? found) rfl
        hunowned (loses_eq reachable keeps running found hunowned) advanced with
        ⟨following, hfollowing, hmonitors⟩ | howns
      · simp only [ManagerTask.advance] at advanced
        split at advanced <;> cases advanced
        · cases hfollowing
        · cases List.mem_singleton.mp hfollowing
          cases hmonitors
      · exact absurd still (State.owns_iff.mp howns)
  | _ => cases awaits

theorem Overdue.step {due : Nat} (reachable : Reachable host world)
    (held : Overdue executionId due world)
    (tracks : Tracks executionId world event)
    (unattached : Unattached host executionId world event)
    (moved : World.step host world event = some next) :
    Overdue executionId due next := by
  intro after runs id changed hchanged about still
  cases event with
  | elapse | processExited =>
      cases moved
      exact held after runs id changed hchanged about still
  | controllerExited =>
      cases moved
      cases runs
  | startup => cases unattached.1
  | command command answer =>
      obtain ⟨manager, running, -, rfl⟩ := step_command moved
      cases runs
      obtain ⟨control, hcontrol, hsame, howned⟩ :=
        Command.unowned hchanged still
      have hid := hsame.trans about
      obtain ⟨hrecovering, task, htask, hawaits⟩ :=
        held manager running id control hcontrol hid howned
      rcases command_entry reachable tracks running hcontrol hid howned
        hchanged with rfl | ⟨hattached, -⟩
      · exact ⟨hrecovering, task, List.mem_append_left _ htask, hawaits⟩
      · exact absurd hrecovering.1 hattached
  | attach hello answer =>
      obtain ⟨manager, running, -, rfl⟩ := step_attach moved
      cases runs
      obtain ⟨hrecovering, task, htask, hawaits⟩ :=
        held manager running id changed hchanged about still
      exact ⟨hrecovering, task, List.mem_append_left _ htask, hawaits⟩
  | advance index answer =>
      obtain ⟨manager, advanced, outcome, running, found, hadvanced, rfl⟩ :=
        step_advance moved
      cases runs
      obtain ⟨control, hcontrol, hsame, howned⟩ :=
        (ManagerTask.advance_section hadvanced).control.unowned hchanged still
      have hid := hsame.trans about
      obtain ⟨hrecovering, task, htask, hawaits⟩ :=
        held manager running id control hcontrol hid howned
      refine ⟨?_, exists_mem_replaced found htask hawaits ?_⟩
      · cases advance_entry reachable tracks running found hadvanced hcontrol
          hid howned hchanged still with
        | kept same =>
            subst same
            exact hrecovering
        | attached attaches =>
            refine absurd ?_ unattached.2
            rw [attaches_eq running found, attaches, hid]
        | detached attached | stated attached =>
            exact absurd hrecovering.1 attached
      · rintro rfl
        exact awaits_advance reachable tracks.keepsMonitor running found hawaits
          hcontrol hid howned hrecovering.2 hadvanced
          ⟨id, changed, hchanged, about, still⟩

theorem Attended.ticked (reachable : Reachable host world)
    (held : Attended executionId world)
    (disconnected : Disconnected executionId world)
    (ticks : Ticks executionId world event)
    (moved : World.step host world event = some next) :
    Overdue executionId (next.now + recoveryMillis) next := by
  obtain ⟨stored, replacementAt, wasRecovering, ticks⟩ := ticks
  intro after runs id changed hchanged about still
  cases event with
  | advance index answer =>
      obtain ⟨manager, task, outcome, running, found, advanced, rfl⟩ :=
        step_advance moved
      cases (advancedTask_eq running found).symm.trans ticks
      cases runs
      have single : manager.state.Single executionId :=
        (reachable.recorded manager running).single
      obtain ⟨control, hcontrol, hsame, howned⟩ :=
        (ManagerTask.advance_section advanced).control.unowned hchanged still
      have hid := hsame.trans about
      obtain ⟨hnone, hrecovering⟩ :=
        held.recovering disconnected running hcontrol hid howned
      have hticked := @State.monitorTick_found_recovering manager.state id
        executionId world.now replacementAt wasRecovering control single
        hcontrol hid hrecovering
      have hdue := reachable.dueWithin manager running _
        (List.mem_of_getElem? found)
      simp only [ManagerTask.advance] at advanced
      split at advanced <;> cases advanced
      · rename_i hgone
        exact absurd (congrArg Prod.fst hgone)
          (State.monitorTick_found hcontrol hid)
      · rename_i nextAt again _ hwaits
        have hchanged : manager.state.control id = some changed := hchanged
        cases hcontrol.symm.trans hchanged
        have hsame := hticked.symm.trans (congrArg Prod.fst hwaits)
        have hlatest : (if wasRecovering = true then replacementAt
            else world.now + recoveryMillis) ≤ world.now + recoveryMillis := by
          split
          · exact hdue
          · exact Nat.le_refl _
        dsimp only at hsame
        generalize (if wasRecovering = true then replacementAt
          else world.now + recoveryMillis) = latest at hsame hlatest
        split at hsame <;> cases hsame
        exact ⟨⟨hnone, hrecovering⟩, _,
          List.mem_append_right _ (List.mem_singleton_self _), rfl, rfl,
          hlatest⟩
      · rename_i hreplaces
        have howns := State.owns_replaced single hreplaces
        exact absurd ⟨id, changed, hchanged, about, still⟩
          (State.owns_iff.mp howns)
  | _ => cases ticks

theorem Overdue.acts {due : Nat} (reachable : Reachable host world)
    (held : Overdue executionId due world)
    (unowned : Unowned executionId world) (passed : due ≤ world.now) :
    ActsNext executionId world := by
  obtain ⟨manager, running, id, control, hcontrol, hid, howned⟩ := unowned
  obtain ⟨⟨-, hrecovering⟩, task, htask, hawaits⟩ :=
    held manager running id control hcontrol hid howned
  refine ⟨manager, running, task, htask, ?_⟩
  have replaces : ∀ replacementAt, replacementAt ≤ due →
      (manager.state.monitorTick executionId world.now replacementAt true).1 =
        .replace id := by
    intro replacementAt hdue
    rw [State.monitorTick_found_recovering
      (reachable.recorded manager running).single hcontrol hid hrecovering]
    simp only [if_true]
    rw [if_pos (Nat.le_trans hdue passed)]
  cases task with
  | monitorPoll other stored replacementAt wasRecovering
  | monitorTick other stored replacementAt wasRecovering =>
      obtain ⟨rfl, rfl, hdue⟩ := hawaits
      simp only [ManagerTask.acts, replaces replacementAt hdue]
  | terminalLoad other result | terminalRemove other stored result =>
      cases hawaits
      rfl
  | _ => cases hawaits

/--
An execution that is not the controller's own has its recovery monitor as long
as the monitor can read the row.  When in addition nothing has put it into
another state since it was attached or found, the monitor acts on it three
seconds after the first tick that finds it without a supervisor.
-/
theorem detached_recovers {first : World}
    (before : Runs (step host) (KeepsMonitor executionId) initial first)
    (start : first.controller = none ∨ Attached executionId first)
    (run : Runs (step host) (Tracks executionId) first world) :
    Monitored executionId world ∧
      ∀ event middle last, Disconnected executionId world →
        Ticks executionId world event → step host world event = some middle →
        Runs (step host) (fun world event => Tracks executionId world event ∧
          Unattached host executionId world event) middle last →
        middle.now + recoveryMillis ≤ last.now → Unowned executionId last →
        ActsNext executionId last := by
  have hfirst : Reachable host first := before.mono fun _ _ _ => trivial
  have hworld : Reachable host world :=
    hfirst.trans (run.mono fun _ _ _ => trivial)
  have hmonitored : Monitored executionId first := by
    refine Reachable.invariant ?_ Runs.refl before ?_
    · exact fun world event next reachable held keeps moved =>
        held.step reachable keeps moved
    · intro manager running
      cases running
  have hattended : Attended executionId first := by
    rcases start with hclosed | hattached
    · intro manager running
      cases hclosed.symm.trans running
    · exact hattached.attended hfirst
  constructor
  · refine Reachable.invariant ?_ hfirst run hmonitored
    exact fun world event next reachable held tracks moved =>
      held.step reachable tracks.keepsMonitor moved
  intro event middle last disconnected ticks moved rest passed unowned
  have held : Attended executionId world := by
    refine Reachable.invariant ?_ hfirst run hattended
    exact fun world event next reachable held tracks moved =>
      held.step reachable tracks moved
  have hmiddle := hworld.tail trivial moved
  have hoverdue : Overdue executionId (middle.now + recoveryMillis) last := by
    refine Reachable.invariant ?_ hmiddle rest
      (held.ticked hworld disconnected ticks moved)
    exact fun world event next reachable held admits moved =>
      held.step reachable admits.1 admits.2 moved
  exact hoverdue.acts (hmiddle.trans (rest.mono fun _ _ _ => trivial)) unowned
    passed

/-! ## A stop without a supervisor -/

theorem disconnected_of_all
    (h : world.controller.all (fun manager =>
      manager.state.active.toList.all fun entry =>
        entry.2.attachmentId.isNone) = true) :
    Disconnected executionId world := by
  intro manager running id control attachmentId hcontrol _ hattachment
  obtain ⟨active, hactive, rfl⟩ := Option.map_eq_some_iff.mp hcontrol
  rw [running, Option.all_some] at h
  have hnone := List.all_eq_true.mp h _ (Map.mem_toList.mpr hactive)
  have hsome : active.attachmentId = some attachmentId := hattachment
  simp [hsome] at hnone

theorem unowned_of_detached (h : world.detached executionId = true) :
    Unowned executionId world := by
  obtain ⟨control, hcontrol, hdetached⟩ := (Option.any_eq_true _ _).mp h
  obtain ⟨manager, running, hentry⟩ := Option.bind_eq_some_iff.mp hcontrol
  obtain ⟨⟨id, active⟩, hfound, rfl⟩ := Option.map_eq_some_iff.mp hentry
  obtain ⟨hlookup, hid⟩ := Map.findEntry_some hfound
  exact ⟨manager, running, id, active.control,
    State.control_of_lookup hlookup, of_decide_eq_true hid,
    by simpa using (Bool.and_eq_true_iff.mp hdetached).1⟩

theorem actsNext_iff : ActsNext executionId world ↔
    world.controller.any (fun manager => manager.tasks.any fun task =>
      task.acts manager.state world.now = some executionId) = true := by
  simp [ActsNext, Option.any_eq_true]

/-- The controller has been started again, the supervisor of `e1` has ended, and
the monitor is about to tick. -/
def recoveringWorld : World where
  controller := some
    { session := sampleSession
      state :=
        { workloads := AList.singleton "tool" toolRecord
          active := AList.singleton "tool"
            (openedExecution installation "e1" runningRow)
          revision := 0
          sessionEnding := false
          cancelled := []
          receivers := [] }
      tasks := [.monitorTick "e1" runningRow 3_000 true] }
  database := attachedWorld.database
  processes := [⟨"e1", 7, false⟩]
  now := 0

theorem runs_recoveringWorld :
    Runs (step installation) (Tracks "e1") initial recoveringWorld := by
  have executed : executeAdmitted (step installation) (Tracks "e1") initial
      (startupEvents [toolDefinition] ++ startEvents "e1" 7 ++
        [.attach (sampleHello "e1" 7) calm,
          .advance 1 { calm with uuid := "a1" }, .processExited 0] ++
        reopenedEvents ++ [.advance 0 calm]) = some recoveringWorld := by
    decide +kernel
  exact (executeAdmitted_runs executed).2

/-- The execution is stopped before the monitor ticks. -/
def haltedWorld : World := worldAfter recoveringWorld [stopEvent]

theorem detached_unrecovered :
    ¬ ∀ (host : Host) (world middle last : World) (event : Event)
      (executionId : String), Reachable host world →
      Disconnected executionId world → Ticks executionId world event →
      step host world event = some middle →
      Runs (step host) (Unattached host executionId) middle last →
      middle.now + recoveryMillis ≤ last.now → Unowned executionId last →
      ActsNext executionId last := by
  intro h
  have reachable : Reachable installation haltedWorld :=
    (runs_recoveringWorld.mono fun _ _ _ => trivial).trans
      (runs_worldAfter (by decide +kernel))
  have acts := h installation haltedWorld
    (worldAfter haltedWorld [.advance 0 calm])
    (worldAfter haltedWorld [.advance 0 calm, .elapse 3_000])
    (.advance 0 calm) "e1" reachable
    (disconnected_of_all (by decide +kernel))
    ⟨runningRow, 3_000, true, by decide +kernel⟩
    (step_worldAfter (by decide +kernel))
    (@runs_worldAfter _ _ _ [.elapse 3_000] (by decide +kernel))
    (by decide +kernel) (unowned_of_detached (by decide +kernel))
  rw [actsNext_iff] at acts
  revert acts
  decide +kernel

theorem detached_recovers_replaced :
    Monitored "e1" recoveringWorld ∧
      ActsNext "e1"
        (worldAfter recoveringWorld [.advance 0 calm, .elapse 3_000]) := by
  obtain ⟨hmonitored, hacts⟩ :=
    detached_recovers Runs.refl (.inl rfl) runs_recoveringWorld
  refine ⟨hmonitored, ?_⟩
  exact hacts (.advance 0 calm) (worldAfter recoveringWorld [.advance 0 calm])
    _ (disconnected_of_all (by decide +kernel))
    ⟨runningRow, 3_000, true, by decide +kernel⟩
    (step_worldAfter (by decide +kernel))
    (@runs_worldAfter _ _ _ [.elapse 3_000] (by decide +kernel))
    (by decide +kernel) (unowned_of_detached (by decide +kernel))

end World

end Susm.Controller
