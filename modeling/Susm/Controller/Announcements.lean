import Susm.Controller.ControlRpc
import Susm.Controller.Frames

/-!
# Announced changes

What a watcher is shown of the workloads, and the revision that tells it to
look again.  A section that changes what is shown raises the revision.  Two of
them do not: the recovery monitor takes an execution over silently, and so does
an attachment whose supervisor cannot be stored.
-/

namespace Susm.Controller

open Susm.Foundation
open Susm.Protocol

namespace State

def view (state : State) (id : String) : Option Workload :=
  (state.workloads.lookup id).map fun record =>
    workloadView id record (state.active.lookup id)

/-- `Inner::bump` was called once. -/
def Announced (before after : State) : Prop :=
  after.revision = before.bump.revision

/-- Nothing is announced, and at most one workload is shown otherwise. -/
def Silent (id : Option String) (before after : State) : Prop :=
  after.revision = before.revision ∧
    ∀ other, id ≠ some other → after.view other = before.view other

variable {host : Host} {state before after : State} {id executionId : String}

theorem Silent.refl (id : Option String) (state : State) :
    Silent id state state := ⟨rfl, fun _ _ => rfl⟩

theorem Silent.of_maps (revision : after.revision = before.revision)
    (workloads : after.workloads = before.workloads)
    (active : ∀ other, after.active.lookup other = before.active.lookup other) :
    Silent none before after :=
  ⟨revision, fun other _ => by rw [view, view, workloads, active other]⟩

theorem silent_setActive {active : ActiveExecution} :
    Silent (some id) state (state.setActive id active) := by
  refine ⟨rfl, fun other hother => ?_⟩
  have hne : other ≠ id := fun heq => hother (by rw [heq])
  simp [view, setActive, AList.lookup_insert_ne hne]

theorem sendPending_kept (entry : String × ActiveExecution) :
    (sendPending host state entry).revision = state.revision ∧
      (sendPending host state entry).workloads = state.workloads ∧
      (sendPending host state entry).active = state.active := by
  unfold sendPending
  split
  · exact ⟨rfl, rfl, rfl⟩
  · split <;> exact ⟨rfl, rfl, rfl⟩

theorem revision_reconcileReload :
    (reconcileReload host state).2.revision = state.revision :=
  foldl_same State.revision (fun _ entry => (sendPending_kept entry).1) _ _

theorem workloads_reconcileReload :
    (reconcileReload host state).2.workloads = state.workloads :=
  foldl_same State.workloads (fun _ entry => (sendPending_kept entry).2.1) _ _

theorem active_reconcileReload :
    (reconcileReload host state).2.active =
      state.active.mapValues fun id active =>
        reconcileActive host (state.definition id) active :=
  foldl_same State.active (fun _ entry => sendPending_active entry) _ _

/-! ## Commands and reloads -/

theorem announced_cancel {expectedKind : WorkloadKind} {restartAfter : Bool} :
    Announced state (state.cancel id expectedKind restartAfter).2 ∨
      Silent none state (state.cancel id expectedKind restartAfter).2 := by
  unfold cancel
  split
  · exact .inr (.refl _ _)
  split
  · exact .inr (.refl _ _)
  split
  · exact .inr (.refl _ _)
  · exact .inl rfl

theorem announced_setEnabled {enabled changed : Bool} :
    Announced state (state.setEnabled id enabled changed).2 ∨
      Silent none state (state.setEnabled id enabled changed).2 := by
  unfold setEnabled
  split
  · exact .inr (.refl _ _)
  · cases changed with
    | true => exact .inl rfl
    | false => exact .inr (.refl _ _)

theorem announced_endSession :
    Announced state state.endSession ∨
      Silent none state state.endSession := by
  unfold endSession
  split
  · exact .inr (.refl _ _)
  · refine .inl ?_
    refine congrArg (saturatingAdd (2 ^ 64) · 1) ?_
    exact foldl_same State.revision (by intro state entry; rfl)
      state.active.toList _

theorem announced_applyReload {persisted : List (String × StoredWorkload)} :
    Announced state (state.applyReload host persisted) := by
  have hinserted : (persisted.foldl insertWorkload state).revision =
      state.revision :=
    foldl_same State.revision (by intro state item; rfl) persisted state
  simp only [Announced, applyReload, bump, revision_reconcileReload, hinserted]

theorem silent_reconcileReload
    (unchanged : (reconcileReload host state).1 = false) :
    Silent none state (reconcileReload host state).2 := by
  refine .of_maps revision_reconcileReload workloads_reconcileReload
    fun other => ?_
  rw [active_reconcileReload, Map.lookup_mapValues]
  cases hactive : state.active.lookup other with
  | none => rfl
  | some active =>
      have hsame := List.any_eq_false.mp unchanged (other, active)
        (Map.mem_toList.mpr hactive)
      simpa using hsame

theorem announced_keepReload :
    Announced state (state.keepReload host) ∨
      Silent none state (state.keepReload host) := by
  have hrevision : (reconcileReload host state).2.revision = state.revision :=
    revision_reconcileReload
  have hsilent : (reconcileReload host state).1 = false →
      Silent none state (reconcileReload host state).2 := silent_reconcileReload
  unfold keepReload
  split
  · rename_i next hnext
    rw [hnext] at hrevision
    exact .inl (congrArg (saturatingAdd (2 ^ 64) · 1) hrevision)
  · rename_i next hnext
    rw [hnext] at hsilent
    exact .inr (hsilent rfl)

/-! ## Supervisors -/

theorem announced_supervisorDisconnected {attachmentId : String} :
    Announced state (state.supervisorDisconnected executionId attachmentId) ∨
      Silent none state
        (state.supervisorDisconnected executionId attachmentId) := by
  unfold supervisorDisconnected
  split
  · exact .inr (.refl _ _)
  · split
    · exact .inr (.refl _ _)
    · exact .inl rfl

theorem silent_monitorTick {now replacementAt : Nat} {wasRecovering : Bool}
    {workloadId : String} {next : State}
    (ticked : state.monitorTick executionId now replacementAt wasRecovering =
      (.replace workloadId, next)) :
    Silent (some workloadId) state next := by
  unfold monitorTick at ticked
  split at ticked
  · cases ticked
  · dsimp only at ticked
    split at ticked <;> split at ticked <;> cases ticked <;>
      exact silent_setActive

theorem silent_attachSupervisor {hello : Hello} {stored : StoredExecution}
    {attachmentId : String} {locallyOwned : Bool} {next : State}
    (attached : state.attachSupervisor host hello stored attachmentId =
      .ok (locallyOwned, next)) :
    Silent (some stored.workloadId) state next := by
  unfold attachSupervisor at attached
  split at attached
  · cases attached
  split at attached
  · cases attached
  split at attached
  · cases attached
  cases attached
  refine ⟨(sendPending_kept _).1, fun other hother => ?_⟩
  rw [view, (sendPending_kept _).2.1, (sendPending_kept _).2.2]
  exact silent_setActive.2 other hother

theorem announced_recordTerminal {stored : StoredExecution}
    {outcome : StateName} :
    Announced state (state.recordTerminal executionId stored outcome).2 ∨
      Silent none state (state.recordTerminal executionId stored outcome).2 := by
  unfold recordTerminal
  split
  · exact .inr (.refl _ _)
  · exact .inl rfl

theorem announced_recordProgress {stored : StoredExecution}
    {observation : SupervisorObservation} :
    Announced state (state.recordProgress executionId stored observation) ∨
      Silent none state
        (state.recordProgress executionId stored observation) := by
  unfold recordProgress
  split
  · exact .inr (.refl _ _)
  · dsimp only
    split
    · exact .inl rfl
    · split
      · exact .inl rfl
      · exact .inr (.refl _ _)

theorem announced_supervisorTerminal {stored : StoredExecution}
    {result : AttemptResult} {outcome : StateName} {restart : Bool}
    {next : State}
    (removed : state.supervisorTerminal executionId stored result =
      some (outcome, restart, next)) : Announced state next := by
  obtain ⟨active, -, hnext⟩ := Option.map_eq_some_iff.mp removed
  cases hnext
  rfl

theorem announced_completeExecution {outcome : StateName} :
    Announced state (state.completeExecution id executionId outcome).2 := by
  unfold completeExecution
  dsimp only
  split <;> rfl

theorem announced_supervisorLaunching {supervisorProcessId : Nat} :
    Announced state
        (state.supervisorLaunching id executionId supervisorProcessId) ∨
      Silent none state
        (state.supervisorLaunching id executionId supervisorProcessId) := by
  unfold supervisorLaunching
  split
  · exact .inr (.refl _ _)
  · exact .inl rfl

end State

/-! ## Sections -/

section Sections

variable {host : Host} {session : String} {now : Nat} {answer : Answer}
  {situation : Situation} {outcome : Outcome} {task : ManagerTask}

/-- The workload that a section can show otherwise without announcing it. -/
def ManagerTask.silent (host : Host) (now : Nat) (answer : Answer)
    (state : State) : ManagerTask → Option String
  | .monitorTick executionId _ replacementAt wasRecovering =>
      match state.monitorTick executionId now replacementAt wasRecovering with
      | (.replace workloadId, _) => some workloadId
      | _ => none
  | .attachSupervisor hello stored =>
      match state.attachSupervisor host hello stored answer.uuid with
      | .ok (true, _) => some stored.workloadId
      | _ => none
  | _ => none

open State in
theorem startSection_announces {id : String} {expectedKind : WorkloadKind}
    {exclusive : Bool} {enabledManagerSession : Option String}
    {next : List ManagerTask} :
    Announced situation.state
        (startSection host session answer situation id expectedKind exclusive
          enabledManagerSession next).state ∨
      Silent none situation.state
        (startSection host session answer situation id expectedKind exclusive
          enabledManagerSession next).state := by
  rcases startSection_cases host session answer situation id expectedKind
    exclusive enabledManagerSession next with
    hsame | ⟨started, record, accepted, time, creates, hstarted⟩
  · rw [hsame]
    exact .inr (.refl _ _)
  · rw [hstarted]
    refine .inl ?_
    simp only [creates.state]
    rfl

open State in
theorem Section.announces
    (made : Section host session now answer situation task outcome) :
    Announced situation.state outcome.state ∨
      Silent (task.silent host now answer situation.state) situation.state
        outcome.state := by
  cases made with
  | startService | startJob | rerunIdle | replacementStart =>
      exact startSection_announces
  | applyReload => exact .inl announced_applyReload
  | keepReload => exact announced_keepReload
  | setEnabled => exact announced_setEnabled
  | rerunActive => exact announced_cancel
  | monitorReplaces ticked =>
      refine .inr ?_
      simp only [ManagerTask.silent, ticked]
      exact silent_monitorTick ticked
  | terminalRemoved removed => exact .inl (announced_supervisorTerminal removed)
  | attached unused accepted =>
      exact .inl (congrArg (saturatingAdd (2 ^ 64) · 1)
        (silent_attachSupervisor accepted).1)
  | attachedLocally unused accepted =>
      exact .inl (congrArg (saturatingAdd (2 ^ 64) · 1)
        (silent_attachSupervisor accepted).1)
  | attachUnstored unused accepted =>
      refine .inr ?_
      have hsilent := silent_attachSupervisor accepted
      simp only [ManagerTask.silent, accepted]
      exact ⟨hsilent.1, hsilent.2⟩
  | recordTerminal => exact announced_recordTerminal
  | recordProgress => exact announced_recordProgress
  | streamClosed => exact announced_supervisorDisconnected
  | runLaunching => exact announced_supervisorLaunching
  | completeRemoved => exact .inl announced_completeExecution
  | streamForwarded => exact .inr ⟨rfl, fun _ _ => rfl⟩
  | _ => exact .inr (.refl _ _)

open State in
theorem Command.announces (command : Command) :
    Announced situation.state
        (command.perform host session answer situation).state ∨
      Silent none situation.state
        (command.perform host session answer situation).state := by
  cases command with
  | startService | runJob => exact startSection_announces
  | stopService | cancelJob | restartService => exact announced_cancel
  | setEnabled id enabled =>
      refine .inr ?_
      simp only [Command.perform]
      split <;> exact .refl _ _
  | endSession => exact announced_endSession
  | rerunJob | reload => exact .inr (.refl _ _)

/-! ## Steps of the world -/

/-- The workload that a step can show otherwise without announcing it. -/
def World.silent (host : Host) (world : World) : Event → Option String
  | .advance index answer =>
      world.controller.bind fun manager =>
        manager.tasks[index]?.bind fun task =>
          task.silent host world.now answer manager.state
  | _ => none

open State in
theorem World.step_announces {world next : World} {event : Event}
    {manager after : Manager} (before : world.controller = some manager)
    (still : next.controller = some after)
    (moved : World.step host world event = some next) :
    Announced manager.state after.state ∨
      Silent (world.silent host event) manager.state after.state := by
  cases event with
  | elapse millis =>
      cases moved
      cases before.symm.trans still
      exact .inr (.refl _ _)
  | processExited process =>
      cases moved
      cases before.symm.trans still
      exact .inr (.refl _ _)
  | controllerExited =>
      cases moved
      cases still
  | startup session answers =>
      rw [(World.step_startup moved).1] at before
      cases before
  | command command answer =>
      obtain ⟨running, hrunning, -, rfl⟩ := World.step_command moved
      cases before.symm.trans hrunning
      cases still
      exact @Command.announces host manager.session answer
        (world.situation manager) command
  | attach hello answer =>
      obtain ⟨running, hrunning, -, rfl⟩ := World.step_attach moved
      cases before.symm.trans hrunning
      cases still
      exact .inr (.refl _ _)
  | advance index answer =>
      obtain ⟨running, task, outcome, hrunning, htask, hadvanced, rfl⟩ :=
        World.step_advance moved
      cases before.symm.trans hrunning
      cases still
      have hsilent : world.silent host (.advance index answer) =
          task.silent host world.now answer manager.state := by
        simp [World.silent, hrunning, htask]
      rw [hsilent]
      exact (ManagerTask.advance_section hadvanced).announces

end Sections

end Susm.Controller
