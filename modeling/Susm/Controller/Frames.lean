import Susm.Controller.Occupants

/-!
# What sections leave alone

Most sections change the active executions, the receivers and the last
outcomes.  The cancelled tokens, the end of the session and what is accepted of
the workloads are changed by few of them, which are told apart here.
-/

namespace Susm.Controller

open Susm.Foundation
open Susm.Protocol

namespace State

def configured (state : State) (id : String) :
    Option (WorkloadKind × Option ExecutionConfiguration × Bool) :=
  (state.workloads.lookup id).map fun record =>
    (record.kind, record.definition, record.enabled)

def frame (state : State) : List String × Bool × (String →
    Option (WorkloadKind × Option ExecutionConfiguration × Bool)) :=
  (state.cancelled, state.sessionEnding, state.configured)

variable {host : Host} {state : State} {id executionId : String}

@[simp] theorem frame_bump : state.bump.frame = state.frame := rfl

@[simp] theorem frame_setActive {active : ActiveExecution} :
    (state.setActive id active).frame = state.frame := rfl

@[simp] theorem frame_removeActive :
    (state.removeActive id).frame = state.frame := rfl

@[simp] theorem frame_dropReceiver :
    (state.dropReceiver id).frame = state.frame := rfl

@[simp] theorem configured_setLastOutcome (other : String)
    {outcome : StateName} :
    (state.setLastOutcome id outcome).configured other =
      state.configured other := by
  simp only [configured, setLastOutcome, Map.lookup_modify]
  split
  · cases state.workloads.lookup other <;> rfl
  · rfl

@[simp] theorem frame_setLastOutcome {outcome : StateName} :
    (state.setLastOutcome id outcome).frame = state.frame := by
  simp only [frame, setLastOutcome, Prod.mk.injEq, true_and]
  funext other
  exact configured_setLastOutcome other

@[simp] theorem frame_sendPending {entry : String × ActiveExecution} :
    (sendPending host state entry).frame = state.frame := by
  unfold sendPending
  split
  · rfl
  · split <;> rfl

@[simp] theorem frame_reconcileReload :
    (reconcileReload host state).2.frame = state.frame :=
  foldl_same State.frame (fun _ _ => frame_sendPending) _ _

@[simp] theorem frame_keepReload :
    (state.keepReload host).frame = state.frame := by
  have hreload : (reconcileReload host state).2.frame = state.frame :=
    frame_reconcileReload
  unfold keepReload
  split
  · rename_i next hnext
    rw [hnext] at hreload
    exact hreload
  · rename_i next hnext
    rw [hnext] at hreload
    exact hreload

@[simp] theorem frame_supervisorDisconnected {attachmentId : String} :
    (state.supervisorDisconnected executionId attachmentId).frame =
      state.frame := by
  unfold supervisorDisconnected
  split
  · rfl
  · split <;> rfl

theorem frame_monitorTick {now replacementAt : Nat} {wasRecovering : Bool}
    {tick : MonitorTick} {next : State}
    (ticked : state.monitorTick executionId now replacementAt wasRecovering =
      (tick, next)) : next.frame = state.frame := by
  unfold monitorTick at ticked
  split at ticked
  · cases ticked
    rfl
  · dsimp only at ticked
    split at ticked <;> split at ticked <;> cases ticked <;> rfl

theorem frame_attachSupervisor {hello : Hello} {stored : StoredExecution}
    {attachmentId : String} {locallyOwned : Bool} {next : State}
    (attached : state.attachSupervisor host hello stored attachmentId =
      .ok (locallyOwned, next)) : next.frame = state.frame := by
  unfold attachSupervisor at attached
  split at attached
  · cases attached
  split at attached
  · cases attached
  split at attached
  · cases attached
  cases attached
  exact frame_sendPending

@[simp] theorem frame_recordTerminal {stored : StoredExecution}
    {outcome : StateName} :
    (state.recordTerminal executionId stored outcome).2.frame =
      state.frame := by
  unfold recordTerminal
  split <;> simp

@[simp] theorem frame_recordProgress {stored : StoredExecution}
    {observation : SupervisorObservation} :
    (state.recordProgress executionId stored observation).frame =
      state.frame := by
  unfold recordProgress
  split
  · rfl
  · dsimp only
    split
    · rfl
    · split <;> rfl

theorem frame_supervisorTerminal {stored : StoredExecution}
    {result : AttemptResult} {outcome : StateName} {restart : Bool}
    {next : State}
    (removed : state.supervisorTerminal executionId stored result =
      some (outcome, restart, next)) : next.frame = state.frame := by
  obtain ⟨active, -, hnext⟩ := Option.map_eq_some_iff.mp removed
  cases hnext
  simp

@[simp] theorem frame_completeExecution {outcome : StateName} :
    (state.completeExecution id executionId outcome).2.frame =
      state.frame := by
  unfold completeExecution
  dsimp only
  split <;> simp

@[simp] theorem frame_supervisorLaunching {supervisorProcessId : Nat} :
    (state.supervisorLaunching id executionId supervisorProcessId).frame =
      state.frame := by
  unfold supervisorLaunching
  split <;> rfl

/-! ## The sections that change it -/

theorem configured_cancel {other : String} {expectedKind : WorkloadKind}
    {restartAfter : Bool} :
    (state.cancel id expectedKind restartAfter).2.configured other =
      state.configured other := by
  unfold cancel
  split
  · rfl
  split
  · rfl
  split <;> rfl

theorem configured_endSession {other : String} :
    state.endSession.configured other = state.configured other := by
  unfold endSession
  split
  · rfl
  · refine foldl_same (fun state => State.configured state other) ?_
      state.active.toList _
    intro state entry
    rfl

theorem configured_setEnabled {other : String} {enabled changed : Bool} :
    (state.setEnabled id enabled changed).2.configured other =
      (state.configured other).map fun accepted =>
        if changed = true ∧ other = id then
          (accepted.1, accepted.2.1, enabled)
        else accepted := by
  unfold setEnabled
  cases hfound : state.workloads.lookup id with
  | none =>
      by_cases h : other = id
      · subst h
        simp [configured, hfound]
      · simp [h]
  | some record =>
      cases changed with
      | false => simp
      | true =>
          by_cases h : other = id
          · subst h
            simp [configured, bump, hfound]
          · simp [configured, bump, h, Function.comp_def]

theorem configured_applyReload {other : String}
    {persisted : List (String × StoredWorkload)} :
    (state.applyReload host persisted).configured other =
      (persisted.foldl insertWorkload state).configured other := by
  have hreload : (reconcileReload host
      (persisted.foldl insertWorkload state)).2.frame =
        (persisted.foldl insertWorkload state).frame := frame_reconcileReload
  exact congrFun (congrArg (fun frame => frame.2.2) hreload) other

theorem configured_installed {persisted : List (String × StoredWorkload)}
    {other : String}
    {accepted : WorkloadKind × Option ExecutionConfiguration × Bool}
    (h : (persisted.foldl insertWorkload state).configured other =
      some accepted) :
    state.configured other = some accepted ∨
      ∃ item ∈ persisted, item.1 = other ∧ item.2.configured = accepted := by
  induction persisted generalizing state with
  | nil => exact .inl h
  | cons item persisted ih =>
      rcases ih h with hbefore | ⟨last, hlast, hitem⟩
      · simp only [configured, insertWorkload, Map.lookup_insert_eq] at hbefore
        split at hbefore
        · rename_i hid
          exact .inr ⟨item, List.mem_cons_self, hid.symm,
            Option.some.inj hbefore⟩
        · exact .inl hbefore
      · exact .inr ⟨last, List.mem_cons_of_mem _ hlast, hitem⟩

theorem configured_kept {persisted : List (String × StoredWorkload)}
    {other : String} (h : (state.configured other).isSome) :
    ((persisted.foldl insertWorkload state).configured other).isSome := by
  induction persisted generalizing state with
  | nil => exact h
  | cons item persisted ih =>
      refine ih ?_
      simp only [configured, insertWorkload, Map.lookup_insert_eq] at h ⊢
      split
      · rfl
      · exact h

end State

/-! ## Sections -/

section Sections

variable {host : Host} {session : String} {now : Nat} {answer : Answer}
  {situation : Situation} {outcome : Outcome} {task : ManagerTask}

theorem startSection_frame {id : String} {expectedKind : WorkloadKind}
    {exclusive : Bool} {enabledManagerSession : Option String}
    {next : List ManagerTask} :
    (startSection host session answer situation id expectedKind exclusive
      enabledManagerSession next).state.frame = situation.state.frame := by
  rcases startSection_cases host session answer situation id expectedKind
    exclusive enabledManagerSession next with
    hsame | ⟨started, record, accepted, time, creates, hstarted⟩
  · exact congrArg (fun outcome => outcome.state.frame) hsame
  · rw [hstarted]
    dsimp only
    rw [creates.state]
    rfl

/-- The sections of tasks that do not leave the frame alone. -/
inductive FrameAfter (host : Host) (task : ManagerTask)
    (state after : State) : Prop where
  | kept (same : after.frame = state.frame)
  | cancelled {id : String} (reruns : task = .rerunJob id true)
      (stops : after = (state.cancel id .job true).2)
  | enabled {id : String} {enabled changed : Bool}
      (sets : task = .setEnabled id enabled changed)
      (result : after = (state.setEnabled id enabled changed).2)
  | installed {persisted : List (String × StoredWorkload)} {caller : Caller}
      (reloads : task = .applyReload persisted caller)
      (result : after = state.applyReload host persisted)

theorem Section.frame
    (made : Section host session now answer situation task outcome) :
    FrameAfter host task situation.state outcome.state := by
  cases made with
  | startService | startJob | rerunIdle | replacementStart =>
      exact .kept startSection_frame
  | rerunActive => exact .cancelled rfl rfl
  | setEnabled => exact .enabled rfl rfl
  | applyReload => exact .installed rfl rfl
  | monitorReplaces ticked => exact .kept (State.frame_monitorTick ticked)
  | attached unused accepted =>
      have hsame := State.frame_attachSupervisor accepted
      exact .kept hsame
  | attachedLocally unused accepted =>
      have hsame := State.frame_attachSupervisor accepted
      exact .kept hsame
  | attachUnstored unused accepted =>
      have hsame := State.frame_attachSupervisor accepted
      exact .kept hsame
  | terminalRemoved removed =>
      exact .kept (State.frame_supervisorTerminal removed)
  | recordTerminal => exact .kept State.frame_recordTerminal
  | completeRemoved => exact .kept State.frame_completeExecution
  | keepReload => exact .kept State.frame_keepReload
  | recordProgress => exact .kept State.frame_recordProgress
  | runLaunching => exact .kept State.frame_supervisorLaunching
  | streamClosed => exact .kept State.frame_supervisorDisconnected
  | _ => exact .kept rfl

theorem Section.configured
    (made : Section host session now answer situation task outcome)
    (other : String) :
    outcome.state.configured other = situation.state.configured other ∨
      (∃ id enabled, task = .setEnabled id enabled true ∧
        outcome.state.configured other =
          (situation.state.configured other).map fun accepted =>
            if other = id then (accepted.1, accepted.2.1, enabled)
            else accepted) ∨
      ∃ persisted caller, task = .applyReload persisted caller ∧
        outcome.state.configured other =
          (persisted.foldl State.insertWorkload
            situation.state).configured other := by
  cases made.frame with
  | kept same =>
      exact .inl (congrFun (congrArg (fun frame => frame.2.2) same) other)
  | cancelled reruns stops =>
      rw [stops]
      exact .inl State.configured_cancel
  | @enabled id enabled changed sets result =>
      rw [result, State.configured_setEnabled]
      cases changed with
      | false => simp
      | true => exact .inr (.inl ⟨id, enabled, sets, by simp⟩)
  | installed reloads result =>
      rw [result]
      exact .inr (.inr ⟨_, _, reloads, State.configured_applyReload⟩)

theorem Command.frame (host : Host) (session : String) (answer : Answer)
    (situation : Situation) (command : Command) :
    let after := (command.perform host session answer situation).state
    after.frame = situation.state.frame ∨
      (∃ id kind restartAfter,
        after = (situation.state.cancel id kind restartAfter).2) ∨
      after = situation.state.endSession := by
  intro after
  cases command with
  | startService | runJob => exact .inl startSection_frame
  | stopService | cancelJob | restartService =>
      exact .inr (.inl ⟨_, _, _, rfl⟩)
  | setEnabled id enabled =>
      refine .inl ?_
      simp only [after, Command.perform]
      split <;> rfl
  | endSession => exact .inr (.inr rfl)
  | _ => exact .inl rfl

theorem Command.configured (command : Command) (other : String) :
    (command.perform host session answer situation).state.configured other =
      situation.state.configured other := by
  rcases Command.frame host session answer situation command with
    hsame | ⟨id, kind, restartAfter, hstate⟩ | hstate
  · exact congrFun (congrArg (fun frame => frame.2.2) hsame) other
  · rw [hstate]
    exact State.configured_cancel
  · rw [hstate]
    exact State.configured_endSession

end Sections

end Susm.Controller
