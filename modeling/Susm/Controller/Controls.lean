import Susm.Controller.Turns
import Susm.Controller.Occupants

/-!
# Who supervises an active execution

The state of an active execution, whether the controller owns its supervisor
and its last attachment are written by commands, by streams, by the recovery
monitor and by the task that runs a supervisor.  What one section writes is one
case of one relation.
-/

namespace Susm.Controller

open Susm.Foundation
open Susm.Protocol

structure Control where
  executionId : String
  state : StateName
  locallyOwned : Bool
  attachmentId : Option String
  deriving DecidableEq, Repr

def ActiveExecution.control (active : ActiveExecution) : Control where
  executionId := active.executionId
  state := active.state
  locallyOwned := active.locallyOwned
  attachmentId := active.attachmentId

namespace Control

def stopped (control : Control) : Control :=
  { control with state := .stopping }

def detached (control : Control) : Control :=
  { control with attachmentId := none, state := .recovering }

def replaced (control : Control) : Control :=
  { control with locallyOwned := true, state := .starting }

/-- The entry after an accepted supervisor has been found in the table. -/
def attached (attachmentId : String) (stored : StateName)
    (control : Control) : Control :=
  { control with
    state := if control.locallyOwned then .launching else activeState stored
    attachmentId := some attachmentId }

def launched (control : Control) : Control :=
  { control with state := .launching }

end Control

/-- The entry that an attachment's end makes recovering. -/
def EndsAttachment (executionId attachmentId : String) (control : Control) :
    Prop :=
  control.executionId = executionId ∧ control.locallyOwned = false ∧
    control.state ≠ .stopping ∧ control.attachmentId = some attachmentId

namespace State

def control (state : State) (id : String) : Option Control :=
  (state.active.lookup id).map ActiveExecution.control

variable {host : Host} {state : State} {id other executionId : String}

theorem activeId_control (state : State) (id : String) :
    state.activeId id = (state.control id).map Control.executionId := by
  rw [control, Option.map_map]
  rfl

theorem control_congr {first second : State}
    (h : first.active = second.active) :
    first.control id = second.control id := by
  rw [control, control, h]

@[simp] theorem control_bump : state.bump.control id = state.control id := rfl

@[simp] theorem control_setLastOutcome {outcome : StateName} :
    (state.setLastOutcome other outcome).control id = state.control id := rfl

theorem control_setActive (active : ActiveExecution) :
    (state.setActive id active).control other =
      if other = id then some active.control else state.control other := by
  simp only [control, setActive, Map.lookup_insert_eq]
  split <;> rfl

theorem control_removeActive :
    (state.removeActive id).control other =
      if other = id then none else state.control other := by
  simp only [control, removeActive, Map.lookup_erase_eq]
  split <;> rfl

theorem control_mapValues
    {change : String → ActiveExecution → ActiveExecution}
    {written : Control → Control}
    (same : ∀ id active,
      (change id active).control = written active.control) :
    State.control { state with active := state.active.mapValues change } id =
      (state.control id).map written := by
  simp only [control, Map.lookup_mapValues, Option.map_map]
  congr 1
  funext active
  exact same id active

/-- One entry is written, and all others stay. -/
def Writes (before after : State) (id : String)
    (written : Control → Control) : Prop :=
  ∃ control, before.control id = some control ∧
    after.control id = some (written control) ∧
    ∀ other, other ≠ id → after.control other = before.control other

theorem Writes.cases {before after : State} {written : Control → Control}
    {control changed : Control} (writes : Writes before after id written)
    (hbefore : before.control other = some control)
    (hafter : after.control other = some changed) :
    changed = control ∨ (other = id ∧ changed = written control) := by
  obtain ⟨entry, hentry, hwritten, hothers⟩ := writes
  by_cases hother : other = id
  · subst hother
    cases hentry.symm.trans hbefore
    exact .inr ⟨rfl, Option.some.inj (hafter.symm.trans hwritten)⟩
  · have hsame := (hothers other hother).symm.trans hafter
    exact .inl (Option.some.inj (hsame.symm.trans hbefore))

theorem writes_setActive {active changed : ActiveExecution}
    {written : Control → Control}
    (found : state.active.lookup id = some active)
    (h : changed.control = written active.control) :
    Writes state (state.setActive id changed) id written := by
  refine ⟨active.control, by simp [control, found], ?_, ?_⟩
  · rw [control_setActive, if_pos rfl, h]
  · intro other hother
    rw [control_setActive, if_neg hother]

/-! ## Commands and reloads -/

def isKind (state : State) (id : String) (kind : WorkloadKind) : Bool :=
  (state.workloads.lookup id).any (·.kind = kind)

theorem control_cancel {expectedKind : WorkloadKind} {restartAfter : Bool} :
    let after := (state.cancel id expectedKind restartAfter).2
    (∀ other, after.control other = state.control other) ∨
      (state.isKind id expectedKind = true ∧
        Writes state after id Control.stopped) := by
  intro after
  simp only [after]
  unfold cancel
  split
  · exact .inl fun _ => rfl
  rename_i record hrecord
  split
  · exact .inl fun _ => rfl
  rename_i hkind
  split
  · exact .inl fun _ => rfl
  · rename_i active hactive
    refine .inr ⟨?_, writes_setActive hactive rfl⟩
    simp only [isKind, hrecord, Option.any_some, decide_eq_true_eq]
    by_contra hother
    simp [ensureKind, hother] at hkind

theorem control_cancel_accepted {expectedKind : WorkloadKind}
    {restartAfter : Bool} {view : Workload}
    (accepted : (state.cancel id expectedKind restartAfter).1 =
      .ok (true, view)) :
    Writes state (state.cancel id expectedKind restartAfter).2 id
      Control.stopped := by
  unfold cancel at accepted ⊢
  split at accepted
  · cases accepted
  split at accepted
  · cases accepted
  split at accepted
  · cases accepted
  · rename_i active hactive
    exact writes_setActive hactive rfl

theorem control_endSession (state : State) (id : String) :
    state.endSession.control id =
      if state.sessionEnding then state.control id
      else (state.control id).map Control.stopped := by
  unfold endSession
  split
  · rfl
  · rw [control_bump, control_congr
      (foldl_same State.active (by intro state entry; rfl)
        state.active.toList _)]
    exact control_mapValues fun _ _ => rfl

@[simp] theorem control_setEnabled {enabled changed : Bool} :
    (state.setEnabled other enabled changed).2.control id =
      state.control id := by
  unfold setEnabled
  split
  · rfl
  · cases changed <;> rfl

theorem control_reconcileReload :
    (reconcileReload host state).2.control id = state.control id := by
  unfold reconcileReload
  dsimp only
  rw [control_congr
    (foldl_same State.active (fun state entry => sendPending_active entry)
      _ _)]
  refine (@control_mapValues state id _ (fun control => control) ?_).trans ?_
  · intro id active
    unfold reconcileActive
    split <;> rfl
  · cases state.control id <;> rfl

@[simp] theorem control_applyReload
    {persisted : List (String × StoredWorkload)} :
    (state.applyReload host persisted).control id = state.control id := by
  unfold applyReload
  rw [control_bump, control_reconcileReload]
  refine control_congr (foldl_same State.active ?_ persisted state)
  intro state item
  rfl

@[simp] theorem control_keepReload :
    (state.keepReload host).control id = state.control id := by
  have hreload : (reconcileReload host state).2.control id =
      state.control id := control_reconcileReload
  unfold keepReload
  split
  · rename_i next hnext
    rw [hnext] at hreload
    exact hreload
  · rename_i next hnext
    rw [hnext] at hreload
    exact hreload

/-! ## Supervisors -/

theorem control_supervisorDisconnected {attachmentId : String} :
    let after := state.supervisorDisconnected executionId attachmentId
    (∀ other, after.control other = state.control other) ∨
      ∃ id control, state.control id = some control ∧
        EndsAttachment executionId attachmentId control ∧
        Writes state after id Control.detached := by
  intro after
  simp only [after]
  unfold supervisorDisconnected
  split
  · exact .inl fun _ => rfl
  rename_i id active hfound
  obtain ⟨hlookup, hid⟩ := Map.findEntry_some hfound
  split
  · exact .inl fun _ => rfl
  · rename_i hgoes
    simp only [not_or, Bool.not_eq_true, ne_eq, not_not] at hgoes
    refine .inr ⟨id, active.control, by simp [control, hlookup],
      ⟨of_decide_eq_true hid, hgoes⟩, ?_⟩
    exact writes_setActive hlookup rfl

/-- The monitor leaves the state as it is, or takes over an execution that it
finds recovering. -/
theorem control_monitorTick {now replacementAt : Nat} {wasRecovering : Bool}
    {tick : MonitorTick} {next : State}
    (ticked : state.monitorTick executionId now replacementAt wasRecovering =
      (tick, next)) :
    (next = state ∧ ∀ id, tick ≠ .replace id) ∨
      ∃ id control, tick = .replace id ∧ state.control id = some control ∧
        control.executionId = executionId ∧ control.state = .recovering ∧
        Writes state next id Control.replaced := by
  unfold monitorTick at ticked
  split at ticked
  · cases ticked
    exact .inl ⟨rfl, nofun⟩
  rename_i id active hfound
  obtain ⟨hlookup, hid⟩ := Map.findEntry_some hfound
  dsimp only at ticked
  have replaced : active.state = .recovering →
      tick = .replace id → next = state.setActive id
        { active with locallyOwned := true, state := .starting } →
      ∃ id control, tick = .replace id ∧ state.control id = some control ∧
        control.executionId = executionId ∧ control.state = .recovering ∧
        Writes state next id Control.replaced := by
    rintro hrecovering rfl rfl
    exact ⟨id, active.control, rfl, by simp [control, hlookup],
      of_decide_eq_true hid, hrecovering, writes_setActive hlookup rfl⟩
  split at ticked <;> split at ticked
  · rename_i hdue
    cases ticked
    exact .inr (replaced (of_decide_eq_true hdue.1) rfl rfl)
  · cases ticked
    exact .inl ⟨rfl, nofun⟩
  · rename_i hdue
    cases ticked
    exact .inr (replaced (of_decide_eq_true hdue.1) rfl rfl)
  · cases ticked
    exact .inl ⟨rfl, nofun⟩

theorem control_attachSupervisor {hello : Hello} {stored : StoredExecution}
    {attachmentId : String} {locallyOwned : Bool} {next : State}
    (attached : state.attachSupervisor host hello stored attachmentId =
      .ok (locallyOwned, next)) :
    state.activeId stored.workloadId = some hello.executionId ∧
      Writes state next stored.workloadId
        (Control.attached attachmentId stored.state) := by
  unfold attachSupervisor at attached
  split at attached
  · cases attached
  rename_i active hentry
  obtain ⟨hlookup, hid⟩ := entry_eq_some.mp hentry
  refine ⟨activeId_eq_some.mpr ⟨active, hlookup, hid⟩, ?_⟩
  split at attached
  · cases attached
  split at attached
  · cases attached
  obtain ⟨-, rfl⟩ := Prod.mk.inj (Except.ok.inj attached)
  obtain ⟨control, hbefore, hafter, hothers⟩ :=
    @writes_setActive state stored.workloadId active
      (if active.locallyOwned = true then
        { active with
          supervisorProcessId := hello.supervisorProcessId
          state := .launching
          attachmentId := some attachmentId }
      else
        { active with
          supervisorProcessId := hello.supervisorProcessId
          state := activeState stored.state
          workloadProcessId := stored.workloadProcessId
          attempt := stored.attempt
          error := stored.error
          attachmentId := some attachmentId })
      (Control.attached attachmentId stored.state) hlookup (by
        unfold ActiveExecution.control Control.attached
        cases active.locallyOwned <;> rfl)
  refine ⟨control, hbefore, ?_, fun other hother => ?_⟩
  · rw [control_congr (sendPending_active _)]
    exact hafter
  · rw [control_congr (sendPending_active _)]
    exact hothers other hother

theorem writes_recordProgress {stored : StoredExecution}
    {observation : SupervisorObservation} {progress : ProgressObservation}
    {active : ActiveExecution}
    (found : state.entry stored.workloadId executionId = some active)
    (observed : progressObservation observation = some progress) :
    Writes state (state.recordProgress executionId stored observation)
      stored.workloadId fun control =>
        { control with state := progress.state } := by
  simp only [recordProgress, found, observed]
  refine writes_setActive (entry_eq_some.mp found).1 ?_
  split <;> rfl

theorem control_recordProgress {stored : StoredExecution}
    {observation : SupervisorObservation} :
    let after := state.recordProgress executionId stored observation
    (∀ other, after.control other = state.control other) ∨
      ∃ progress, progressObservation observation = some progress ∧
        state.activeId stored.workloadId = some executionId ∧
        Writes state after stored.workloadId
          fun control => { control with state := progress.state } := by
  intro after
  cases hentry : state.entry stored.workloadId executionId with
  | none =>
      left
      simp [after, recordProgress, hentry]
  | some active =>
      obtain ⟨hlookup, hid⟩ := entry_eq_some.mp hentry
      cases hprogress : progressObservation observation with
      | some progress =>
          exact .inr ⟨progress, rfl, activeId_eq_some.mpr
            ⟨active, hlookup, hid⟩, writes_recordProgress hentry hprogress⟩
      | none =>
          left
          intro other
          simp only [after, recordProgress, hentry, hprogress]
          split
          · rw [control_bump, control_setActive]
            split
            · subst other
              simp [control, hlookup, ActiveExecution.control]
            · rfl
          · rfl

theorem writes_supervisorLaunching {supervisorProcessId : Nat}
    {active : ActiveExecution}
    (found : state.entry id executionId = some active) :
    Writes state (state.supervisorLaunching id executionId
      supervisorProcessId) id Control.launched := by
  simp only [supervisorLaunching, found]
  exact writes_setActive (entry_eq_some.mp found).1 rfl

theorem control_supervisorLaunching {supervisorProcessId : Nat} :
    let after := state.supervisorLaunching id executionId supervisorProcessId
    (∀ other, after.control other = state.control other) ∨
      (state.activeId id = some executionId ∧
        Writes state after id Control.launched) := by
  intro after
  cases hentry : state.entry id executionId with
  | none =>
      left
      simp [after, supervisorLaunching, hentry]
  | some active =>
      exact .inr ⟨activeId_eq_some.mpr ⟨active, entry_eq_some.mp hentry⟩,
        writes_supervisorLaunching hentry⟩

/-! ## The end of an execution -/

/-- One entry is removed, and all others stay. -/
def Clears (before after : State) (id executionId : String) : Prop :=
  before.activeId id = some executionId ∧ after.control id = none ∧
    ∀ other, other ≠ id → after.control other = before.control other

theorem clears_removeActive {active : ActiveExecution} {outcome : StateName}
    (found : state.entry id executionId = some active) :
    Clears state ((state.removeActive id).setLastOutcome id outcome).bump id
      executionId := by
  refine ⟨activeId_eq_some.mpr ⟨active, entry_eq_some.mp found⟩, ?_, ?_⟩
  · simp [control_removeActive]
  · intro other hother
    simp [control_removeActive, hother]

theorem control_recordTerminal {stored : StoredExecution}
    {outcome : StateName} :
    let after := (state.recordTerminal executionId stored outcome).2
    (∀ other, after.control other = state.control other) ∨
      Clears state after stored.workloadId executionId := by
  intro after
  simp only [after]
  unfold recordTerminal
  split
  · exact .inl fun _ => rfl
  · rename_i hentry
    exact .inr (clears_removeActive hentry)

theorem control_supervisorTerminal {stored : StoredExecution}
    {result : AttemptResult} {outcome : StateName} {restart : Bool}
    {next : State}
    (removed : state.supervisorTerminal executionId stored result =
      some (outcome, restart, next)) :
    Clears state next stored.workloadId executionId := by
  obtain ⟨active, hfilter, hnext⟩ := Option.map_eq_some_iff.mp removed
  cases hnext
  exact clears_removeActive (Option.filter_eq_some_iff.mp hfilter).1

theorem control_completeExecution {outcome : StateName} :
    let after := (state.completeExecution id executionId outcome).2
    (∀ other, after.control other = state.control other) ∨
      Clears state after id executionId := by
  intro after
  simp only [after]
  unfold completeExecution
  dsimp only
  split
  · rename_i hsome
    obtain ⟨active, hentry⟩ := Option.isSome_iff_exists.mp hsome
    exact .inr (clears_removeActive hentry)
  · exact .inl fun _ => rfl

end State

/-! ## Sections -/

def startingControl (executionId : String) : Control where
  executionId := executionId
  state := .starting
  locallyOwned := true
  attachmentId := none

/-- An execution is started with an identifier that no row has. -/
structure StartsControl (answer : Answer) (situation : Situation)
    (after : State) (id : String) : Prop where
  idle : situation.state.control id = none
  unused : situation.database.executions.lookup answer.uuid = none
  written : after.control id = some (startingControl answer.uuid)
  others : ∀ other, other ≠ id →
    after.control other = situation.state.control other

/-- What a section writes. -/
inductive ControlAfter (host : Host) (answer : Answer) (situation : Situation)
    (after : State) : ManagerTask → Prop where
  | kept {task : ManagerTask}
      (same : ∀ id, after.control id = situation.state.control id) :
      ControlAfter host answer situation after task
  | started {task : ManagerTask} {id : String}
      (starts : StartsControl answer situation after id) :
      ControlAfter host answer situation after task
  | removed {task : ManagerTask} {id executionId : String}
      (removes : task.removes = some (id, executionId))
      (clears : State.Clears situation.state after id executionId) :
      ControlAfter host answer situation after task
  | stopped {id : String} (kind : situation.state.isKind id .job = true)
      (writes : State.Writes situation.state after id Control.stopped) :
      ControlAfter host answer situation after (.rerunJob id true)
  | detached {attachmentId executionId id : String} {control : Control}
      (found : situation.state.control id = some control)
      (ends : EndsAttachment executionId attachmentId control)
      (writes : State.Writes situation.state after id Control.detached) :
      ControlAfter host answer situation after
        (.streamClosed attachmentId executionId)
  | replaced {executionId id : String} {stored : StoredExecution}
      {replacementAt : Nat} {wasRecovering : Bool} {control : Control}
      (found : situation.state.control id = some control)
      (about : control.executionId = executionId)
      (recovering : control.state = .recovering)
      (writes : State.Writes situation.state after id Control.replaced) :
      ControlAfter host answer situation after
        (.monitorTick executionId stored replacementAt wasRecovering)
  | attached {hello : Hello} {stored : StoredExecution}
      (accepted : ∃ result, situation.state.attachSupervisor host hello stored
        answer.uuid = .ok result)
      (active : situation.state.activeId stored.workloadId =
        some hello.executionId)
      (writes : State.Writes situation.state after stored.workloadId
        (Control.attached answer.uuid stored.state)) :
      ControlAfter host answer situation after (.attachSupervisor hello stored)
  | progressed {attachmentId executionId : String} {stored : StoredExecution}
      {observation : SupervisorObservation} {progress : ProgressObservation}
      (observed : progressObservation observation = some progress)
      (active : situation.state.activeId stored.workloadId = some executionId)
      (writes : State.Writes situation.state after stored.workloadId
        fun control => { control with state := progress.state }) :
      ControlAfter host answer situation after
        (.recordProgress attachmentId executionId stored observation)
  | launched {run : RunExecution} {process : Nat}
      (active : situation.state.activeId run.workloadId =
        some run.executionId)
      (writes : State.Writes situation.state after run.workloadId
        Control.launched) :
      ControlAfter host answer situation after (.runLaunching run process)

section Sections

variable {host : Host} {session : String} {now : Nat} {answer : Answer}
  {situation : Situation} {outcome : Outcome}

theorem startSection_control {task : ManagerTask} {id : String}
    {expectedKind : WorkloadKind} {exclusive : Bool}
    {enabledManagerSession : Option String} {next : List ManagerTask} :
    ControlAfter host answer situation
      (startSection host session answer situation id expectedKind exclusive
        enabledManagerSession next).state task := by
  rcases startSection_cases host session answer situation id expectedKind
    exclusive enabledManagerSession next with
    hsame | ⟨started, record, accepted, time, creates, hstarted⟩
  · rw [hsame]
    exact .kept fun _ => rfl
  · rw [hstarted]
    dsimp only
    rw [creates.state]
    refine @ControlAfter.started _ _ _ _ _ id ⟨?_, creates.unused, ?_, ?_⟩
    · simp [State.control, creates.idle]
    · rw [State.control_bump, State.control_setActive, if_pos rfl]
      rfl
    · intro other hother
      rw [State.control_bump, State.control_setActive, if_neg hother]

theorem Section.control {task : ManagerTask}
    (made : Section host session now answer situation task outcome) :
    ControlAfter host answer situation outcome.state task := by
  cases made with
  | startService | startJob | rerunIdle | replacementStart =>
      exact startSection_control
  | rerunActive =>
      rcases State.control_cancel with hsame | ⟨hkind, hwrites⟩
      · exact .kept hsame
      · exact .stopped hkind hwrites
  | monitorReplaces ticked =>
      rcases State.control_monitorTick ticked with
        ⟨-, hnone⟩ | ⟨id, control, -, hfound, habout, hrecovering, hwrites⟩
      · exact absurd rfl (hnone _)
      · exact .replaced hfound habout hrecovering hwrites
  | attached unused accepted =>
      obtain ⟨hactive, hwrites⟩ := State.control_attachSupervisor accepted
      exact .attached ⟨_, accepted⟩ hactive hwrites
  | attachedLocally unused accepted =>
      obtain ⟨hactive, hwrites⟩ := State.control_attachSupervisor accepted
      exact .attached ⟨_, accepted⟩ hactive hwrites
  | attachUnstored unused accepted =>
      obtain ⟨hactive, hwrites⟩ := State.control_attachSupervisor accepted
      exact .attached ⟨_, accepted⟩ hactive hwrites
  | terminalRemoved removed =>
      exact .removed rfl (State.control_supervisorTerminal removed)
  | recordTerminal =>
      rcases State.control_recordTerminal with hsame | hclears
      · exact .kept hsame
      · exact .removed rfl hclears
  | completeRemoved =>
      rcases State.control_completeExecution with hsame | hclears
      · exact .kept hsame
      · exact .removed rfl hclears
  | recordProgress =>
      rcases State.control_recordProgress with
        hsame | ⟨progress, hprogress, hactive, hwrites⟩
      · exact .kept hsame
      · exact .progressed hprogress hactive hwrites
  | runLaunching =>
      rcases State.control_supervisorLaunching with hsame | ⟨hactive, hwrites⟩
      · exact .kept hsame
      · exact .launched hactive hwrites
  | streamClosed =>
      rcases State.control_supervisorDisconnected with
        hsame | ⟨id, control, hfound, hends, hwrites⟩
      · exact .kept hsame
      · exact .detached hfound hends hwrites
  | applyReload => exact .kept fun _ => State.control_applyReload
  | keepReload => exact .kept fun _ => State.control_keepReload
  | setEnabled => exact .kept fun _ => State.control_setEnabled
  | _ => exact .kept fun _ => rfl

/-- The workload that a command cancels, as which kind, and whether it is to be
started again. -/
def Command.cancels : Command → Option (String × WorkloadKind × Bool)
  | .stopService id => some (id, .service, false)
  | .cancelJob id => some (id, .job, false)
  | .restartService id => some (id, .service, true)
  | _ => none

/-- A command writes nothing, starts an execution, stops one or ends the
session. -/
theorem Command.control (command : Command) :
    let after := (command.perform host session answer situation).state
    (∀ id, after.control id = situation.state.control id) ∨
      (∃ id, StartsControl answer situation after id) ∨
      (∃ id kind restartAfter, command.cancels = some (id, kind, restartAfter) ∧
        situation.state.isKind id kind = true ∧
        State.Writes situation.state after id Control.stopped) ∨
      (command = .endSession ∧ situation.state.sessionEnding = false ∧
        ∀ id, after.control id =
          (situation.state.control id).map Control.stopped) := by
  intro after
  have started : ∀ id kind exclusive,
      after = (startSection host session answer situation id kind exclusive
        none []).state →
      (∀ id, after.control id = situation.state.control id) ∨
        ∃ id, StartsControl answer situation after id := by
    intro id kind exclusive hafter
    rw [hafter]
    cases @startSection_control host session answer situation .startEnabled id
      kind exclusive none [] with
    | kept same => exact .inl same
    | started starts => exact .inr ⟨_, starts⟩
    | removed removes => cases removes
  cases command with
  | startService id =>
      rcases started id .service false rfl with h | h
      · exact .inl h
      · exact .inr (.inl h)
  | runJob id =>
      rcases started id .job true rfl with h | h
      · exact .inl h
      · exact .inr (.inl h)
  | stopService id | cancelJob id | restartService id =>
      rcases State.control_cancel with hsame | ⟨hkind, hwrites⟩
      · exact .inl hsame
      · exact .inr (.inr (.inl ⟨id, _, _, rfl, hkind, hwrites⟩))
  | setEnabled id enabled =>
      refine .inl fun id => ?_
      simp only [after, Command.perform]
      split <;> rfl
  | endSession =>
      have hends := State.control_endSession situation.state
      by_cases hending : situation.state.sessionEnding = true
      · exact .inl fun id => (hends id).trans (if_pos hending)
      · exact .inr (.inr (.inr ⟨rfl, by simpa using hending,
          fun id => (hends id).trans (if_neg hending)⟩))
  | rerunJob id | reload => exact .inl fun _ => rfl

end Sections

end Susm.Controller
