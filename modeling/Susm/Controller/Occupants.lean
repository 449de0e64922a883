import Susm.Controller.Turns

/-!
# Occupants of workloads

Which execution a workload has, and whether it is to be replaced.  Most sections
leave this as it is; a start fills an empty place, the three ends of an execution
empty it, and only a cancellation or the end of the session touches the flag.
-/

namespace Susm.Controller

open Susm.Foundation
open Susm.Protocol

namespace ActiveExecution

def occupant (active : ActiveExecution) : String × Bool :=
  (active.executionId, active.restartAfter)

end ActiveExecution

namespace State

/-- The execution of a workload, and whether it is to be replaced. -/
def occupant (state : State) (id : String) : Option (String × Bool) :=
  (state.active.lookup id).map ActiveExecution.occupant

def activeId (state : State) (id : String) : Option String :=
  (state.active.lookup id).map ActiveExecution.executionId

/-- A workload that could be started: nothing of it runs, it has a definition,
and the session goes on. -/
def startable (state : State) (id : String) : Bool :=
  !state.sessionEnding && (state.definition id).isSome &&
    (state.activeId id).isNone

theorem startable_idle {state : State} {id : String}
    (h : state.startable id = true) : state.activeId id = none := by
  simp [startable] at h
  exact h.2

theorem activeId_eq (state : State) (id : String) :
    state.activeId id = (state.occupant id).map Prod.fst := by
  unfold activeId occupant
  cases state.active.lookup id <;> rfl

theorem activeId_congr {first second : State} {id : String}
    (h : first.occupant id = second.occupant id) :
    first.activeId id = second.activeId id := by
  rw [activeId_eq, activeId_eq, h]

theorem activeId_eq_some {state : State} {id executionId : String} :
    state.activeId id = some executionId ↔ ∃ active,
      state.active.lookup id = some active ∧
        active.executionId = executionId := by
  simp [activeId, Option.map_eq_some_iff]

theorem entry_eq_some {state : State} {id executionId : String}
    {active : ActiveExecution} :
    state.entry id executionId = some active ↔
      state.active.lookup id = some active ∧
        active.executionId = executionId := by
  simp [entry, Option.filter_eq_some_iff]

/-! ## Elementary changes -/

variable {host : Host} {state : State} {id other executionId : String}

@[simp] theorem occupant_bump : state.bump.occupant id = state.occupant id :=
  rfl

@[simp] theorem occupant_send {command : ExecutionCommand} :
    (state.send executionId command).occupant id = state.occupant id := rfl

@[simp] theorem occupant_cancelToken :
    (state.cancelToken executionId).occupant id = state.occupant id := rfl

@[simp] theorem occupant_setLastOutcome {outcome : StateName} :
    (state.setLastOutcome other outcome).occupant id = state.occupant id := rfl

@[simp] theorem occupant_dropReceiver {attachmentId : String} :
    (state.dropReceiver attachmentId).occupant id = state.occupant id := rfl

theorem occupant_setActive (active : ActiveExecution) :
    (state.setActive id active).occupant other =
      if other = id then some active.occupant else state.occupant other := by
  simp only [occupant, setActive, Map.lookup_insert_eq]
  split <;> rfl

theorem occupant_setActive_same {active changed : ActiveExecution}
    (found : state.active.lookup id = some active)
    (same : changed.occupant = active.occupant) :
    (state.setActive id changed).occupant other = state.occupant other := by
  rw [occupant_setActive]
  split
  · subst other
    simp [occupant, found, same]
  · rfl

theorem occupant_removeActive :
    (state.removeActive id).occupant other =
      if other = id then none else state.occupant other := by
  simp only [occupant, removeActive, Map.lookup_erase_eq]
  split <;> rfl

theorem occupant_mapValues {change : String → ActiveExecution → ActiveExecution}
    (same : ∀ id active, (change id active).occupant = active.occupant) :
    State.occupant { state with active := state.active.mapValues change } id =
      state.occupant id := by
  simp only [occupant, Map.lookup_mapValues, Option.map_map]
  congr 1
  funext active
  exact same id active

theorem foldl_same {Item Part : Type} (part : State → Part)
    {change : State → Item → State}
    (same : ∀ state item, part (change state item) = part state)
    (items : List Item) (state : State) :
    part (items.foldl change state) = part state := by
  induction items generalizing state with
  | nil => rfl
  | cons item items ih =>
      rw [List.foldl_cons, ih]
      exact same state item

theorem occupant_congr {first second : State}
    (h : first.active = second.active) :
    first.occupant id = second.occupant id := by
  rw [occupant, occupant, h]

/-! ## Commands and reloads -/

theorem occupant_cancel (state : State) (id other : String)
    (expectedKind : WorkloadKind) (restartAfter : Bool) :
    (state.cancel id expectedKind restartAfter).2.occupant other =
        state.occupant other ∨
      (other = id ∧ ∃ executionId replaced,
        state.occupant id = some (executionId, replaced) ∧
        (state.cancel id expectedKind restartAfter).2.occupant id =
          some (executionId, replaced || restartAfter)) := by
  unfold cancel
  split
  · exact .inl rfl
  split
  · exact .inl rfl
  split
  · exact .inl rfl
  rename_i active hactive
  by_cases hother : other = id
  · refine .inr ⟨hother, active.executionId, active.restartAfter, ?_, ?_⟩
    · simp [occupant, hactive, ActiveExecution.occupant]
    · simp [occupant_setActive, ActiveExecution.occupant]
  · simp [occupant_setActive, hother]

theorem activeId_cancel {expectedKind : WorkloadKind} {restartAfter : Bool} :
    (state.cancel id expectedKind restartAfter).2.activeId other =
      state.activeId other := by
  rw [activeId_eq, activeId_eq]
  rcases occupant_cancel state id other expectedKind restartAfter with
    hsame | ⟨rfl, _, _, hbefore, hafter⟩
  · rw [hsame]
  · rw [hbefore, hafter]
    rfl

theorem occupant_cancel_false {expectedKind : WorkloadKind} :
    (state.cancel id expectedKind false).2.occupant other =
      state.occupant other := by
  rcases occupant_cancel state id other expectedKind false with
    hsame | ⟨rfl, _, _, hbefore, hafter⟩
  · exact hsame
  · rw [hafter, hbefore, Bool.or_false]

@[simp] theorem occupant_setEnabled {enabled changed : Bool} :
    (state.setEnabled other enabled changed).2.occupant id =
      state.occupant id := by
  unfold setEnabled
  split
  · rfl
  · cases changed <;> rfl

theorem occupant_endSession (state : State) (id : String) :
    state.endSession.occupant id = state.occupant id ∨
      state.endSession.occupant id =
        (state.occupant id).map fun occupant => (occupant.1, false) := by
  unfold endSession
  split
  · exact .inl rfl
  · refine .inr ?_
    rw [occupant_bump, occupant_congr
      (foldl_same State.active (by intro state entry; rfl)
        state.active.toList _)]
    simp only [occupant, Map.lookup_mapValues, Option.map_map]
    rfl

theorem activeId_endSession :
    state.endSession.activeId id = state.activeId id := by
  rw [activeId_eq, activeId_eq]
  rcases occupant_endSession state id with hsame | hcleared
  · rw [hsame]
  · rw [hcleared, Option.map_map]
    rfl

theorem reconcileActive_occupant (definition : Option ExecutionConfiguration)
    (active : ActiveExecution) :
    (reconcileActive host definition active).occupant = active.occupant := by
  unfold reconcileActive
  split <;> rfl

theorem sendPending_active (entry : String × ActiveExecution) :
    (sendPending host state entry).active = state.active := by
  unfold sendPending
  split
  · rfl
  · split <;> rfl

theorem occupant_reconcileReload (host : Host) (state : State) (id : String) :
    (reconcileReload host state).2.occupant id = state.occupant id := by
  unfold reconcileReload
  dsimp only
  rw [occupant_congr
    (foldl_same State.active (fun state entry => sendPending_active entry)
      _ _)]
  exact occupant_mapValues fun id active => reconcileActive_occupant _ active

@[simp] theorem occupant_applyReload
    {persisted : List (String × StoredWorkload)} :
    (state.applyReload host persisted).occupant id = state.occupant id := by
  unfold applyReload
  rw [occupant_bump, occupant_reconcileReload]
  refine occupant_congr (foldl_same State.active ?_ persisted state)
  intro state item
  rfl

@[simp] theorem occupant_keepReload :
    (state.keepReload host).occupant id = state.occupant id := by
  have hreload := occupant_reconcileReload host state id
  unfold keepReload
  split
  · rename_i next hnext
    rw [hnext] at hreload
    exact hreload
  · rename_i next hnext
    rw [hnext] at hreload
    exact hreload

/-! ## Supervisors -/

@[simp] theorem occupant_supervisorDisconnected {attachmentId : String} :
    (state.supervisorDisconnected executionId attachmentId).occupant id =
      state.occupant id := by
  unfold supervisorDisconnected
  split
  · rfl
  · rename_i hfound
    split
    · rfl
    · exact occupant_setActive_same (Map.findEntry_some hfound).1 rfl

theorem occupant_monitorTick {now replacementAt : Nat} {wasRecovering : Bool}
    {tick : MonitorTick} {next : State}
    (ticked : state.monitorTick executionId now replacementAt wasRecovering =
      (tick, next)) (id : String) : next.occupant id = state.occupant id := by
  unfold monitorTick at ticked
  split at ticked
  · cases ticked
    rfl
  · rename_i hfound
    dsimp only at ticked
    split at ticked <;> split at ticked <;> cases ticked
    · exact occupant_setActive_same (Map.findEntry_some hfound).1 rfl
    · rfl
    · exact occupant_setActive_same (Map.findEntry_some hfound).1 rfl
    · rfl

theorem occupant_attachSupervisor {hello : Hello} {stored : StoredExecution}
    {attachmentId : String} {locallyOwned : Bool} {next : State}
    (attached : state.attachSupervisor host hello stored attachmentId =
      .ok (locallyOwned, next)) (id : String) :
    next.occupant id = state.occupant id := by
  unfold attachSupervisor at attached
  split at attached
  · cases attached
  rename_i active hentry
  split at attached
  · cases attached
  split at attached
  · cases attached
  cases attached
  rw [occupant_congr (sendPending_active _)]
  exact occupant_setActive_same (entry_eq_some.mp hentry).1
    (by split <;> rfl)

@[simp] theorem occupant_recordProgress {stored : StoredExecution}
    {observation : SupervisorObservation} :
    (state.recordProgress executionId stored observation).occupant id =
      state.occupant id := by
  unfold recordProgress
  split
  · rfl
  rename_i active hentry
  have hfound := (entry_eq_some.mp hentry).1
  dsimp only
  split
  · rw [occupant_bump]
    refine occupant_setActive_same hfound ?_
    split <;> rfl
  · split
    · exact occupant_setActive_same hfound rfl
    · rfl

@[simp] theorem occupant_supervisorLaunching {workloadId : String}
    {supervisorProcessId : Nat} :
    (state.supervisorLaunching workloadId executionId
      supervisorProcessId).occupant id = state.occupant id := by
  unfold supervisorLaunching
  split
  · rfl
  · rename_i hentry
    exact occupant_setActive_same (entry_eq_some.mp hentry).1 rfl

/-! ## The end of an execution -/

/-- The place of an execution is emptied. -/
def Vacates (before after : State) (workloadId executionId : String) : Prop :=
  ∀ id, after.occupant id = before.occupant id ∨
    (id = workloadId ∧ before.activeId id = some executionId ∧
      after.occupant id = none)

theorem vacates_removeActive {workloadId : String} {outcome : StateName}
    {active : ActiveExecution}
    (found : state.entry workloadId executionId = some active) :
    Vacates state (((state.removeActive workloadId).setLastOutcome workloadId
      outcome).bump) workloadId executionId := by
  intro id
  rw [occupant_bump, occupant_setLastOutcome, occupant_removeActive]
  by_cases hid : id = workloadId
  · subst hid
    exact .inr ⟨rfl, activeId_eq_some.mpr ⟨active, entry_eq_some.mp found⟩,
      by simp⟩
  · exact .inl (by simp [hid])

theorem vacates_recordTerminal {stored : StoredExecution}
    {outcome : StateName} :
    Vacates state (state.recordTerminal executionId stored outcome).2
      stored.workloadId executionId := by
  unfold recordTerminal
  split
  · exact fun _ => .inl rfl
  · rename_i hentry
    exact vacates_removeActive hentry

theorem vacates_supervisorTerminal {stored : StoredExecution}
    {result : AttemptResult} {outcome : StateName} {restart : Bool}
    {next : State}
    (removed : state.supervisorTerminal executionId stored result =
      some (outcome, restart, next)) :
    Vacates state next stored.workloadId executionId ∧
      next.activeId stored.workloadId = none := by
  obtain ⟨active, hfilter, hnext⟩ := Option.map_eq_some_iff.mp removed
  cases hnext
  obtain ⟨hentry, -⟩ := Option.filter_eq_some_iff.mp hfilter
  refine ⟨vacates_removeActive hentry, ?_⟩
  rw [activeId_eq, occupant_bump, occupant_setLastOutcome,
    occupant_removeActive]
  simp

theorem vacates_completeExecution {workloadId : String}
    {outcome : StateName} :
    Vacates state
      (state.completeExecution workloadId executionId outcome).2 workloadId
      executionId := by
  unfold completeExecution
  dsimp only
  split
  · rename_i hsome
    obtain ⟨active, hentry⟩ := Option.isSome_iff_exists.mp hsome
    exact vacates_removeActive hentry
  · exact fun _ => .inl rfl

end State

/-! ## Sections -/

def ManagerTask.starts : ManagerTask → Option String
  | .startEnabledServices (id :: _) _ => some id
  | .startEnabledJobs (id :: _) => some id
  | .rerunJob id false => some id
  | .replacementStart workloadId _ _ => some workloadId
  | _ => none

def ManagerTask.removes : ManagerTask → Option (String × String)
  | .terminalRemove executionId stored _ =>
      some (stored.workloadId, executionId)
  | .recordTerminal _ executionId stored _ =>
      some (stored.workloadId, executionId)
  | .completeRemove run _ => some (run.workloadId, run.executionId)
  | _ => none

def Command.starts : Command → Option String
  | .startService id | .runJob id => some id
  | _ => none

section Sections

variable {host : Host} {session : String} {now : Nat} {answer : Answer}
  {situation : Situation} {outcome : Outcome}

theorem Creates.startable {state : State} {database : Database} {id : String}
    {expectedKind : WorkloadKind} {started : Started} {record : WorkloadRecord}
    {accepted : ExecutionConfiguration} {time : Int}
    (creates : Creates host session answer state database id expectedKind
      started record accepted time) : state.startable id = true := by
  simp [State.startable, creates.notEnding, State.definition, creates.found,
    creates.definition, State.activeId, creates.idle]

/-- What a start does to the place of a workload. -/
structure Occupies (answer : Answer) (situation : Situation)
    (outcome : Outcome) (id : String) : Prop where
  startable : situation.state.startable id = true
  occupant : outcome.state.occupant id = some (answer.uuid, false)
  unused : situation.database.executions.lookup answer.uuid = none
  inserted : ∃ row,
    outcome.database.executions.lookup answer.uuid = some row ∧
      row.workloadId = id

theorem startSection_occupant (host : Host) (session : String)
    (answer : Answer) (situation : Situation) (id other : String)
    (expectedKind : WorkloadKind) (exclusive : Bool)
    (enabledManagerSession : Option String) (next : List ManagerTask) :
    let outcome := startSection host session answer situation id expectedKind
      exclusive enabledManagerSession next
    outcome.state.occupant other = situation.state.occupant other ∨
      (other = id ∧ Occupies answer situation outcome id) := by
  intro outcome
  rcases startSection_cases host session answer situation id expectedKind
    exclusive enabledManagerSession next with
    hsame | ⟨started, record, accepted, time, creates, hstarted⟩
  · exact .inl (congrArg (fun outcome => outcome.state.occupant other) hsame)
  · have hstate : outcome.state = started.state :=
      congrArg (fun outcome => outcome.state) hstarted
    have hdatabase : outcome.database = started.database :=
      congrArg (fun outcome => outcome.database) hstarted
    by_cases hother : other = id
    · refine .inr ⟨hother, creates.startable, ?_, creates.unused,
        startingRow id time
          (startedDefinition host session answer.uuid accepted), ?_, rfl⟩
      · simp [hstate, creates.state, State.occupant_setActive,
          startingExecution, ActiveExecution.occupant]
      · rw [hdatabase, creates.executions]
        exact AList.lookup_insert _
    · refine .inl ?_
      simp [hstate, creates.state, State.occupant_setActive, hother]

/-- What a section does to a place. -/
inductive PlaceAfter (task : ManagerTask) (answer : Answer)
    (situation : Situation) (outcome : Outcome) (id : String) : Prop where
  | kept (same : outcome.state.occupant id = situation.state.occupant id)
  | vacated {executionId : String}
      (removes : task.removes = some (id, executionId))
      (active : situation.state.activeId id = some executionId)
      (empty : outcome.state.occupant id = none)
  | occupied (starts : task.starts = some id)
      (occupies : Occupies answer situation outcome id)
  | raised {executionId : String} {replaced : Bool}
      (rerun : task = .rerunJob id true)
      (before : situation.state.occupant id = some (executionId, replaced))
      (after : outcome.state.occupant id = some (executionId, true))

theorem placeAfter_started {task : ManagerTask} {id workloadId : String}
    (starts : task.starts = some workloadId)
    (h : outcome.state.occupant id = situation.state.occupant id ∨
      (id = workloadId ∧ Occupies answer situation outcome workloadId)) :
    PlaceAfter task answer situation outcome id := by
  rcases h with hsame | ⟨rfl, occupies⟩
  · exact .kept hsame
  · exact .occupied starts occupies

theorem placeAfter_vacates {task : ManagerTask}
    {id workloadId executionId : String}
    (removes : task.removes = some (workloadId, executionId))
    (h : State.Vacates situation.state outcome.state workloadId executionId) :
    PlaceAfter task answer situation outcome id := by
  rcases h id with hsame | ⟨rfl, active, empty⟩
  · exact .kept hsame
  · exact .vacated removes active empty

theorem Section.occupant {task : ManagerTask}
    (made : Section host session now answer situation task outcome)
    (id : String) : PlaceAfter task answer situation outcome id := by
  cases made with
  | startService | startJob | rerunIdle | replacementStart =>
      exact placeAfter_started rfl
        (startSection_occupant host session answer situation _ id _ _ _ _)
  | rerunActive =>
      rename_i workloadId
      rcases State.occupant_cancel situation.state workloadId id .job true with
        hsame | ⟨rfl, executionId, replaced, before, after⟩
      · exact .kept hsame
      · rw [Bool.or_true] at after
        exact .raised rfl before after
  | monitorReplaces ticked =>
      exact .kept (State.occupant_monitorTick ticked id)
  | attached unused accepted =>
      exact .kept (State.occupant_attachSupervisor accepted id)
  | attachedLocally unused accepted =>
      exact .kept (State.occupant_attachSupervisor accepted id)
  | attachUnstored unused accepted =>
      exact .kept (State.occupant_attachSupervisor accepted id)
  | terminalRemoved removed =>
      exact placeAfter_vacates rfl (State.vacates_supervisorTerminal removed).1
  | recordTerminal => exact placeAfter_vacates rfl State.vacates_recordTerminal
  | completeRemoved =>
      exact placeAfter_vacates rfl State.vacates_completeExecution
  | applyReload => exact .kept State.occupant_applyReload
  | keepReload => exact .kept State.occupant_keepReload
  | setEnabled => exact .kept State.occupant_setEnabled
  | recordProgress => exact .kept State.occupant_recordProgress
  | runLaunching => exact .kept State.occupant_supervisorLaunching
  | streamClosed => exact .kept State.occupant_supervisorDisconnected
  | _ => exact .kept rfl

theorem startSection_inserted {id executionId : String}
    {expectedKind : WorkloadKind} {exclusive : Bool}
    {enabledManagerSession : Option String} {next : List ManagerTask}
    {row : StoredExecution}
    (absent : situation.database.executions.lookup executionId = none)
    (present : outcome.database.executions.lookup executionId = some row)
    (houtcome : outcome = startSection host session answer situation id
      expectedKind exclusive enabledManagerSession next) :
    id = row.workloadId ∧ executionId = answer.uuid ∧
      situation.state.startable id = true ∧
      outcome.state.activeId id = some executionId := by
  rcases startSection_cases host session answer situation id expectedKind
    exclusive enabledManagerSession next with
    hsame | ⟨started, record, accepted, time, creates, hstarted⟩
  · rw [houtcome, hsame] at present
    cases absent.symm.trans present
  · rw [hstarted] at houtcome
    subst houtcome
    dsimp only at present
    rw [creates.executions, Map.lookup_insert_eq] at present
    split at present
    · rename_i hid
      cases present
      refine ⟨rfl, hid, creates.startable, ?_⟩
      · simp [State.activeId_eq, creates.state, State.occupant_setActive,
          startingExecution, ActiveExecution.occupant, hid]
    · cases absent.symm.trans present

end Sections

end Susm.Controller
