import Susm.Controller.Receivers

/-!
# The policies of executions

Of every execution the controller keeps the hash of a policy, and whether the
supervisor has still to acknowledge it.  A reload replaces the hash by that of
the accepted definition and asks for an acknowledgement when the hash is another
one, an acknowledgement of the hash ends the wait, and a start begins with the
definition that it copies.
-/

namespace Susm.Controller

open Susm.Foundation
open Susm.Protocol

/-- The execution, the hash of its policy, and whether that is pending. -/
abbrev Belief := String × List UInt8 × Bool

def ActiveExecution.belief (active : ActiveExecution) : Belief :=
  (active.executionId, active.policyHash, active.policySyncPending)

/-- One round of `reconcile_reload`. -/
def Belief.reconcile (host : Host) (definition : Option ExecutionConfiguration)
    (belief : Belief) : Belief :=
  match definition with
  | none => belief
  | some definition =>
      let hash := (policyUpdate host definition).policyHash
      (belief.1, hash, belief.2.2 ∨ belief.2.1 ≠ hash)

/-- A reload leaves nothing acknowledged but what it finds acknowledged, and has
the hash of the accepted definition. -/
theorem Belief.reconcile_settled {host : Host}
    {definition : Option ExecutionConfiguration} {belief : Belief}
    {executionId : String} {hash : List UInt8}
    (after : belief.reconcile host definition = (executionId, hash, false)) :
    belief = (executionId, hash, false) ∧
      ∀ accepted ∈ definition,
        (policyUpdate host accepted).policyHash = hash := by
  cases definition with
  | none => exact ⟨after, fun _ haccepted => by cases haccepted⟩
  | some definition =>
      obtain ⟨before, held, pending⟩ := belief
      simp only [Belief.reconcile, Prod.mk.injEq, decide_eq_false_iff_not,
        not_or, Bool.not_eq_true, ne_eq, not_not] at after
      obtain ⟨rfl, rfl, rfl, rfl⟩ := after
      refine ⟨rfl, fun accepted haccepted => ?_⟩
      cases haccepted
      rfl

namespace State

/-- What the controller holds of the policy of a workload. -/
def belief (state : State) (id : String) : Option Belief :=
  (state.active.lookup id).map ActiveExecution.belief

variable {host : Host} {state next : State} {id other executionId : String}

theorem belief_eq_some {hash : List UInt8} {pending : Bool} :
    state.belief id = some (executionId, hash, pending) ↔
      ∃ active, state.active.lookup id = some active ∧
        active.executionId = executionId ∧ active.policyHash = hash ∧
        active.policySyncPending = pending := by
  simp [belief, ActiveExecution.belief, Option.map_eq_some_iff]

theorem activeId_of_belief {belief : Belief}
    (h : state.belief id = some belief) :
    state.activeId id = some belief.1 := by
  obtain ⟨active, hactive, rfl⟩ := Option.map_eq_some_iff.mp h
  exact activeId_eq_some.mpr ⟨active, hactive, rfl⟩

theorem belief_congr (same : next.active = state.active) (id : String) :
    next.belief id = state.belief id := by
  rw [belief, belief, same]

theorem belief_setActive (active : ActiveExecution) :
    (state.setActive id active).belief other =
      if other = id then some active.belief else state.belief other := by
  simp only [belief, setActive, Map.lookup_insert_eq]
  split <;> rfl

theorem belief_setActive_same {active changed : ActiveExecution}
    (found : state.active.lookup id = some active)
    (same : changed.belief = active.belief) (other : String) :
    (state.setActive id changed).belief other = state.belief other := by
  rw [belief_setActive]
  split
  · subst other
    simp [belief, found, same]
  · rfl

theorem belief_cancel {expectedKind : WorkloadKind} {restartAfter : Bool}
    (other : String) :
    (state.cancel id expectedKind restartAfter).2.belief other =
      state.belief other := by
  unfold cancel
  split
  · rfl
  split
  · rfl
  split
  · rfl
  · rename_i hfound
    exact belief_setActive_same hfound (by rfl) other

theorem belief_setEnabled {enabled changed : Bool} (other : String) :
    (state.setEnabled id enabled changed).2.belief other =
      state.belief other := by
  unfold setEnabled
  split
  · rfl
  · cases changed <;> rfl

theorem belief_endSession (id : String) :
    state.endSession.belief id = state.belief id := by
  unfold endSession
  split
  · rfl
  · refine (belief_congr (foldl_same State.active (by intro state entry; rfl)
      state.active.toList _) id).trans ?_
    simp only [belief, Map.lookup_mapValues, Option.map_map]
    rfl

/-! ### Reloads -/

theorem reconcileActive_belief (definition : Option ExecutionConfiguration)
    (active : ActiveExecution) :
    (reconcileActive host definition active).belief =
      active.belief.reconcile host definition := by
  cases definition <;> rfl

theorem definition_eq (state : State) (id : String) :
    state.definition id =
      (state.configured id).bind fun accepted => accepted.2.1 := by
  unfold definition configured
  cases state.workloads.lookup id <;> rfl

theorem definition_congr (same : next.configured id = state.configured id) :
    next.definition id = state.definition id := by
  rw [definition_eq, definition_eq, same]

theorem belief_reconcileReload (host : Host) (state : State) (id : String) :
    (reconcileReload host state).2.belief id =
      (state.belief id).map (Belief.reconcile host (state.definition id)) := by
  unfold reconcileReload
  dsimp only
  rw [belief_congr (foldl_same State.active
    (fun state entry => sendPending_active entry) _ _)]
  simp only [belief, Map.lookup_mapValues, Option.map_map]
  congr 1
  funext active
  exact reconcileActive_belief _ active

theorem belief_keepReload (id : String) :
    (state.keepReload host).belief id =
      (state.belief id).map (Belief.reconcile host (state.definition id)) := by
  have hreload := belief_reconcileReload host state id
  unfold keepReload
  split
  · rename_i next hnext
    rw [hnext] at hreload
    exact hreload
  · rename_i next hnext
    rw [hnext] at hreload
    exact hreload

theorem definition_keepReload (id : String) :
    (state.keepReload host).definition id = state.definition id :=
  definition_congr
    (congrFun (congrArg (fun frame => frame.2.2) frame_keepReload) id)

theorem belief_insertWorkloads {persisted : List (String × StoredWorkload)}
    (id : String) :
    (persisted.foldl State.insertWorkload state).belief id = state.belief id :=
  belief_congr (foldl_same State.active (by intro state item; rfl)
    persisted state) id

theorem definition_applyReload {persisted : List (String × StoredWorkload)}
    (id : String) :
    (state.applyReload host persisted).definition id =
      (persisted.foldl State.insertWorkload state).definition id :=
  definition_congr configured_applyReload

theorem belief_applyReload {persisted : List (String × StoredWorkload)}
    (id : String) :
    (state.applyReload host persisted).belief id =
      (state.belief id).map (Belief.reconcile host
        ((state.applyReload host persisted).definition id)) := by
  rw [definition_applyReload]
  exact (belief_reconcileReload host _ id).trans
    (congrArg _ (belief_insertWorkloads id))

/-! ### Supervisors -/

theorem belief_supervisorDisconnected {attachmentId : String} (id : String) :
    (state.supervisorDisconnected executionId attachmentId).belief id =
      state.belief id := by
  unfold supervisorDisconnected
  split
  · rfl
  · rename_i hfound
    split
    · rfl
    · exact belief_setActive_same (Map.findEntry_some hfound).1 (by rfl) id

theorem belief_monitorTick {now replacementAt : Nat} {wasRecovering : Bool}
    {tick : MonitorTick}
    (ticked : state.monitorTick executionId now replacementAt wasRecovering =
      (tick, next)) (id : String) : next.belief id = state.belief id := by
  unfold monitorTick at ticked
  split at ticked
  · cases ticked
    rfl
  · rename_i hfound
    dsimp only at ticked
    split at ticked <;> split at ticked <;> cases ticked
    · exact belief_setActive_same (Map.findEntry_some hfound).1 (by rfl) id
    · rfl
    · exact belief_setActive_same (Map.findEntry_some hfound).1 (by rfl) id
    · rfl

theorem belief_attachSupervisor {hello : Hello} {stored : StoredExecution}
    {attachmentId : String} {locallyOwned : Bool}
    (attached : state.attachSupervisor host hello stored attachmentId =
      .ok (locallyOwned, next)) (id : String) :
    next.belief id = state.belief id := by
  unfold attachSupervisor at attached
  split at attached
  · cases attached
  rename_i active hentry
  split at attached
  · cases attached
  split at attached
  · cases attached
  cases attached
  rw [belief_congr (sendPending_active _)]
  exact belief_setActive_same (entry_eq_some.mp hentry).1
    (by split <;> rfl) id

theorem belief_supervisorLaunching {workloadId : String}
    {supervisorProcessId : Nat} (id : String) :
    (state.supervisorLaunching workloadId executionId
      supervisorProcessId).belief id = state.belief id := by
  unfold supervisorLaunching
  split
  · rfl
  · rename_i hentry
    exact belief_setActive_same (entry_eq_some.mp hentry).1 (by rfl) id

theorem belief_recordProgress {stored : StoredExecution}
    {observation : SupervisorObservation} (id : String) :
    (state.recordProgress executionId stored observation).belief id =
        state.belief id ∨
      id = stored.workloadId ∧ observation.kind = .policyApplied ∧
        ∃ hash, observation.detail = hex hash ∧
          state.belief id = some (executionId, hash, true) ∧
          (state.recordProgress executionId stored observation).belief id =
            some (executionId, hash, false) := by
  unfold recordProgress
  split
  · exact .inl rfl
  rename_i active hentry
  obtain ⟨hfound, rfl⟩ := entry_eq_some.mp hentry
  dsimp only
  by_cases happlied : observation.kind = .policyApplied ∧
    observation.detail = hex active.policyHash ∧
    active.policySyncPending = true
  · have hprogress : progressObservation observation = none := by
      rw [progressObservation, happlied.1]
    simp only [happlied, and_self, decide_true, if_true, hprogress]
    by_cases hid : id = stored.workloadId
    · subst hid
      refine .inr ⟨rfl, trivial, active.policyHash, rfl, ?_, ?_⟩
      · simp [belief, hfound, ActiveExecution.belief, happlied.2.2]
      · exact (belief_setActive _).trans (if_pos rfl)
    · exact .inl ((belief_setActive _).trans (if_neg hid))
  · left
    have hdecided : decide (observation.kind = .policyApplied ∧
        observation.detail = hex active.policyHash ∧
        active.policySyncPending = true) = false := decide_eq_false happlied
    simp only [hdecided, Bool.false_eq_true, if_false]
    split
    · exact belief_setActive_same hfound (by rfl) id
    · rfl

theorem belief_removeActive {outcome : StateName} (id : String) :
    (((state.removeActive other).setLastOutcome other outcome).bump).belief
        id = none ∨
      (((state.removeActive other).setLastOutcome other outcome).bump).belief
        id = state.belief id := by
  have hlookup : (((state.removeActive other).setLastOutcome other
      outcome).bump).belief id = (state.removeActive other).belief id := rfl
  rw [hlookup]
  simp only [belief, removeActive, Map.lookup_erase_eq]
  split
  · exact .inl rfl
  · exact .inr rfl

theorem belief_recordTerminal {stored : StoredExecution}
    {outcome : StateName} (id : String) :
    (state.recordTerminal executionId stored outcome).2.belief id = none ∨
      (state.recordTerminal executionId stored outcome).2.belief id =
        state.belief id := by
  unfold recordTerminal
  split
  · exact .inr rfl
  · exact belief_removeActive id

theorem belief_supervisorTerminal {stored : StoredExecution}
    {result : AttemptResult} {outcome : StateName} {restart : Bool}
    (removed : state.supervisorTerminal executionId stored result =
      some (outcome, restart, next)) (id : String) :
    next.belief id = none ∨ next.belief id = state.belief id := by
  obtain ⟨active, -, hnext⟩ := Option.map_eq_some_iff.mp removed
  cases hnext
  exact belief_removeActive id

theorem belief_completeExecution {workloadId : String} {outcome : StateName}
    (id : String) :
    (state.completeExecution workloadId executionId outcome).2.belief id =
        none ∨
      (state.completeExecution workloadId executionId outcome).2.belief id =
        state.belief id := by
  unfold completeExecution
  dsimp only
  split
  · exact belief_removeActive id
  · exact .inr rfl

/-- The hash of each policy is that of the accepted definition, if there is
one. -/
def Agreed (host : Host) (state : State) : Prop :=
  ∀ id definition belief, state.definition id = some definition →
    state.belief id = some belief →
    belief.2.1 = (policyUpdate host definition).policyHash

theorem agreed_iff :
    state.Agreed host ↔ ∀ entry ∈ state.active.toList,
      ∀ definition ∈ state.definition entry.1,
        entry.2.policyHash = (policyUpdate host definition).policyHash := by
  constructor
  · rintro agreed ⟨id, active⟩ hentry definition hdefinition
    have hbelief : state.belief id = some active.belief := by
      rw [belief, Map.mem_toList.mp hentry, Option.map_some]
    exact agreed id definition _ hdefinition hbelief
  · intro h id definition belief hdefinition hbelief
    obtain ⟨active, hfound, rfl⟩ := Option.map_eq_some_iff.mp hbelief
    exact h (id, active) (Map.mem_toList.mpr hfound) definition hdefinition

instance : Decidable (state.Agreed host) := decidable_of_iff' _ agreed_iff

end State

/-! ## Sections -/

/-- The sections of `reload` in memory. -/
def ManagerTask.reconciles : ManagerTask → Bool
  | .applyReload .. | .keepReload _ => true
  | _ => false

def ManagerTask.acknowledges : ManagerTask → Option (String × String × String)
  | .recordProgress _ executionId stored observation =>
      if observation.kind = .policyApplied then
        some (stored.workloadId, executionId, observation.detail)
      else none
  | _ => none

section Sections

variable {host : Host} {session : String} {now : Nat} {answer : Answer}
  {situation : Situation} {outcome : Outcome} {task : ManagerTask}

/-- What a start holds of the policy of its workload. -/
structure BeginsPolicy (host : Host) (answer : Answer) (situation : Situation)
    (outcome : Outcome) (id : String) : Prop where
  unused : situation.database.executions.lookup answer.uuid = none
  begins : ∃ definition, situation.state.definition id = some definition ∧
    outcome.state.belief id =
      some (answer.uuid, (policyUpdate host definition).policyHash, false)

theorem startSection_belief (host : Host) (session : String)
    (answer : Answer) (situation : Situation) (id other : String)
    (expectedKind : WorkloadKind) (exclusive : Bool)
    (enabledManagerSession : Option String) (next : List ManagerTask) :
    let outcome := startSection host session answer situation id expectedKind
      exclusive enabledManagerSession next
    outcome.state.belief other = situation.state.belief other ∨
      BeginsPolicy host answer situation outcome other := by
  intro outcome
  rcases startSection_cases host session answer situation id expectedKind
    exclusive enabledManagerSession next with
    hsame | ⟨started, record, accepted, time, creates, hstarted⟩
  · exact .inl (congrArg (fun outcome => outcome.state.belief other) hsame)
  have hstate : outcome.state = started.state :=
    congrArg (fun outcome => outcome.state) hstarted
  have hbelief : outcome.state.belief other =
      if other = id then
        some (answer.uuid, (policyUpdate host accepted).policyHash, false)
      else situation.state.belief other := by
    rw [hstate, creates.state]
    exact State.belief_setActive _
  by_cases hother : other = id
  · subst hother
    refine .inr ⟨creates.unused, accepted, ?_, ?_⟩
    · simp [State.definition, creates.found, creates.definition]
    · rw [hbelief, if_pos rfl]
  · exact .inl (by rw [hbelief, if_neg hother])

/-- What a section does to what the controller holds of a policy. -/
inductive BeliefAfter (host : Host) (answer : Answer) (situation : Situation)
    (outcome : Outcome) (id : String) : ManagerTask → Prop where
  | kept {task : ManagerTask}
      (same : outcome.state.belief id = situation.state.belief id) :
      BeliefAfter host answer situation outcome id task
  | removed {task : ManagerTask} (gone : outcome.state.belief id = none) :
      BeliefAfter host answer situation outcome id task
  | begun {task : ManagerTask}
      (begins : BeginsPolicy host answer situation outcome id) :
      BeliefAfter host answer situation outcome id task
  | reconciled {task : ManagerTask} (reconciles : task.reconciles = true)
      (after : outcome.state.belief id =
        (situation.state.belief id).map
          (Belief.reconcile host (outcome.state.definition id))) :
      BeliefAfter host answer situation outcome id task
  | acknowledged {task : ManagerTask} {executionId : String}
      {hash : List UInt8}
      (acknowledges : task.acknowledges = some (id, executionId, hex hash))
      (before : situation.state.belief id = some (executionId, hash, true))
      (after : outcome.state.belief id = some (executionId, hash, false)) :
      BeliefAfter host answer situation outcome id task

theorem beliefAfter_started {id : String}
    (h : outcome.state.belief id = situation.state.belief id ∨
      BeginsPolicy host answer situation outcome id) :
    BeliefAfter host answer situation outcome id task := by
  rcases h with hsame | begins
  · exact .kept hsame
  · exact .begun begins

theorem beliefAfter_removed {id : String}
    (h : outcome.state.belief id = none ∨
      outcome.state.belief id = situation.state.belief id) :
    BeliefAfter host answer situation outcome id task := by
  rcases h with hgone | hsame
  · exact .removed hgone
  · exact .kept hsame

theorem Section.reconciled
    (made : Section host session now answer situation task outcome)
    (reconciles : task.reconciles = true) (id : String) :
    outcome.state.belief id =
      (situation.state.belief id).map
        (Belief.reconcile host (outcome.state.definition id)) := by
  cases made with
  | applyReload => exact State.belief_applyReload id
  | keepReload =>
      refine (State.belief_keepReload id).trans ?_
      exact congrArg (fun definition =>
        (situation.state.belief id).map (Belief.reconcile host definition))
        (State.definition_keepReload id).symm
  | givesUp h => cases h <;> cases reconciles
  | runCancelled waiting =>
      rcases waiting with rfl | rfl | rfl <;> cases reconciles
  | _ => cases reconciles

theorem Section.belief
    (made : Section host session now answer situation task outcome)
    (id : String) : BeliefAfter host answer situation outcome id task := by
  by_cases hreconciles : task.reconciles = true
  · exact .reconciled hreconciles (made.reconciled hreconciles id)
  cases made with
  | startService | startJob | rerunIdle | replacementStart =>
      exact beliefAfter_started
        (startSection_belief host session answer situation _ id _ _ _ _)
  | rerunActive => exact .kept (State.belief_cancel id)
  | monitorReplaces ticked => exact .kept (State.belief_monitorTick ticked id)
  | attached unused accepted =>
      exact .kept (State.belief_attachSupervisor accepted id)
  | attachedLocally unused accepted =>
      exact .kept (State.belief_attachSupervisor accepted id)
  | attachUnstored unused accepted =>
      exact .kept (State.belief_attachSupervisor accepted id)
  | terminalRemoved removed =>
      exact beliefAfter_removed (State.belief_supervisorTerminal removed id)
  | recordTerminal =>
      exact beliefAfter_removed (State.belief_recordTerminal id)
  | completeRemoved =>
      exact beliefAfter_removed (State.belief_completeExecution id)
  | applyReload | keepReload => exact absurd rfl hreconciles
  | setEnabled => exact .kept (State.belief_setEnabled id)
  | @recordProgress attachmentId executionId stored observation =>
      rcases @State.belief_recordProgress situation.state executionId stored
        observation id with
        hsame | ⟨rfl, hkind, hash, hdetail, before, after⟩
      · exact .kept hsame
      · refine .acknowledged ?_ before after
        rw [ManagerTask.acknowledges, if_pos hkind, hdetail]
  | runLaunching => exact .kept (State.belief_supervisorLaunching id)
  | streamClosed => exact .kept (State.belief_supervisorDisconnected id)
  | _ => exact .kept rfl

theorem Command.belief (command : Command) (id : String) :
    let outcome := command.perform host session answer situation
    outcome.state.belief id = situation.state.belief id ∨
      BeginsPolicy host answer situation outcome id := by
  cases command with
  | startService workloadId | runJob workloadId =>
      exact startSection_belief host session answer situation workloadId id _ _
        _ _
  | stopService | cancelJob | restartService =>
      exact .inl (State.belief_cancel id)
  | setEnabled workloadId enabled =>
      refine .inl ?_
      simp only [Command.perform]
      split <;> rfl
  | endSession => exact .inl (State.belief_endSession id)
  | _ => exact .inl rfl

/-! ### Definitions -/

theorem Section.definition
    (made : Section host session now answer situation task outcome)
    (goesOn : task.reconciles = false) (id : String) :
    outcome.state.definition id = situation.state.definition id := by
  rw [State.definition_eq, State.definition_eq]
  rcases made.configured id with
    hsame | ⟨target, enabled, -, hset⟩ | ⟨persisted, caller, rfl, -⟩
  · rw [hsame]
  · rw [hset]
    cases situation.state.configured id with
    | none => rfl
    | some accepted =>
        by_cases hid : id = target <;> simp [hid]
  · cases goesOn

theorem State.Agreed.kept {state after : State} (agreed : state.Agreed host)
    (definitions : ∀ id, after.definition id = state.definition id)
    (beliefs : ∀ id belief, after.belief id = some belief →
      (∃ before, state.belief id = some before ∧ before.2.1 = belief.2.1) ∨
        ∃ definition, state.definition id = some definition ∧
          belief.2.1 = (policyUpdate host definition).policyHash) :
    after.Agreed host := by
  intro id definition belief hdefinition hbelief
  rw [definitions] at hdefinition
  rcases beliefs id belief hbelief with
    ⟨before, hbefore, hsame⟩ | ⟨begun, hbegun, hhash⟩
  · rw [← hsame]
    exact agreed id definition before hdefinition hbefore
  · cases hdefinition.symm.trans hbegun
    exact hhash

theorem Section.agreed
    (made : Section host session now answer situation task outcome)
    (agreed : task.reconciles = true ∨ situation.state.Agreed host) :
    outcome.state.Agreed host := by
  cases hreconciles : task.reconciles with
  | true =>
      intro id definition belief hdefinition hbelief
      have hafter := made.reconciled hreconciles id
      rw [hbelief, hdefinition] at hafter
      obtain ⟨before, -, rfl⟩ := Option.map_eq_some_iff.mp hafter.symm
      rfl
  | false =>
      have held := agreed.resolve_left (by simp [hreconciles])
      refine held.kept (made.definition hreconciles) fun id belief hbelief => ?_
      cases made.belief id with
      | kept same => exact .inl ⟨belief, same.symm.trans hbelief, rfl⟩
      | removed gone => cases gone.symm.trans hbelief
      | begun begins =>
          obtain ⟨definition, hdefinition, hbegun⟩ := begins.begins
          cases hbegun.symm.trans hbelief
          exact .inr ⟨definition, hdefinition, rfl⟩
      | reconciled reconciles => cases hreconciles.symm.trans reconciles
      | acknowledged acknowledges before after =>
          cases after.symm.trans hbelief
          exact .inl ⟨_, before, rfl⟩

theorem Command.agreed (command : Command)
    (agreed : situation.state.Agreed host) :
    (command.perform host session answer situation).state.Agreed host := by
  refine agreed.kept
    (fun id => State.definition_congr (Command.configured command id))
    fun id belief hbelief => ?_
  rcases @Command.belief host session answer situation command id with
    hsame | begins
  · exact .inl ⟨belief, hsame.symm.trans hbelief, rfl⟩
  · obtain ⟨definition, hdefinition, hbegun⟩ := begins.begins
    cases hbegun.symm.trans hbelief
    exact .inr ⟨definition, hdefinition, rfl⟩

end Sections

end Susm.Controller
