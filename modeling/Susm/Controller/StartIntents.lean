import Susm.Controller.StopIntents
import Susm.Controller.Tokens

/-!
# Accepted starts

A start, a restart or a rerun that is answered with success asks for an
execution that is not being stopped, or for a replacement of the one that is.
An execution is being stopped when its token has been cancelled.
-/

namespace Susm.Controller

open Susm.Foundation
open Susm.Protocol

/-- A workload has an execution that is not being stopped, or one that is to be
replaced. -/
def State.Intended (state : State) (id : String) : Prop :=
  ∃ active, state.active.lookup id = some active ∧
    (state.isCancelled active.executionId = false ∨
      active.restartAfter = true)

/-- The commands that ask for an execution; a rerun has seen before whether
there is one. -/
inductive StartIntent where
  | start
  | restart
  | rerun (active : Bool)
  deriving DecidableEq, Repr

def StartIntent.kind : StartIntent → WorkloadKind
  | .start | .restart => .service
  | .rerun _ => .job

def StartIntent.perform (host : Host) (session : String) (answer : Answer)
    (situation : Situation) (id : String) : StartIntent → Reply × State
  | .start =>
      let started := Susm.Controller.start host session answer situation.state
        situation.database id .service false none
      (started.reply, started.state)
  | .restart => situation.state.cancel id .service true
  | .rerun true => situation.state.cancel id .job true
  | .rerun false =>
      let started := Susm.Controller.start host session answer situation.state
        situation.database id .job true none
      (started.reply, started.state)

/-- The states in which the intent is kept: a start must not meet an execution
that is being stopped for good, a restart must meet one, and so must a rerun
that has seen one. -/
def StartIntent.Kept (state : State) (id : String) : StartIntent → Prop
  | .start => ∀ active, state.active.lookup id = some active →
      state.isCancelled active.executionId = false ∨
        active.restartAfter = true
  | .restart => (state.activeId id).isSome
  | .rerun active => active = true → (state.activeId id).isSome

section Sections

variable {host : Host} {session : String} {answer : Answer}
  {situation : Situation} {id : String} {expectedKind : WorkloadKind}
  {exclusive : Bool} {changed : Bool} {view : Workload}

theorem insertStarted_none {database after : Database} {executionId : String}
    {execution : StoredExecution} {stored inserted : Bool}
    (h : insertStarted database executionId execution none stored =
      .ok (inserted, after)) : inserted = true := by
  unfold insertStarted at h
  split at h
  · obtain ⟨_, -, hpair⟩ := map_eq_ok_iff.mp h
    exact (Prod.mk.inj hpair).1.symm
  · cases h

theorem start_unchanged {state : State} {database : Database}
    (accepted : (start host session answer state database id expectedKind
      exclusive none).reply = .ok (false, view)) :
    exclusive = false ∧ (state.activeId id).isSome := by
  unfold start at accepted
  dsimp only at accepted
  split at accepted
  · cases accepted
  split at accepted
  · cases accepted
  split at accepted
  · cases accepted
  · cases accepted
  · rename_i active _ _ hactive
    split at accepted
    · cases accepted
    · rename_i hexclusive
      exact ⟨by simpa using hexclusive, by simp [State.activeId, hactive]⟩
  split at accepted
  · cases accepted
  split at accepted
  · cases accepted
  split at accepted
  · cases accepted
  · rename_i hinsert
    cases insertStarted_none hinsert
  · cases accepted

theorem start_ok {state : State} {database : Database}
    (accepted : (start host session answer state database id expectedKind
      exclusive none).reply = .ok (changed, view)) :
    (∃ record accepted time, Creates host session answer state database id
      expectedKind (start host session answer state database id expectedKind
        exclusive none) record accepted time) ∨
      (exclusive = false ∧ (state.activeId id).isSome ∧
        (start host session answer state database id expectedKind exclusive
          none).state = state) := by
  rcases start_cases host session answer state database id expectedKind
    exclusive none with ⟨-, hstate, -, hreply⟩ | hcreates
  · cases changed with
    | true => exact absurd accepted (hreply view)
    | false =>
        obtain ⟨hexclusive, hactive⟩ := start_unchanged accepted
        exact .inr ⟨hexclusive, hactive, hstate⟩
  · exact .inl hcreates

theorem Creates.intended {state : State} {database : Database}
    {started : Started} {record : WorkloadRecord}
    {accepted : ExecutionConfiguration} {time : Int}
    (creates : Creates host session answer state database id expectedKind
      started record accepted time)
    (known : ∀ token ∈ state.cancelled, Known database token) :
    started.state.Intended id := by
  refine ⟨startingExecution host answer.uuid
    (startedDefinition host session answer.uuid accepted), ?_, .inl ?_⟩
  · rw [creates.state]
    exact AList.lookup_insert _
  · rw [creates.state]
    have hunused : answer.uuid ∉ state.cancelled := by
      intro htoken
      obtain ⟨workloadId, row, hrow, -⟩ := known answer.uuid htoken
      cases creates.unused.symm.trans hrow
    exact decide_eq_false hunused

/-- A cancellation for a replacement keeps the intent where there is something
to replace. -/
theorem cancel_intended {state : State}
    (accepted : (state.cancel id expectedKind true).1 = .ok (changed, view)) :
    (state.cancel id expectedKind true).2.Intended id ↔
      (state.activeId id).isSome := by
  unfold State.cancel at accepted ⊢
  cases hrecord : state.workloads.lookup id with
  | none =>
      simp only [hrecord] at accepted
      cases accepted
  | some record =>
      simp only [hrecord] at accepted ⊢
      cases hkind : ensureKind id record expectedKind with
      | error error =>
          simp only [hkind] at accepted
          cases accepted
      | ok kind =>
          cases hactive : state.active.lookup id with
          | none => simp [State.Intended, State.activeId, hactive]
          | some active =>
              have hsome : (state.activeId id).isSome = true := by
                simp [State.activeId, hactive]
              refine iff_of_true ?_ hsome
              exact ⟨_, AList.lookup_insert _, .inr (Bool.or_true _)⟩

theorem StartIntent.intended {intent : StartIntent}
    (known : ∀ token ∈ situation.state.cancelled,
      Known situation.database token)
    (accepted : (intent.perform host session answer situation id).1 =
      .ok (changed, view)) :
    (intent.perform host session answer situation id).2.Intended id ↔
      intent.Kept situation.state id := by
  cases intent with
  | start =>
      rcases start_ok accepted with ⟨record, definition, time, creates⟩ |
        ⟨-, hactive, hstate⟩
      · refine iff_of_true (creates.intended known) ?_
        intro active hactive
        cases creates.idle.symm.trans hactive
      · obtain ⟨executionId, hid⟩ := Option.isSome_iff_exists.mp hactive
        obtain ⟨active, hfound, -⟩ := State.activeId_eq_some.mp hid
        simp only [StartIntent.perform, hstate]
        simp [State.Intended, StartIntent.Kept, hfound]
  | restart => exact cancel_intended accepted
  | rerun active =>
      cases active with
      | true =>
          refine (cancel_intended accepted).trans ?_
          simp [StartIntent.Kept]
      | false =>
          rcases start_ok accepted with ⟨record, definition, time, creates⟩ |
            ⟨hexclusive, -⟩
          · refine iff_of_true (creates.intended known) ?_
            intro hactive
            cases hactive
          · cases hexclusive

end Sections

namespace World

variable {host : Host} {world next : World} {event : Event}
  {manager : Manager} {id : String} {intent : StartIntent}

/-- The answer of the surroundings to a section. -/
def eventAnswer : Event → Option Answer
  | .command _ answer | .attach _ answer | .advance _ answer => some answer
  | _ => none

/-- The command that an event answers, if it is one that asks for an
execution. -/
def startIntent (world : World) (event : Event) :
    Option (String × StartIntent) :=
  match event, world.advancedTask event with
  | .command (.startService id) _, _ => some (id, .start)
  | .command (.restartService id) _, _ => some (id, .restart)
  | _, some (.rerunJob id active) => some (id, .rerun active)
  | _, _ => none

/-- The event answers the command with success. -/
structure Accepts (host : Host) (world : World) (event : Event)
    (manager : Manager) (id : String) (intent : StartIntent) : Prop where
  running : world.controller = some manager
  asks : world.startIntent event = some (id, intent)
  accepted : ∃ answer changed view, eventAnswer event = some answer ∧
    (intent.perform host manager.session answer (world.situation manager)
      id).1 = .ok (changed, view)

theorem step_startIntent {answer : Answer}
    (running : world.controller = some manager)
    (asks : world.startIntent event = some (id, intent))
    (hanswer : eventAnswer event = some answer)
    (moved : step host world event = some next) :
    ∃ after, next.controller = some after ∧
      after.state = (intent.perform host manager.session answer
        (world.situation manager) id).2 := by
  cases step_moved moved with
  | elapsed | processExited | controllerExited | startup => cases hanswer
  | attach controller serving => cases asks
  | command controller serving =>
      cases running.symm.trans controller
      cases hanswer
      refine ⟨_, rfl, ?_⟩
      rename_i command
      cases command <;> cases asks <;> rfl
  | advance controller found made =>
      rename_i index answer manager task outcome
      cases running.symm.trans controller
      cases hanswer
      simp only [startIntent, advancedTask_eq controller found] at asks
      cases task with
      | rerunJob workloadId active =>
          cases asks
          refine ⟨_, rfl, ?_⟩
          cases made with
          | givesUp made => cases made
          | runCancelled waiting => rcases waiting with h | h | h <;> cases h
          | rerunActive => rfl
          | rerunIdle => rfl
      | _ => cases asks

/--
After a start, a restart or a rerun that was answered with success, the workload
has an execution that is not being stopped or is to be replaced, if and only if
the state before it kept the intent.
-/
theorem start_intent_kept (reachable : Reachable host world)
    (accepts : Accepts host world event manager id intent)
    (moved : step host world event = some next) :
    (∃ after, next.controller = some after ∧ after.state.Intended id) ↔
      intent.Kept manager.state id := by
  obtain ⟨answer, changed, view, hanswer, accepted⟩ := accepts.accepted
  obtain ⟨after, runs, hstate⟩ :=
    step_startIntent accepts.running accepts.asks hanswer moved
  have known := reachable.tokensKnown manager accepts.running
  have kept : after.state.Intended id ↔ intent.Kept manager.state id := by
    rw [hstate]
    exact StartIntent.intended known accepted
  refine Iff.trans ?_ kept
  constructor
  · rintro ⟨other, hother, intended⟩
    cases runs.symm.trans hother
    exact intended
  · exact fun intended => ⟨after, runs, intended⟩

/-! ## A restart of an idle service -/

theorem start_intent_dropped :
    ¬ ∀ (host : Host) (world next : World) (event : Event) (manager : Manager)
      (id : String) (intent : StartIntent) (record : WorkloadRecord),
      Reachable host world → Accepts host world event manager id intent →
      manager.state.sessionEnding = false →
      manager.state.workloads.lookup id = some record →
      record.kind = intent.kind → record.definition.isSome →
      step host world event = some next →
      ∃ after, next.controller = some after ∧ after.state.Intended id := by
  intro h
  obtain ⟨after, runs, active, hactive, -⟩ :=
    h installation servingWorld _ restartEvent _ "tool" .restart toolRecord
      servingWorld_reachable
      ⟨rfl, rfl, _, _, _, rfl, rfl⟩ rfl rfl rfl rfl rfl
  cases runs
  cases hactive

/-- The service is running and is started again. -/
theorem start_intent_kept_running :
    (∃ after, (worldAfter attachedWorld
        [.command (.startService "tool") calm]).controller = some after ∧
      after.state.Intended "tool") ↔
      StartIntent.start.Kept attachedManager.state "tool" := by
  have accepts : Accepts installation attachedWorld
      (.command (.startService "tool") calm) attachedManager "tool" .start :=
    ⟨rfl, rfl, _, _, _, rfl, rfl⟩
  exact start_intent_kept attachedWorld_reachable accepts rfl

end World

end Susm.Controller
