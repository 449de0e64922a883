import Susm.Domain.Controller

/-!
# Service control

What the accepted events of a service say about its control.  The allocated
executions are the terminated ones and the one that the control stores; the
revision of a running control is the one that the last command to change the
control has brought; and a revision that waits for its execution is later than
every revision that has had one.
-/

namespace Susm.Domain

open Susm.Foundation
open Susm.Foundation.EventMachine

/-! ## What an accepted event does -/

namespace ServiceControl

/-- The execution that has been allocated and not terminated. -/
def execution? : ServiceControl → Option ExecutionId
  | .stopped (.draining executionId)
  | .running _ (.active executionId)
  | .running _ (.draining executionId) => some executionId
  | _ => none

/-- The execution that is to terminate before anything else happens. -/
def draining? : ServiceControl → Option ExecutionId
  | .stopped (.draining executionId)
  | .running _ (.draining executionId) => some executionId
  | _ => none

def revision? : ServiceControl → Option IntentRevision
  | .stopped _ => none
  | .running revision _ => some revision

def wanted? : ServiceControl → Option IntentRevision
  | .running revision .needsExecution
  | .running revision (.draining _) => some revision
  | _ => none

end ServiceControl

def ServiceCommand.revision? : ServiceCommand → Option IntentRevision
  | .start revision | .restart revision => some revision
  | .stop => none

inductive ControlMove : ServiceControl → ServiceControlEvent →
    List ServiceControlEffect → ServiceControl → Prop where
  | asked {control : ServiceControl} {command : ServiceCommand}
      {revision : IntentRevision} (asks : command.revision? = some revision)
      (free : control.execution? = none) :
      ControlMove control (.command command) [.allocateExecution revision]
        (.running revision .needsExecution)
  | askedDraining {control : ServiceControl} {command : ServiceCommand}
      {revision : IntentRevision} {executionId : ExecutionId}
      (asks : command.revision? = some revision)
      (drains : control.draining? = some executionId) :
      ControlMove control (.command command) []
        (.running revision (.draining executionId))
  | restartedActive {current revision : IntentRevision}
      {executionId : ExecutionId} :
      ControlMove (.running current (.active executionId))
        (.command (.restart revision)) [.stopExecution executionId .restart]
        (.running revision (.draining executionId))
  | startKept {current revision : IntentRevision} {phase : RunningPhase}
      (serving : ∀ executionId outcome, phase ≠ .blocked executionId outcome) :
      ControlMove (.running current phase) (.command (.start revision)) []
        (.running current phase)
  | stopKept {phase : StoppedPhase} :
      ControlMove (.stopped phase) (.command .stop) [] (.stopped phase)
  | stopped {revision : IntentRevision} {phase : RunningPhase}
      {executionId : ExecutionId}
      (live : (ServiceControl.running revision phase).execution? =
        some executionId) :
      ControlMove (.running revision phase) (.command .stop)
        [.stopExecution executionId .stop] (.stopped (.draining executionId))
  | stoppedFree {revision : IntentRevision} {phase : RunningPhase}
      (free : (ServiceControl.running revision phase).execution? = none) :
      ControlMove (.running revision phase) (.command .stop) []
        (.stopped .idle)
  | allocated {revision : IntentRevision} {executionId : ExecutionId} :
      ControlMove (.running revision .needsExecution)
        (.executionAllocated revision executionId) []
        (.running revision (.active executionId))
  | terminatedStopped {executionId : ExecutionId}
      {outcome : ExecutionOutcome} :
      ControlMove (.stopped (.draining executionId))
        (.executionTerminated executionId outcome) [] (.stopped .idle)
  | terminatedActive {revision : IntentRevision} {executionId : ExecutionId}
      {outcome : ExecutionOutcome} :
      ControlMove (.running revision (.active executionId))
        (.executionTerminated executionId outcome) []
        (.running revision (.blocked executionId outcome))
  | terminatedDraining {revision : IntentRevision} {executionId : ExecutionId}
      {outcome : ExecutionOutcome} :
      ControlMove (.running revision (.draining executionId))
        (.executionTerminated executionId outcome)
        [.allocateExecution revision] (.running revision .needsExecution)

namespace ServiceState

variable {state : ServiceState}

theorem ControlMove.of_command {command : ServiceCommand}
    {reaction : Transition ServiceState ServiceControlEffect}
    (h : state.command command = .ok reaction) :
    ControlMove state.control (.command command) reaction.effects
      reaction.state.control := by
  obtain ⟨definition, enablement, control⟩ := state
  cases command with
  | start revision =>
      simp only [ServiceState.command] at h
      split at h
      · cases h
      split at h <;> cases h
      · exact .asked rfl rfl
      · exact .asked rfl rfl
      · exact .askedDraining rfl rfl
      · rename_i hblocked
        exact .startKept fun executionId outcome hphase =>
          hblocked executionId outcome hphase
  | restart revision =>
      simp only [ServiceState.command] at h
      split at h
      · cases h
      split at h <;> cases h
      · exact .asked rfl rfl
      · exact .asked rfl rfl
      · exact .asked rfl rfl
      · exact .askedDraining rfl rfl
      · exact .askedDraining rfl rfl
      · exact .restartedActive
  | stop =>
      simp only [ServiceState.command] at h
      split at h <;> cases h
      · exact .stopKept
      · exact .stopped rfl
      · exact .stopped rfl
      · exact .stoppedFree rfl
      · exact .stoppedFree rfl

theorem ControlMove.of_transition {event : ServiceControlEvent}
    {reaction : Transition ServiceState ServiceControlEffect}
    (h : state.transition event = .ok reaction) :
    ControlMove state.control event reaction.effects reaction.state.control := by
  cases event with
  | command command => exact ControlMove.of_command h
  | executionAllocated revision executionId =>
      obtain ⟨definition, enablement, control⟩ := state
      simp only [transition, executionAllocated] at h
      split at h
      · split at h
        · rename_i hcurrent
          obtain ⟨rfl, rfl⟩ := hcurrent
          cases h
          exact .allocated
        · split at h <;> cases h
      · cases h
  | executionTerminated executionId outcome =>
      obtain ⟨definition, enablement, control⟩ := state
      simp only [transition, executionTerminated] at h
      split at h
      · split at h <;> cases h
        subst_vars
        exact .terminatedStopped
      · split at h <;> cases h
        subst_vars
        exact .terminatedActive
      · split at h <;> cases h
        subst_vars
        exact .terminatedDraining
      · cases h

end ServiceState

/-! ## Histories -/

inductive ServiceInput where
  | definition (definition : DefinitionState)
  | event (event : ServiceControlEvent)
  deriving DecidableEq

abbrev ServiceHistory :=
  List (Accepted ServiceState ServiceInput ServiceControlEffect)

namespace ServiceInput

def revision? : ServiceInput → Option IntentRevision
  | .event (.command command) => command.revision?
  | _ => none

def allocation? : ServiceInput → Option (IntentRevision × ExecutionId)
  | .event (.executionAllocated revision executionId) =>
      some (revision, executionId)
  | _ => none

def termination? : ServiceInput → Option ExecutionId
  | .event (.executionTerminated executionId _) => some executionId
  | _ => none

end ServiceInput

namespace ServiceState

def step (state : ServiceState) : ServiceInput → ServiceResult
  | .definition definition =>
      .ok (.withoutEffects { state with definition := definition })
  | .event event => state.transition event

theorem step_move {state : ServiceState} {input : ServiceInput}
    {reaction : Transition ServiceState ServiceControlEffect}
    (h : state.step input = .ok reaction) :
    (∃ definition, input = .definition definition ∧ reaction.effects = [] ∧
        reaction.state.control = state.control) ∨
      ∃ event, input = .event event ∧ ControlMove state.control event
        reaction.effects reaction.state.control := by
  cases input with
  | definition definition =>
      cases h
      exact .inl ⟨definition, rfl, rfl, rfl⟩
  | event event => exact .inr ⟨event, rfl, ControlMove.of_transition h⟩

end ServiceState

namespace ServiceHistory

def revisions (history : ServiceHistory) : List IntentRevision :=
  history.filterMap fun entry => entry.event.revision?

def allocations (history : ServiceHistory) :
    List (IntentRevision × ExecutionId) :=
  history.filterMap fun entry => entry.event.allocation?

def terminations (history : ServiceHistory) : List ExecutionId :=
  history.filterMap fun entry => entry.event.termination?

/-- The revision that a command has put in place of the one before, which is
none for a stop; a command that changes nothing leaves the one before. -/
def intent? (entry : Accepted ServiceState ServiceInput ServiceControlEffect) :
    Option (Option IntentRevision) :=
  match entry.event with
  | .event (.command command) =>
      if entry.reaction.state.control = entry.before.control then none
      else some command.revision?
  | _ => none

/-- The revision of the last command that has changed the control. -/
def inForce (history : ServiceHistory) : Option IntentRevision :=
  (history.filterMap intent?).getLast?.join

def allocates : ServiceControlEffect → Option IntentRevision
  | .allocateExecution revision => some revision
  | _ => none

/-- The revisions for which an execution has been asked for. -/
def requested (effects : List ServiceControlEffect) : List IntentRevision :=
  effects.filterMap allocates

def Increasing (revisions : List IntentRevision) : Prop :=
  revisions.Pairwise fun first second => first.get < second.get

instance (revisions : List IntentRevision) :
    Decidable (Increasing revisions) :=
  inferInstanceAs (Decidable (List.Pairwise _ _))

variable {history : ServiceHistory}
  {entry : Accepted ServiceState ServiceInput ServiceControlEffect}

theorem revisions_concat :
    revisions (history ++ [entry]) =
      history.revisions ++ entry.event.revision?.toList := by
  simp [revisions, List.filterMap_append, List.filterMap_cons]
  cases entry.event.revision? <;> rfl

theorem allocations_concat :
    allocations (history ++ [entry]) =
      history.allocations ++ entry.event.allocation?.toList := by
  simp [allocations, List.filterMap_append, List.filterMap_cons]
  cases entry.event.allocation? <;> rfl

theorem terminations_concat :
    terminations (history ++ [entry]) =
      history.terminations ++ entry.event.termination?.toList := by
  simp [terminations, List.filterMap_append, List.filterMap_cons]
  cases entry.event.termination? <;> rfl

theorem inForce_concat :
    inForce (history ++ [entry]) = (intent? entry).getD history.inForce := by
  simp only [inForce, List.filterMap_append, List.filterMap_cons,
    List.filterMap_nil]
  cases intent? entry <;> simp

end ServiceHistory

/-! ## What the control remembers -/

open ServiceHistory

theorem ServiceControl.execution_of_draining {control : ServiceControl}
    {executionId : ExecutionId} (h : control.draining? = some executionId) :
    control.execution? = some executionId := by
  unfold draining? at h
  split at h <;> cases h <;> rfl

namespace ControlMove

variable {control after : ServiceControl} {event : ServiceControlEvent}
  {effects : List ServiceControlEffect}

theorem live (move : ControlMove control event effects after) :
    control.execution?.toList ++
        ((ServiceInput.event event).allocation?.map Prod.snd).toList =
      (ServiceInput.event event).termination?.toList ++
        after.execution?.toList := by
  cases move with
  | asked asks free => simp [free]; rfl
  | askedDraining asks drains =>
      rw [ServiceControl.execution_of_draining drains]
      rfl
  | stopped live =>
      rw [live]
      rfl
  | stoppedFree free =>
      rw [free]
      rfl
  | startKept | stopKept => exact List.append_nil _
  | _ => rfl

/-- A command brings its revision, unless it is the start of a service that is
running already. -/
theorem command_revision {command : ServiceCommand}
    (move : ControlMove control (.command command) effects after) :
    after.revision? = command.revision? ∨
      ((∃ revision, command = .start revision) ∧
        control.revision?.isSome ∧ after = control ∧ effects = []) := by
  cases move with
  | asked asks | askedDraining asks => exact .inl asks.symm
  | startKept => exact .inr ⟨⟨_, rfl⟩, rfl, rfl, rfl⟩
  | _ => exact .inl rfl

theorem revision_kept (move : ControlMove control event effects after)
    (h : ∀ command, event ≠ .command command) :
    after.revision? = control.revision? := by
  cases move with
  | asked | askedDraining | restartedActive | startKept | stopKept
  | stopped | stoppedFree => exact absurd rfl (h _)
  | _ => rfl

theorem revision_from {revision : IntentRevision}
    (move : ControlMove control event effects after)
    (h : after.revision? = some revision) :
    control.revision? = some revision ∨
      (ServiceInput.event event).revision? = some revision := by
  cases event with
  | command command =>
      rcases move.command_revision with hrevision | ⟨-, -, rfl, -⟩
      · exact .inr (hrevision.symm.trans h)
      · exact .inl h
  | executionAllocated | executionTerminated =>
      exact .inl ((move.revision_kept nofun).symm.trans h)

theorem wanted_from {revision : IntentRevision}
    (move : ControlMove control event effects after)
    (h : after.wanted? = some revision) :
    (ServiceInput.event event).allocation? = none ∧
      (control.wanted? = some revision ∨
        (ServiceInput.event event).revision? = some revision) := by
  cases move with
  | asked asks | askedDraining asks =>
      cases h
      exact ⟨rfl, .inr asks⟩
  | restartedActive =>
      cases h
      exact ⟨rfl, .inr rfl⟩
  | startKept | stopKept => exact ⟨rfl, .inl h⟩
  | terminatedDraining => exact ⟨rfl, .inl h⟩
  | _ => cases h

theorem allocation_wanted {allocation : IntentRevision × ExecutionId}
    (move : ControlMove control event effects after)
    (h : (ServiceInput.event event).allocation? = some allocation) :
    control.wanted? = some allocation.1 ∧
      control.revision? = some allocation.1 := by
  cases move with
  | allocated =>
      cases h
      exact ⟨rfl, rfl⟩
  | _ => cases h

theorem drains {executionId : ExecutionId}
    (move : ControlMove control event effects after)
    (h : control.draining? = some executionId)
    (alive : (ServiceInput.event event).termination? = none) :
    after.draining? = some executionId ∧ requested effects = [] := by
  have hlive := ServiceControl.execution_of_draining h
  cases move with
  | asked asks free => cases free.symm.trans hlive
  | askedDraining asks drains => exact ⟨drains.symm.trans h, rfl⟩
  | restartedActive | allocated => cases h
  | startKept | stopKept => exact ⟨h, rfl⟩
  | stopped live => exact ⟨live.symm.trans hlive, rfl⟩
  | stoppedFree free => cases free.symm.trans hlive
  | terminatedStopped | terminatedActive | terminatedDraining => cases alive

theorem stays_stopped (move : ControlMove control event effects after)
    (h : control.revision? = none)
    (unasked : (ServiceInput.event event).revision? = none) :
    after.revision? = none ∧ requested effects = [] ∧
      (ServiceInput.event event).allocation? = none := by
  cases move with
  | asked asks | askedDraining asks => cases asks.symm.trans unasked
  | stopKept | terminatedStopped => exact ⟨rfl, rfl, rfl⟩
  | _ => cases h

end ControlMove

namespace ServiceState

/-- Allocations and terminations agree with the control, and the revision of
the control is the one in force. -/
structure ControlHolds (state : ServiceState) (history : ServiceHistory) :
    Prop where
  live : history.allocations.map Prod.snd =
    history.terminations ++ state.control.execution?.toList
  revision : history.inForce = state.control.revision?

variable {state : ServiceState} {history : ServiceHistory}
  {input : ServiceInput}
  {reaction : Transition ServiceState ServiceControlEffect}

theorem ControlHolds.step (held : ControlHolds state history)
    (h : state.step input = .ok reaction) :
    ControlHolds reaction.state (history ++ [⟨state, input, reaction⟩]) := by
  constructor
  · rw [allocations_concat, terminations_concat, List.map_append, held.live,
      List.append_assoc, List.append_assoc]
    congr 1
    rcases step_move h with ⟨definition, rfl, -, hsame⟩ | ⟨event, rfl, move⟩
    · rw [hsame]
      exact List.append_nil _
    · rw [← Option.toList_map]
      exact move.live
  · rw [inForce_concat, held.revision]
    rcases step_move h with ⟨definition, rfl, -, hsame⟩ | ⟨event, rfl, move⟩
    · rw [hsame]
      rfl
    · cases event with
      | command command =>
          rcases move.command_revision with hrevision | ⟨-, -, hsame, -⟩
          · by_cases hsame : reaction.state.control = state.control
            · simp [intent?, hsame]
            · simp [intent?, hsame, hrevision]
          · simp [intent?, hsame]
      | executionAllocated | executionTerminated =>
          exact (move.revision_kept nofun).symm

/-- The waiting revision is later than those that have had an execution. -/
structure RevisionsHold (control : ServiceControl)
    (revisions : List IntentRevision)
    (allocations : List (IntentRevision × ExecutionId)) : Prop where
  known : ∀ revision ∈ control.revision?, revision ∈ revisions
  allocated : ∀ allocation ∈ allocations, allocation.1 ∈ revisions
  ordered : Increasing (allocations.map Prod.fst)
  wanted : ∀ revision ∈ control.wanted?, ∀ allocation ∈ allocations,
    allocation.1.get < revision.get

theorem RevisionsHold.step
    (held : RevisionsHold state.control history.revisions history.allocations)
    (increasing : Increasing
      (revisions (history ++ [⟨state, input, reaction⟩])))
    (h : state.step input = .ok reaction) :
    RevisionsHold reaction.state.control
      (revisions (history ++ [⟨state, input, reaction⟩]))
      (allocations (history ++ [⟨state, input, reaction⟩])) := by
  rw [revisions_concat] at increasing ⊢
  rw [allocations_concat]
  obtain ⟨-, -, hlater⟩ := List.pairwise_append.mp increasing
  rcases step_move h with ⟨definition, rfl, -, hsame⟩ | ⟨event, rfl, move⟩
  · simpa [hsame, ServiceInput.revision?, ServiceInput.allocation?] using held
  constructor
  · intro revision hrevision
    rw [List.mem_append, Option.mem_toList]
    exact (move.revision_from hrevision).imp_left (held.known revision)
  · intro allocation hallocation
    rw [List.mem_append, Option.mem_toList] at hallocation
    rw [List.mem_append]
    rcases hallocation with hbefore | hnew
    · exact .inl (held.allocated allocation hbefore)
    · exact .inl (held.known _ (move.allocation_wanted hnew).2)
  · rw [List.map_append]
    refine List.pairwise_append.mpr ⟨held.ordered, ?_, ?_⟩
    · cases (ServiceInput.event event).allocation? <;> simp
    · intro first hfirst second hsecond
      obtain ⟨allocation, hallocation, rfl⟩ := List.mem_map.mp hfirst
      obtain ⟨new, hnew, rfl⟩ := List.mem_map.mp hsecond
      rw [Option.mem_toList] at hnew
      exact held.wanted _ (move.allocation_wanted hnew).1 allocation hallocation
  · intro revision hwanted allocation hallocation
    obtain ⟨hnone, hfrom⟩ := move.wanted_from hwanted
    simp only [hnone, Option.toList_none, List.append_nil] at hallocation
    rcases hfrom with hbefore | hnew
    · exact held.wanted revision hbefore allocation hallocation
    · exact hlater _ (held.allocated allocation hallocation) revision
        (Option.mem_toList.mpr hnew)

/-! ## Runs -/

theorem run_controlHolds {state : ServiceState}
    (idle : state.control = .stopped .idle) (events : List ServiceInput) :
    ControlHolds (run ServiceState.step state events).state
      (accepted ServiceState.step state events) := by
  have start : ControlHolds state [] := by
    constructor <;> rw [idle] <;> rfl
  exact accepted_history ControlHolds
    (fun _ _ _ _ held h => held.step h) [] start events

theorem run_revisionsHold {state : ServiceState}
    (idle : state.control = .stopped .idle) (events : List ServiceInput)
    (increasing : Increasing
      (revisions (accepted ServiceState.step state events))) :
    RevisionsHold (run ServiceState.step state events).state.control
      (revisions (accepted ServiceState.step state events))
      (allocations (accepted ServiceState.step state events)) := by
  have start : RevisionsHold state.control [] [] := by
    rw [idle]
    exact ⟨nofun, nofun, List.Pairwise.nil, nofun⟩
  have keeps : ∀ (state : ServiceState) (history : ServiceHistory)
      (input : ServiceInput) reaction,
      (Increasing history.revisions →
        RevisionsHold state.control history.revisions history.allocations) →
      state.step input = .ok reaction →
      Increasing (revisions (history ++ [⟨state, input, reaction⟩])) →
      RevisionsHold reaction.state.control
        (revisions (history ++ [⟨state, input, reaction⟩]))
        (allocations (history ++ [⟨state, input, reaction⟩])) := by
    intro state history input reaction held h increasing
    refine (held ?_).step increasing h
    rw [revisions_concat] at increasing
    exact (List.pairwise_append.mp increasing).1
  exact accepted_history _ keeps [] (fun _ => start) events increasing

/-- Until its execution has terminated the control drains it and asks for
nothing. -/
def DrainsUntil (executionId : ExecutionId) (state : ServiceState)
    (history : ServiceHistory) : Prop :=
  history.terminations = [] →
    state.control.draining? = some executionId ∧
      requested (history.flatMap fun entry => entry.reaction.effects) = []

theorem DrainsUntil.step {executionId : ExecutionId}
    (held : DrainsUntil executionId state history)
    (h : state.step input = .ok reaction) :
    DrainsUntil executionId reaction.state
      (history ++ [⟨state, input, reaction⟩]) := by
  intro alive
  rw [terminations_concat, List.append_eq_nil_iff,
    Option.toList_eq_nil_iff] at alive
  obtain ⟨hdrains, hrequested⟩ := held alive.1
  simp only [requested, List.flatMap_append, List.filterMap_append,
    List.flatMap_singleton, List.append_eq_nil_iff]
  rcases step_move h with ⟨definition, rfl, heffects, hsame⟩ |
    ⟨event, rfl, move⟩
  · rw [hsame, heffects]
    exact ⟨hdrains, hrequested, rfl⟩
  · obtain ⟨hafter, hnone⟩ := move.drains hdrains alive.2
    exact ⟨hafter, hrequested, hnone⟩

theorem run_drains {state : ServiceState} {executionId : ExecutionId}
    (drains : state.control.draining? = some executionId)
    (events : List ServiceInput)
    (alive : terminations (accepted ServiceState.step state events) = []) :
    (run ServiceState.step state events).state.control.draining? =
        some executionId ∧
      requested (run ServiceState.step state events).effects = [] := by
  rw [run_effects_eq]
  exact accepted_history (DrainsUntil executionId)
    (fun _ _ _ _ held h => held.step h) [] (fun _ => ⟨drains, rfl⟩) events alive

/-- Until a command asks for an execution none is asked for or allocated. -/
def StoppedUntil (state : ServiceState) (history : ServiceHistory) : Prop :=
  history.revisions = [] →
    state.control.revision? = none ∧
      requested (history.flatMap fun entry => entry.reaction.effects) = [] ∧
      history.allocations = []

theorem StoppedUntil.step (held : StoppedUntil state history)
    (h : state.step input = .ok reaction) :
    StoppedUntil reaction.state (history ++ [⟨state, input, reaction⟩]) := by
  intro unasked
  rw [revisions_concat, List.append_eq_nil_iff,
    Option.toList_eq_nil_iff] at unasked
  obtain ⟨hstopped, hrequested, hallocations⟩ := held unasked.1
  rw [allocations_concat, hallocations]
  simp only [requested, List.flatMap_append, List.filterMap_append,
    List.flatMap_singleton, List.append_eq_nil_iff, List.nil_append,
    Option.toList_eq_nil_iff]
  rcases step_move h with ⟨definition, rfl, heffects, hsame⟩ |
    ⟨event, rfl, move⟩
  · rw [hsame, heffects]
    exact ⟨hstopped, ⟨hrequested, rfl⟩, rfl⟩
  · obtain ⟨hafter, hnone, hnew⟩ := move.stays_stopped hstopped unasked.2
    exact ⟨hafter, ⟨hrequested, hnone⟩, hnew⟩

theorem run_stopped {state : ServiceState}
    (stopped : state.control.revision? = none) (events : List ServiceInput)
    (unasked : revisions (accepted ServiceState.step state events) = []) :
    requested (run ServiceState.step state events).effects = [] ∧
      allocations (accepted ServiceState.step state events) = [] := by
  rw [run_effects_eq]
  exact (accepted_history StoppedUntil (fun _ _ _ _ held h => held.step h) []
    (fun _ => ⟨stopped, rfl, rfl⟩) events unasked).2

/--
What the events of a service say about its control: the allocated executions
are the terminated ones and the one that the control stores; no revision is
allocated twice, and none that is not in force; a command puts its revision in
force unless it starts a service that is running already; an execution that
drains is followed by one request, for the revision in force; and a stop is
followed by none until a later command.
-/
structure FollowsIntents (state : ServiceState) (events : List ServiceInput) :
    Prop where
  count : let history := accepted ServiceState.step state events
    (allocations history).length = (terminations history).length +
      if (run ServiceState.step state events).state.control.execution?.isSome
      then 1 else 0
  live : let history := accepted ServiceState.step state events
    (allocations history).map Prod.snd = terminations history ++
      (run ServiceState.step state events).state.control.execution?.toList
  once : (allocations (accepted ServiceState.step state events)).Pairwise
    fun first second => first.1 ≠ second.1
  latest : ∀ before entry after revision executionId,
    accepted ServiceState.step state events = before ++ entry :: after →
    entry.event = .event (.executionAllocated revision executionId) →
    inForce before = some revision
  force : ∀ before entry after command,
    accepted ServiceState.step state events = before ++ entry :: after →
    entry.event = .event (.command command) →
    inForce (before ++ [entry]) = command.revision? ∨
      ((∃ revision, command = .start revision) ∧ (inForce before).isSome ∧
        entry.reaction.state.control = entry.before.control ∧
        entry.reaction.effects = [])
  drained : ∀ first during rest executionId outcome,
    events = first ++ during ++
      .event (.executionTerminated executionId outcome) :: rest →
    let state' := (run ServiceState.step state first).state
    state'.control.draining? = some executionId →
    terminations (accepted ServiceState.step state' during) = [] →
    requested (run ServiceState.step state' during).effects = [] ∧
      requested (deliver ServiceState.step
        (run ServiceState.step state' during).state
        (.event (.executionTerminated executionId outcome))).effects =
      (inForce (accepted ServiceState.step state (first ++ during))).toList
  stopped : ∀ first rest,
    events = first ++ .event (.command .stop) :: rest →
    let state' := (deliver ServiceState.step
      (run ServiceState.step state first).state (.event (.command .stop))).state
    revisions (accepted ServiceState.step state' rest) = [] →
    requested (run ServiceState.step state' rest).effects = [] ∧
      allocations (accepted ServiceState.step state' rest) = []

theorem requested_termination {state : ServiceState}
    {executionId : ExecutionId} {outcome : ExecutionOutcome}
    (drains : state.control.draining? = some executionId) :
    requested (deliver ServiceState.step state
      (.event (.executionTerminated executionId outcome))).effects =
        state.control.revision?.toList := by
  obtain ⟨definition, enablement, control⟩ := state
  dsimp only at drains ⊢
  unfold ServiceControl.draining? at drains
  split at drains <;> cases drains
  · simp [deliver, ServiceState.step, transition, executionTerminated,
      Transition.new, requested, ServiceControl.revision?]
  · simp [deliver, ServiceState.step, transition, executionTerminated,
      Transition.new, requested, allocates, ServiceControl.revision?]

theorem deliver_stop (state : ServiceState) :
    (deliver ServiceState.step state
      (.event (.command .stop))).state.control.revision? = none := by
  obtain ⟨definition, enablement, control⟩ := state
  cases control with
  | stopped phase => rfl
  | running revision phase => cases phase <;> rfl

theorem control_follows_intents {state : ServiceState}
    (idle : state.control = .stopped .idle) (events : List ServiceInput)
    (increasing : Increasing (events.filterMap ServiceInput.revision?)) :
    FollowsIntents state events := by
  have held := run_controlHolds idle events
  have holdsAt : ∀ {before entry after},
      accepted ServiceState.step state events = before ++ entry :: after →
      ControlHolds entry.before before :=
    fun h => accepted_history_at ControlHolds
      (fun _ _ _ _ held h => held.step h) (run_controlHolds idle []) h
  have stepAt : ∀ {before entry after},
      accepted ServiceState.step state events = before ++ entry :: after →
      ServiceState.step entry.before entry.event = .ok entry.reaction :=
    fun h => accepted_step (h ▸ List.mem_append_right _ List.mem_cons_self)
  have ordered : Increasing
      (revisions (accepted ServiceState.step state events)) := by
    have hsublist :
        (((accepted ServiceState.step state events).map
          Accepted.event).filterMap ServiceInput.revision?).Sublist
            (events.filterMap ServiceInput.revision?) :=
      (accepted_sublist state events).filterMap _
    rw [List.filterMap_map] at hsublist
    exact increasing.sublist hsublist
  constructor
  case count =>
    have hlength := congrArg List.length held.live
    rw [List.length_map, List.length_append] at hlength
    dsimp only
    rw [hlength]
    cases (run ServiceState.step state events).state.control.execution? <;> rfl
  case live => exact held.live
  case once =>
    have hordered := (run_revisionsHold idle events ordered).ordered
    rw [Increasing, List.pairwise_map] at hordered
    exact hordered.imp fun hlt heq => absurd hlt (by rw [heq]; omega)
  case latest =>
    intro before entry after revision executionId hsplit hevent
    rw [(holdsAt hsplit).revision]
    have hstep := stepAt hsplit
    rw [hevent] at hstep
    have move : ControlMove entry.before.control
        (.executionAllocated revision executionId) entry.reaction.effects
        entry.reaction.state.control := ControlMove.of_transition hstep
    exact (move.allocation_wanted rfl).2
  case force =>
    intro before entry after command hsplit hevent
    have hbefore := holdsAt hsplit
    have hstep := stepAt hsplit
    have hafter := (hbefore.step hstep).revision
    rw [hafter, hbefore.revision]
    rw [hevent] at hstep
    have move : ControlMove entry.before.control (.command command)
        entry.reaction.effects entry.reaction.state.control :=
      ControlMove.of_transition hstep
    rcases move.command_revision with
      hrevision | ⟨hstart, hrunning, hsame, hnone⟩
    · exact .inl hrevision
    · exact .inr ⟨hstart, hrunning, hsame, hnone⟩
  case drained =>
    intro first during rest executionId outcome _ state' drains alive
    obtain ⟨hdrains, hnone⟩ := run_drains drains during alive
    refine ⟨hnone, ?_⟩
    rw [requested_termination hdrains,
      (run_controlHolds idle (first ++ during)).revision, run_append_state]
  case stopped =>
    intro first rest _ state' unasked
    exact run_stopped (deliver_stop _) rest unasked

/-! ## A service that is restarted -/

theorem sampleRevision_lt {value : Nat} (h : 0 < value ∧ value < 2 ^ 64) :
    value < CounterKind.revision.limit := h.2

def sampleRevision (value : Nat) (h : 0 < value ∧ value < 2 ^ 64 := by decide) :
    IntentRevision := ⟨value, h.1, sampleRevision_lt h⟩

/-- A service with a definition that has never been started. -/
def sampleService : ServiceState where
  definition := .available ⟨.replicate 32 0⟩ ⟨.replicate 32 0⟩
  enablement := .disabled
  control := .stopped .idle

def sampleInputs : List ServiceInput :=
  [.event (.command (.start (sampleRevision 1))),
    .event (.executionAllocated (sampleRevision 1) ⟨1⟩),
    .event (.command (.restart (sampleRevision 2))),
    .event (.command (.restart (sampleRevision 3))),
    .event (.executionTerminated ⟨1⟩ (.stopped .restart false)),
    .event (.executionAllocated (sampleRevision 3) ⟨2⟩)]

theorem control_follows_intents_restarted :
    FollowsIntents sampleService sampleInputs :=
  control_follows_intents rfl sampleInputs (by decide)

/-- A start of a service that waits for its execution is accepted, and the
execution is still allocated for the revision before. -/
theorem older_revision_allocated :
    ¬ ∀ (state : ServiceState) (events : List ServiceInput),
      state.control = .stopped .idle →
      Increasing (events.filterMap ServiceInput.revision?) →
      ∀ before entry after revision executionId,
        accepted ServiceState.step state events = before ++ entry :: after →
        entry.event = .event (.executionAllocated revision executionId) →
        (revisions before).getLast? = some revision := by
  intro h
  have hlatest := h sampleService
    [.event (.command (.start (sampleRevision 1))),
      .event (.command (.start (sampleRevision 2))),
      .event (.executionAllocated (sampleRevision 1) ⟨1⟩)]
    rfl (by decide) [_, _] _ [] (sampleRevision 1) ⟨1⟩ rfl rfl
  exact absurd hlatest (by decide)

end ServiceState

end Susm.Domain
