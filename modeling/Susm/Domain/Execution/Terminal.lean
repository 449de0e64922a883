import Susm.Domain.Execution.Stopping

/-!
# Terminal outcomes

An execution publishes its outcome in the transition that ends it and never
moves again.  Which outcomes are possible is settled by the origin.
-/

namespace Susm.Domain

open Susm.Foundation
open Susm.Foundation.EventMachine

def ExecutionPhase.outcome? : ExecutionPhase → Option ExecutionOutcome
  | .terminal outcome => some outcome
  | .launching _ | .running _ | .restartBackoff .. | .stopping .. => none

theorem ExecutionPhase.outcome?_eq_some_iff {phase : ExecutionPhase}
    {outcome : ExecutionOutcome} :
    phase.outcome? = some outcome ↔ phase = .terminal outcome := by
  cases phase <;> simp [outcome?]

def ExecutionOutcome.PossibleFor (outcome : ExecutionOutcome)
    (origin : ExecutionOrigin) : Prop :=
  match outcome with
  | .completed _ | .failed _ => True
  | .stopped .. => ∃ revision, origin = .serviceIntent revision
  | .cancelled .. | .outcomeUnknown _ => ∃ jobOrigin, origin = .job jobOrigin

namespace ExecutionState

def published (effects : List ExecutionEffect) : List ExecutionOutcome :=
  effects.filterMap fun
    | .publishTerminal outcome => some outcome
    | _ => none

theorem published_append (first second : List ExecutionEffect) :
    published (first ++ second) = published first ++ published second :=
  List.filterMap_append

theorem published_of_phaseStep {before after : ExecutionPhase}
    {effects : List ExecutionEffect} (step : PhaseStep before effects after) :
    before.outcome?.toList ++ published effects = after.outcome?.toList := by
  cases step with
  | backedOff active | stopKilled active | attemptFinished active =>
      rcases active with rfl | rfl <;> rfl
  | stopSignalled signal | launchedIntoStop signal =>
      rcases StopPlan.signal_eq_some signal with rfl | rfl <;> rfl
  | stay => exact List.append_nil _
  | launched | relaunched | stopAwaitingLaunch | stopExpired
  | backoffFinished | stopFinished => rfl

theorem run_published (self : ExecutionState) (events : List ExecutionEvent) :
    self.phase.outcome?.toList ++
        published (run transition self events).effects =
      (run transition self events).state.phase.outcome?.toList := by
  have history := run_phases
    (fun phase emitted =>
      self.phase.outcome?.toList ++ published emitted =
        phase.outcome?.toList)
    (fun before emitted effects after held step => by
      rw [published_append, ← List.append_assoc, held,
        published_of_phaseStep step])
    [] (List.append_nil _) events
  exact history

/-! ## The outcomes that the origin allows -/

theorem attemptOutcome_possibleFor (self : ExecutionState)
    (attempt : AttemptNumber) (attemptEnd : AttemptEnd)
    (origin : ExecutionOrigin) :
    (self.attemptOutcome attempt attemptEnd).PossibleFor origin := by
  unfold attemptOutcome
  cases attemptEnd with
  | exited exitCode ranFor =>
      dsimp only
      split <;> trivial
  | launchFailed | killed | supervisorLost => trivial

theorem attemptOutcome_completed {self : ExecutionState}
    {attempt : AttemptNumber} {attemptEnd : AttemptEnd} {code : ExitCode}
    (h : self.attemptOutcome attempt attemptEnd = .completed code) :
    code ∈ self.successExitCodes := by
  unfold attemptOutcome at h
  cases attemptEnd with
  | exited exitCode ranFor =>
      dsimp only at h
      split at h
      · rename_i hmem
        cases h
        exact hmem
      · cases h
  | launchFailed | killed | supervisorLost => cases h

/-- What entering the terminal phase promises about the outcome. -/
structure OutcomeSound (state : ExecutionState) (outcome : ExecutionOutcome) :
    Prop where
  possible : outcome.PossibleFor state.origin
  completed : ∀ code, outcome = .completed code →
    code ∈ state.successExitCodes

theorem Finish.outcomeSound {self : ExecutionState} {attempt : AttemptNumber}
    {attemptEnd : AttemptEnd} {instant : BootInstant}
    {result : Transition ExecutionState ExecutionEffect}
    {outcome : ExecutionOutcome}
    (finish : Finish self attempt attemptEnd instant result)
    (ended : result.state.phase = .terminal outcome) :
    result.state.OutcomeSound outcome := by
  cases finish with
  | denied =>
      cases ended
      exact ⟨attemptOutcome_possibleFor _ _ _ _,
        fun _ h => attemptOutcome_completed h⟩
  | retried => cases ended

theorem stopOutcome_sound {self : ExecutionState} {cause : StopCause}
    {forced : Bool} (valid : self.validateStopCause cause = .ok ()) :
    self.OutcomeSound (cause.outcome forced) := by
  rcases validateStopCause_outcome valid forced with
    ⟨revision, _, hservice, rfl, -⟩ | ⟨origin, _, hjob, rfl, -⟩
  · exact ⟨⟨revision, hservice⟩, fun _ h => by cases h⟩
  · exact ⟨⟨origin, hjob⟩, fun _ h => by cases h⟩

structure OriginHolds (state : ExecutionState) : Prop where
  cause : ∀ attempt stop cause plan,
    state.phase = .stopping attempt stop cause plan →
      state.validateStopCause cause = .ok ()
  outcome : ∀ outcome, state.phase = .terminal outcome →
    outcome.PossibleFor state.origin

section OriginHolds

variable {self : ExecutionState} {event : ExecutionEvent}
  {result : Transition ExecutionState ExecutionEffect}

theorem validateStopCause_congr {first second : ExecutionState}
    (origin : second.origin = first.origin) (cause : StopCause) :
    second.validateStopCause cause = first.validateStopCause cause := by
  unfold validateStopCause
  rw [origin]

theorem OriginHolds.stopCause (held : self.OriginHolds)
    (move : Move self event result) {attempt : AttemptNumber}
    {stop : StopPhase} {cause : StopCause} {plan : StopPlan}
    (stopping : result.state.phase = .stopping attempt stop cause plan) :
    self.validateStopCause cause = .ok () := by
  cases move with
  | launchedIntoStop phase signal =>
      cases stopping
      exact held.cause _ _ _ _ phase
  | stopBegan valid | killed valid =>
      cases stopping
      exact valid
  | stopExpired phase =>
      cases stopping
      rcases phase with phase | phase <;> exact held.cause _ _ _ _ phase
  | unchanged => exact held.cause _ _ _ _ stopping
  | updated change reconsidered =>
      rcases reconsiderBackoff_cases reconsidered with
        ⟨_, _, _, _, _, -, ⟨-, rfl⟩ | ⟨-, rfl⟩⟩ | ⟨-, rfl⟩
      · rcases change with ⟨_, -, -, rfl⟩ | ⟨_, -, rfl⟩ <;>
          exact held.cause _ _ _ _ stopping
      · cases stopping
      · rcases change with ⟨_, -, -, rfl⟩ | ⟨_, -, rfl⟩ <;>
          exact held.cause _ _ _ _ stopping
  | launchFailed phase finish | processExited phase finish
  | serviceLost phase service finish => cases finish <;> cases stopping
  | stopEnded | backoffStopped =>
      rw [finishStop_eq] at stopping
      cases stopping
  | launched | jobLost | relaunched => cases stopping

theorem OriginHolds.outcomeSound (held : self.OriginHolds)
    (move : Move self event result) (live : self.phase.outcome? = none)
    {outcome : ExecutionOutcome}
    (ended : result.state.phase = .terminal outcome) :
    result.state.OutcomeSound outcome := by
  have hlive : self.phase ≠ .terminal outcome := by
    intro h
    rw [h] at live
    cases live
  cases move with
  | launchFailed phase finish | processExited phase finish
  | serviceLost phase service finish => exact finish.outcomeSound ended
  | jobLost phase job =>
      cases ended
      exact ⟨⟨_, job⟩, fun _ h => by cases h⟩
  | stopEnded inPhase =>
      rw [finishStop_eq] at ended ⊢
      cases ended
      exact stopOutcome_sound (held.cause _ _ _ _ inPhase)
  | backoffStopped valid =>
      rw [finishStop_eq] at ended ⊢
      cases ended
      exact stopOutcome_sound valid
  | updated change reconsidered =>
      rcases reconsiderBackoff_cases reconsidered with
        ⟨_, _, _, _, _, -, ⟨-, rfl⟩ | ⟨-, rfl⟩⟩ | ⟨-, rfl⟩
      · rcases change with ⟨_, -, -, rfl⟩ | ⟨_, -, rfl⟩ <;>
          exact absurd ended hlive
      · cases ended
        exact ⟨attemptOutcome_possibleFor _ _ _ _,
          fun _ h => attemptOutcome_completed h⟩
      · rcases change with ⟨_, -, -, rfl⟩ | ⟨_, -, rfl⟩ <;>
          exact absurd ended hlive
  | unchanged => exact absurd ended hlive
  | launched | launchedIntoStop | stopBegan | killed | relaunched
  | stopExpired => cases ended

theorem OriginHolds.move (held : self.OriginHolds)
    (move : Move self event result) : result.state.OriginHolds := by
  constructor
  · intro attempt stop cause plan stopping
    rw [validateStopCause_congr move.origin]
    exact held.stopCause move stopping
  · intro outcome ended
    cases hphase : self.phase.outcome? with
    | none => exact (held.outcomeSound move hphase ended).possible
    | some previous =>
        rw [ExecutionPhase.outcome?_eq_some_iff] at hphase
        have hstep := move.phaseStep
        rw [hphase] at hstep
        rw [hstep.of_terminal.2] at ended
        cases ended
        rw [move.origin]
        exact held.outcome _ hphase

end OriginHolds

theorem Fresh.run_originHolds {self : ExecutionState} (fresh : self.Fresh)
    (events : List ExecutionEvent) :
    (run transition self events).state.OriginHolds := by
  refine run_invariant (fun _ => True) OriginHolds
    (fun _ _ _ held _ hstep => held.move (.of_transition hstep)) ⟨?_, ?_⟩
    (fun _ _ => trivial)
  · intro attempt stop cause plan h
    rw [fresh.phase] at h
    cases h
  · intro outcome h
    rw [fresh.phase] at h
    cases h

theorem mem_published {effects : List ExecutionEffect}
    {outcome : ExecutionOutcome} :
    outcome ∈ published effects ↔ .publishTerminal outcome ∈ effects := by
  unfold published
  rw [List.mem_filterMap]
  constructor
  · rintro ⟨effect, hmem, heffect⟩
    cases effect <;> cases heffect
    exact hmem
  · intro hmem
    exact ⟨_, hmem, rfl⟩

theorem Move.publishTerminal_mem_iff {self : ExecutionState}
    {event : ExecutionEvent}
    {result : Transition ExecutionState ExecutionEffect}
    (move : Move self event result) (outcome : ExecutionOutcome) :
    .publishTerminal outcome ∈ result.effects ↔
      self.phase.outcome? = none ∧
        result.state.phase = .terminal outcome := by
  have step := move.phaseStep
  rw [← mem_published, ← ExecutionPhase.outcome?_eq_some_iff]
  cases hphase : self.phase.outcome? with
  | none =>
      have hpublished := published_of_phaseStep step
      rw [hphase, Option.toList_none, List.nil_append] at hpublished
      rw [hpublished, Option.mem_toList]
      simp
  | some previous =>
      rw [ExecutionPhase.outcome?_eq_some_iff] at hphase
      rw [hphase] at step
      rw [step.of_terminal.1]
      simp [published]

/--
Over a run from a fresh execution the outcomes published are exactly that of
the final phase, each in the transition that enters it; a terminal execution
stays as it is and emits nothing; its outcome is one that the origin allows,
and a completion carries one of the success codes then in force.
-/
theorem Fresh.terminal_published_once {self : ExecutionState}
    (fresh : self.Fresh) (events : List ExecutionEvent) :
    published (run transition self events).effects =
        (run transition self events).state.phase.outcome?.toList ∧
      (∀ event result,
        (run transition self events).state.transition event = .ok result →
        (∀ outcome, .publishTerminal outcome ∈ result.effects ↔
          (run transition self events).state.phase.outcome? = none ∧
            result.state.phase = .terminal outcome) ∧
        ∀ code, (run transition self events).state.phase.outcome? = none →
          result.state.phase = .terminal (.completed code) →
          code ∈ result.state.successExitCodes) ∧
      ∀ outcome,
        (run transition self events).state.phase = .terminal outcome →
        outcome.PossibleFor self.origin ∧
          ∀ later,
            (run transition (run transition self events).state later
                ).state.phase = .terminal outcome ∧
              (run transition (run transition self events).state later
                ).effects = [] := by
  have held := fresh.run_originHolds events
  refine ⟨?_, ?_, ?_⟩
  · have hpublished := run_published self events
    rwa [fresh.phase] at hpublished
  · intro event result hstep
    have move := Move.of_transition hstep
    refine ⟨move.publishTerminal_mem_iff, ?_⟩
    intro code live ended
    exact (held.outcomeSound move live ended).completed code rfl
  · intro outcome hphase
    have hpossible := held.outcome outcome hphase
    rw [run_origin] at hpossible
    exact ⟨hpossible, run_terminal hphase⟩

/-- A service that never restarts completes with exit code zero. -/
theorem terminal_published_once_completed :
    published
        (run transition sampleService
          [.launchSucceeded Counter.first ⟨7, by decide⟩,
            .processExited Counter.first ⟨0⟩ .zero ⟨9, by decide⟩]).effects =
      (run transition sampleService
        [.launchSucceeded Counter.first ⟨7, by decide⟩,
          .processExited Counter.first ⟨0⟩ .zero
            ⟨9, by decide⟩]).state.phase.outcome?.toList :=
  (Fresh.terminal_published_once (sample_service_fresh _ _) _).1

end ExecutionState

end Susm.Domain
