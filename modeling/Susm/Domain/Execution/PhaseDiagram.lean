import Susm.Domain.Execution.Moves

/-!
# The phase diagram of an execution

`PhaseStep` is the diagram of the phases with the effects on its edges, free
of policies, counters and events.  Every accepted event follows one edge, so
that what holds along all paths of the diagram holds of every run.
-/

namespace Susm.Domain

open Susm.Foundation
open Susm.Foundation.EventMachine

/-- An attempt is being launched or is running and no stop was accepted. -/
def ExecutionPhase.Active (phase : ExecutionPhase)
    (attempt : AttemptNumber) : Prop :=
  phase = .launching attempt ∨ phase = .running attempt

def StopPhase.deadline? : StopPhase → Option StopDeadline
  | .awaitingLaunch deadline | .graceful deadline => some deadline
  | .killing => none

inductive PhaseStep :
    ExecutionPhase → List ExecutionEffect → ExecutionPhase → Prop
  | stay (phase : ExecutionPhase) : PhaseStep phase [] phase
  | launched (attempt : AttemptNumber) :
      PhaseStep (.launching attempt) [] (.running attempt)
  | backedOff {phase : ExecutionPhase} {attempt : AttemptNumber}
      (active : phase.Active attempt) (attemptEnd : AttemptEnd)
      (nextAttempt : AttemptNumber) (retry : RetryOrdinal)
      (retryAt : RetryDeadline) :
      PhaseStep phase [.scheduleRestart retryAt]
        (.restartBackoff attempt attemptEnd nextAttempt retry retryAt)
  | relaunched (attempt : AttemptNumber) (attemptEnd : AttemptEnd)
      (nextAttempt : AttemptNumber) (retry : RetryOrdinal)
      (retryAt : RetryDeadline) :
      PhaseStep (.restartBackoff attempt attemptEnd nextAttempt retry retryAt)
        [.launchAttempt nextAttempt] (.launching nextAttempt)
  | stopAwaitingLaunch (attempt : AttemptNumber) (deadline : StopDeadline)
      (cause : StopCause) (plan : StopPlan) :
      PhaseStep (.launching attempt) [.scheduleStopDeadline deadline]
        (.stopping attempt (.awaitingLaunch deadline) cause plan)
  | stopSignalled {plan : StopPlan} {effect : ExecutionEffect}
      (signal : plan.signal = some effect) (attempt : AttemptNumber)
      (deadline : StopDeadline) (cause : StopCause) :
      PhaseStep (.running attempt) [effect, .scheduleStopDeadline deadline]
        (.stopping attempt (.graceful deadline) cause plan)
  | stopKilled {phase : ExecutionPhase} {attempt : AttemptNumber}
      (active : phase.Active attempt) (cause : StopCause) :
      PhaseStep phase [.terminateJobObject]
        (.stopping attempt .killing cause .kill)
  | launchedIntoStop {plan : StopPlan} {effect : ExecutionEffect}
      (signal : plan.signal = some effect) (attempt : AttemptNumber)
      (deadline : StopDeadline) (cause : StopCause) :
      PhaseStep (.stopping attempt (.awaitingLaunch deadline) cause plan)
        [effect] (.stopping attempt (.graceful deadline) cause plan)
  | stopExpired {stop : StopPhase} {deadline : StopDeadline}
      (waiting : stop.deadline? = some deadline) (attempt : AttemptNumber)
      (cause : StopCause) (plan : StopPlan) :
      PhaseStep (.stopping attempt stop cause plan) [.terminateJobObject]
        (.stopping attempt .killing cause plan)
  | attemptFinished {phase : ExecutionPhase} {attempt : AttemptNumber}
      (active : phase.Active attempt) (outcome : ExecutionOutcome) :
      PhaseStep phase [.publishTerminal outcome] (.terminal outcome)
  | backoffFinished (attempt : AttemptNumber) (attemptEnd : AttemptEnd)
      (nextAttempt : AttemptNumber) (retry : RetryOrdinal)
      (retryAt : RetryDeadline) (outcome : ExecutionOutcome) :
      PhaseStep (.restartBackoff attempt attemptEnd nextAttempt retry retryAt)
        [.publishTerminal outcome] (.terminal outcome)
  | stopFinished (attempt : AttemptNumber) (stop : StopPhase)
      (cause : StopCause) (plan : StopPlan) (forced : Bool) :
      PhaseStep (.stopping attempt stop cause plan)
        [.publishTerminal (cause.outcome forced)]
        (.terminal (cause.outcome forced))

theorem StopPlan.signal_eq_some {plan : StopPlan} {effect : ExecutionEffect}
    (h : plan.signal = some effect) :
    effect = .sendCtrlBreak ∨ effect = .runStopCommand := by
  cases plan <;> cases h
  · exact .inl rfl
  · exact .inr rfl

namespace ExecutionPhase

theorem not_active_stopping {attempt other : AttemptNumber} {stop : StopPhase}
    {cause : StopCause} {plan : StopPlan} :
    ¬ (stopping attempt stop cause plan).Active other := by
  rintro (h | h) <;> cases h

theorem not_active_terminal {outcome : ExecutionOutcome}
    {attempt : AttemptNumber} : ¬ (terminal outcome).Active attempt := by
  rintro (h | h) <;> cases h

end ExecutionPhase

theorem PhaseStep.of_terminal {outcome : ExecutionOutcome}
    {effects : List ExecutionEffect} {after : ExecutionPhase}
    (step : PhaseStep (.terminal outcome) effects after) :
    effects = [] ∧ after = .terminal outcome := by
  cases step with
  | stay => exact ⟨rfl, rfl⟩
  | backedOff active | stopKilled active | attemptFinished active =>
      exact absurd active ExecutionPhase.not_active_terminal

theorem PhaseStep.of_stopping {attempt : AttemptNumber} {stop : StopPhase}
    {cause : StopCause} {plan : StopPlan} {effects : List ExecutionEffect}
    {after : ExecutionPhase}
    (step : PhaseStep (.stopping attempt stop cause plan) effects after) :
    (effects = [] ∧ after = .stopping attempt stop cause plan) ∨
      (∃ deadline effect, stop = .awaitingLaunch deadline ∧
        plan.signal = some effect ∧ effects = [effect] ∧
        after = .stopping attempt (.graceful deadline) cause plan) ∨
      (effects = [.terminateJobObject] ∧
        after = .stopping attempt .killing cause plan) ∨
      ∃ forced, effects = [.publishTerminal (cause.outcome forced)] ∧
        after = .terminal (cause.outcome forced) := by
  cases step with
  | stay => exact .inl ⟨rfl, rfl⟩
  | launchedIntoStop signal =>
      exact .inr (.inl ⟨_, _, rfl, signal, rfl, rfl⟩)
  | stopExpired => exact .inr (.inr (.inl ⟨rfl, rfl⟩))
  | stopFinished => exact .inr (.inr (.inr ⟨_, rfl, rfl⟩))
  | backedOff active | stopKilled active | attemptFinished active =>
      exact absurd active ExecutionPhase.not_active_stopping

namespace ExecutionState

theorem Finish.phaseStep {self : ExecutionState} {phase : ExecutionPhase}
    {attempt : AttemptNumber} {attemptEnd : AttemptEnd}
    {instant : BootInstant}
    {result : Transition ExecutionState ExecutionEffect}
    (finish : Finish self attempt attemptEnd instant result)
    (active : phase.Active attempt) :
    PhaseStep phase result.effects result.state.phase := by
  cases finish with
  | denied => exact .attemptFinished active _
  | retried => exact .backedOff active _ _ _ _

theorem reconsiderBackoff_phaseStep {self : ExecutionState}
    {result : Transition ExecutionState ExecutionEffect}
    (h : self.reconsiderBackoff = .ok result) :
    PhaseStep self.phase result.effects result.state.phase := by
  rcases reconsiderBackoff_cases h with
    ⟨_, _, _, _, _, hphase, ⟨-, rfl⟩ | ⟨-, rfl⟩⟩ | ⟨-, rfl⟩
  · exact .stay _
  · rw [hphase]
    exact .backoffFinished _ _ _ _ _ _
  · exact .stay _

theorem Move.phaseStep {self : ExecutionState} {event : ExecutionEvent}
    {result : Transition ExecutionState ExecutionEffect}
    (move : Move self event result) :
    PhaseStep self.phase result.effects result.state.phase := by
  cases move with
  | launched phase =>
      rw [phase]
      exact .launched _
  | launchedIntoStop phase signal =>
      rw [phase]
      exact .launchedIntoStop signal _ _ _
  | launchFailed phase finish => exact finish.phaseStep (.inl phase)
  | processExited phase finish => exact finish.phaseStep (.inr phase)
  | serviceLost phase service finish => exact finish.phaseStep phase
  | jobLost phase job => exact .attemptFinished phase _
  | stopEnded inPhase ended =>
      rw [finishStop_eq, inPhase]
      exact .stopFinished _ _ _ _ _
  | stopBegan valid allowed due began =>
      rcases began with ⟨phase, rfl, rfl⟩ | ⟨phase, rfl, effect, signal, rfl⟩
      · rw [phase]
        exact .stopAwaitingLaunch _ _ _ _
      · rw [phase]
        exact .stopSignalled signal _ _ _
  | killed valid phase => exact .stopKilled phase _
  | backoffStopped valid phase =>
      rw [finishStop_eq, phase]
      exact .backoffFinished _ _ _ _ _ _
  | relaunched phase =>
      rw [phase]
      exact .relaunched _ _ _ _ _
  | stopExpired phase =>
      rcases phase with phase | phase
      · rw [phase]
        exact .stopExpired rfl _ _ _
      · rw [phase]
        exact .stopExpired rfl _ _ _
  | updated change reconsidered =>
      have hstep := reconsiderBackoff_phaseStep reconsidered
      rcases change with ⟨_, -, -, rfl⟩ | ⟨_, -, rfl⟩ <;> exact hstep
  | unchanged => exact .stay _

theorem run_phases (Holds : ExecutionPhase → List ExecutionEffect → Prop)
    (keeps : ∀ before emitted effects after, Holds before emitted →
      PhaseStep before effects after → Holds after (emitted ++ effects))
    {self : ExecutionState} (emitted : List ExecutionEffect)
    (start : Holds self.phase emitted) (events : List ExecutionEvent) :
    Holds (run transition self events).state.phase
      (emitted ++ (run transition self events).effects) :=
  run_history (fun _ => True)
    (fun (state : ExecutionState) emitted => Holds state.phase emitted)
    (fun _ _ _ _ held _ hstep =>
      keeps _ _ _ _ held (Move.of_transition hstep).phaseStep)
    emitted start (fun _ _ => trivial)

theorem run_terminal {self : ExecutionState} {outcome : ExecutionOutcome}
    (phase : self.phase = .terminal outcome) (events : List ExecutionEvent) :
    (run transition self events).state.phase = .terminal outcome ∧
      (run transition self events).effects = [] := by
  refine run_phases
    (fun phase emitted => phase = .terminal outcome ∧ emitted = [])
    ?_ [] ⟨phase, rfl⟩ events
  rintro before emitted effects after ⟨rfl, rfl⟩ step
  exact step.of_terminal.symm

end ExecutionState

end Susm.Domain
