import Susm.Domain.SupervisorBinding.Budget

/-!
# The end of an attachment

An attached process has been launched and has authenticated, so a failed
discovery, launch or handshake of it can only be a report that comes late.  The
transition answers such a report like the exit of the process, unless the
failure cannot be counted or its retry cannot be scheduled.
-/

namespace Susm.Domain

open Susm.Foundation
open Susm.Foundation.EventMachine

def SupervisorBindingEvent.earlierFailure? :
    SupervisorBindingEvent → Option (SupervisorProcessIdentity × BootInstant)
  | .discoveryFailed process instant _ | .launchFailed process instant
  | .handshakeFailed process instant _ => some (process, instant)
  | _ => none

namespace SupervisorBinding

def isAttached : SupervisorBinding → Bool
  | .attached .. => true
  | _ => false

variable {binding : SupervisorBinding} {policy : SupervisorLaunchPolicy}
  {process : SupervisorProcessIdentity} {instant : BootInstant}
  {reaction : Transition (Option SupervisorBinding) SupervisorBindingEffect}

/--
Another failure of the process can be counted, and the retry after it, where
the policy permits one, has an incarnation and a deadline.
-/
structure FailureFits (policy : SupervisorLaunchPolicy)
    (binding : SupervisorBinding) (instant : BootInstant) : Prop where
  counted : binding.failures.get + 1 < 2 ^ 32
  incarnation : binding.failures.get + 1 < policy.maxFailures.get →
    binding.process.incarnation.get + 1 < 2 ^ 32
  deadline : binding.failures.get + 1 < policy.maxFailures.get →
    ∃ retry : RetryOrdinal, retry.get = binding.failures.get + 1 ∧
      instant.ticks + BootInstant.ticksOf (policy.backoff.delayFor retry) <
        tickLimit

theorem FailureFits.of_processFailed
    (h : binding.processFailed process instant policy = .ok reaction) :
    FailureFits policy binding instant := by
  unfold processFailed at h
  split at h
  · cases h
  rename_i current failures hfailing
  obtain ⟨hwaits, rfl, rfl⟩ := failing?_eq_some_iff.mp hfailing
  split at h
  · cases h
  rename_i hcurrent
  rw [not_ne_iff] at hcurrent
  subst hcurrent
  obtain ⟨counted, hcounted, h⟩ := bind_eq_ok_iff.mp h
  have hget : binding.failures.get + 1 = counted.get :=
    SupervisorFailureCount.new?_eq_some_iff.mp (orError_eq_ok.mp hcounted)
  have hlimit := counted.lt
  cases hpermits : policy.permitsRetryAfter counted with
  | false =>
      simp only [SupervisorLaunchPolicy.permitsRetryAfter, ← hget,
        decide_eq_false_iff_not] at hpermits
      exact ⟨by omega, fun hless => absurd hless hpermits,
        fun hless => absurd hless hpermits⟩
  | true =>
      rw [hpermits] at h
      obtain ⟨next, hnext, h⟩ := bind_eq_ok_iff.mp h
      obtain ⟨retry, hretry, h⟩ := bind_eq_ok_iff.mp h
      obtain ⟨retryAt, hretryAt, h⟩ := bind_eq_ok_iff.mp h
      have hincarnation := (nextIncarnation_eq_some (orError_eq_ok.mp hnext)).2
      have hordinal : counted.get = retry.get :=
        Counter.new_eq_some_iff.mp (orError_eq_ok.mp hretry)
      obtain ⟨deadline, hdeadline, -⟩ :=
        Option.map_eq_some_iff.mp (orError_eq_ok.mp hretryAt)
      constructor
      case counted => omega
      case incarnation =>
        have hlt := next.incarnation.lt
        rw [CounterKind.limit] at hlt
        omega
      case deadline =>
        intro _
        refine ⟨retry, by omega, ?_⟩
        rw [BootInstant.checkedAdd_eq_some_iff.mp hdeadline]
        exact deadline.lt

theorem FailureFits.processFailed_ok (fits : FailureFits policy binding instant)
    (working : binding.waits = false) :
    ∃ reaction,
      binding.processFailed binding.process instant policy = .ok reaction := by
  cases h : binding.processFailed binding.process instant policy with
  | ok reaction => exact ⟨reaction, rfl⟩
  | error error =>
      exfalso
      unfold processFailed at h
      rw [failing?_eq_some_iff.mpr ⟨working, rfl, rfl⟩] at h
      simp only [ne_eq, not_true_eq_false, if_false] at h
      rcases bind_eq_error_iff.mp h with h | ⟨counted, hcounted, h⟩
      · have hnone := SupervisorFailureCount.new?_eq_none_iff.mp
          (orError_eq_error.mp h).1
        have hcounted := fits.counted
        omega
      have hget : binding.failures.get + 1 = counted.get :=
        SupervisorFailureCount.new?_eq_some_iff.mp (orError_eq_ok.mp hcounted)
      cases hpermits : policy.permitsRetryAfter counted with
      | false =>
          rw [hpermits] at h
          cases h
      | true =>
          rw [hpermits] at h
          simp only [SupervisorLaunchPolicy.permitsRetryAfter, ← hget,
            decide_eq_true_eq] at hpermits
          have hincarnation := fits.incarnation hpermits
          obtain ⟨ordinal, hordinal, hdeadline⟩ := fits.deadline hpermits
          rcases bind_eq_error_iff.mp h with h | ⟨next, hnext, h⟩
          · have hnone := Counter.next_eq_none_iff.mp
              (Option.map_eq_none_iff.mp (orError_eq_error.mp h).1)
            rw [CounterKind.limit] at hnone
            omega
          rcases bind_eq_error_iff.mp h with h | ⟨retry, hretry, h⟩
          · have hnone := Counter.new_eq_none_iff.mp (orError_eq_error.mp h).1
            have hlt := ordinal.lt
            omega
          rcases bind_eq_error_iff.mp h with h | ⟨retryAt, hretryAt, h⟩
          · have hsame : retry = ordinal := Counter.ext <| by
              have hretry : counted.get = retry.get :=
                Counter.new_eq_some_iff.mp (orError_eq_ok.mp hretry)
              omega
            have hnone := BootInstant.checkedAdd_eq_none_iff.mp
              (Option.map_eq_none_iff.mp (orError_eq_error.mp h).1)
            rw [hsame] at hnone
            omega
          · cases h

/-! ## Leaving an attachment -/

/--
An attached binding is left only when its process has exited or its execution
has ended, and a late report about its process is rejected.
-/
structure KeepsAttached (policy : SupervisorLaunchPolicy)
    (state : Option SupervisorBinding) (input : BindingInput) : Prop where
  leaves : ∀ binding reaction, state = some binding →
    binding.isAttached = true → step policy state input = .ok reaction →
    (∃ next, reaction.state = some next ∧ next.isAttached = true) ∨
      input.2 = .executionTerminated ∨
      ∃ instant, input.2 = .supervisorExited binding.process instant
  late : ∀ binding instant, state = some binding → binding.isAttached = true →
    input.2.earlierFailure? = some (binding.process, instant) →
    ∃ error, step policy state input = .error error ∧
      deliver (step policy) state input = ⟨state, []⟩

/-- A late report about the attached process that the transition answers. -/
def AnswersLate (policy : SupervisorLaunchPolicy)
    (state : Option SupervisorBinding) (input : BindingInput) : Prop :=
  ∃ binding instant, state = some binding ∧ binding.isAttached = true ∧
    input.2.earlierFailure? = some (binding.process, instant) ∧
    FailureFits policy binding instant

theorem processFailed_current
    (h : binding.processFailed process instant policy = .ok reaction) :
    process = binding.process := by
  by_contra other
  obtain ⟨error, rejected⟩ := @transition_foreign binding policy process
    (.supervisorExited process instant) ⟨0⟩ rfl other
  rw [transition, h] at rejected
  cases rejected

theorem transition_earlierFailure {event : SupervisorBindingEvent}
    {executionId : ExecutionId}
    (h : event.earlierFailure? = some (process, instant)) :
    binding.transition event executionId policy =
      binding.processFailed process instant policy := by
  cases event <;> cases h <;> rfl

theorem BindingMove.leaves_attached {event : SupervisorBindingEvent}
    {effects : List SupervisorBindingEffect} {after : Option SupervisorBinding}
    {executionId : ExecutionId} (attached : binding.isAttached = true)
    (h : binding.transition event executionId policy = .ok ⟨after, effects⟩)
    (timely : event.earlierFailure? = none) :
    event = .executionTerminated ∨
      ∃ instant, event = .supervisorExited binding.process instant := by
  cases binding with
  | attached process failures lastSequence =>
      cases event with
      | discoveryFailed | handshakeFailed | launchFailed => cases timely
      | executionTerminated => exact .inl rfl
      | supervisorExited other instant =>
          cases BindingMove.of_transition h with
          | progressed _ healthy => cases healthy
          | failed named | exhausted named =>
              cases named
              exact .inr ⟨instant, rfl⟩
      | discoveryAttached | launchSucceeded | handshakeAccepted
      | retryDeadlineReached => cases h
  | discovering | launchPending | awaitingHandshake | restartBackoff =>
      cases attached

theorem keepsAttached_iff (policy : SupervisorLaunchPolicy)
    (state : Option SupervisorBinding) (input : BindingInput) :
    KeepsAttached policy state input ↔ ¬ AnswersLate policy state input := by
  obtain ⟨executionId, event⟩ := input
  constructor
  · rintro keeps ⟨binding, instant, rfl, attached, late, fits⟩
    have working : binding.waits = false := by
      cases binding <;> first | rfl | cases attached
    obtain ⟨error, rejected, -⟩ := keeps.late binding instant rfl attached late
    obtain ⟨reaction, answered⟩ := fits.processFailed_ok working
    simp only [step, transition_earlierFailure late, answered] at rejected
    cases rejected
  · intro unanswered
    constructor
    case leaves =>
      rintro binding ⟨after, effects⟩ rfl attached accepted
      cases late : event.earlierFailure? with
      | none =>
          exact .inr (BindingMove.leaves_attached attached accepted late)
      | some report =>
          obtain ⟨process, instant⟩ := report
          simp only [step, transition_earlierFailure late] at accepted
          have current := processFailed_current accepted
          subst current
          exact absurd ⟨binding, instant, rfl, attached, late,
            .of_processFailed accepted⟩ unanswered
    case late =>
      rintro binding instant rfl attached late
      cases h : step policy (some binding) (executionId, event) with
      | error error => exact ⟨error, rfl, deliver_error h⟩
      | ok reaction =>
          refine absurd ⟨binding, instant, rfl, attached, late, ?_⟩ unanswered
          simp only [step, transition_earlierFailure late] at h
          exact .of_processFailed h

/--
A run abandons no attached supervisor before it is gone exactly when no report
of a failed discovery, launch or handshake reaches an attached process that
bears its name and whose failure fits.
-/
theorem attached_until_gone_iff (policy : SupervisorLaunchPolicy)
    (start : Option SupervisorBinding) (events : List BindingInput) :
    (∀ before input after, events = before ++ input :: after →
      KeepsAttached policy (run (step policy) start before).state input) ↔
    ∀ before input after, events = before ++ input :: after →
      ¬ AnswersLate policy (run (step policy) start before).state input := by
  constructor
  · intro keeps before input after split
    exact (keepsAttached_iff policy _ input).mp (keeps before input after split)
  · intro timely before input after split
    exact (keepsAttached_iff policy _ input).mpr
      (timely before input after split)

def exampleProcess : SupervisorProcessIdentity := ⟨⟨7⟩, Counter.first⟩

def lateTimeout : List BindingInput :=
  [(⟨1⟩, .launchSucceeded exampleProcess ⟨20_000_000, by decide⟩),
    (⟨1⟩, .handshakeAccepted exampleProcess ⟨17, by decide⟩),
    (⟨1⟩, .handshakeFailed exampleProcess ⟨70_000_000, by decide⟩
      .handshakeTimedOut)]

/-- The late timeout costs the attached process a failure and its place. -/
theorem attached_replaced_by_late_timeout :
    ¬ ∀ before input after, lateTimeout = before ++ input :: after →
      KeepsAttached .default
        (run (step .default) (initial ⟨7⟩) before).state input := by
  intro keeps
  have reached : (run (step .default) (initial ⟨7⟩)
      (lateTimeout.take 2)).state =
        some (.attached exampleProcess .zero ⟨17, by decide⟩) := by
    decide +kernel
  refine (keepsAttached_iff .default _ _).mp
    (keeps (lateTimeout.take 2) _ [] rfl) ?_
  rw [reached]
  refine ⟨_, _, rfl, rfl, rfl, ?_⟩
  constructor
  case counted => decide
  case incarnation => decide
  case deadline => exact fun _ => ⟨Counter.first, rfl, by decide +kernel⟩

end SupervisorBinding

end Susm.Domain
