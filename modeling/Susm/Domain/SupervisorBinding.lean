import Susm.Domain.Execution
import Susm.Foundation.EventHistory

/-!
# The supervisor binding

The process that implements an active execution: it is launched, it
authenticates, it fails and is replaced by the next incarnation until the
policy permits no further failure.  An execution without a binding has none to
deliver an event to.
-/

namespace Susm.Domain

open Susm.Foundation

/-- An unsigned 64-bit sequence. -/
structure ObservationSequence where
  get : Nat
  lt : get < 2 ^ 64
  deriving DecidableEq

structure SupervisorProcessIdentity where
  supervisorId : SupervisorId
  incarnation : SupervisorIncarnation
  deriving DecidableEq

def SupervisorProcessIdentity.nextIncarnation
    (self : SupervisorProcessIdentity) : Option SupervisorProcessIdentity :=
  self.incarnation.next.map fun incarnation => ⟨self.supervisorId, incarnation⟩

structure SupervisorFailureCount where
  get : Nat
  lt : get < 2 ^ 32
  deriving DecidableEq

namespace SupervisorFailureCount

def zero : SupervisorFailureCount := ⟨0, by decide⟩

@[irreducible] def new? (value : Nat) : Option SupervisorFailureCount :=
  if h : value < 2 ^ 32 then some ⟨value, h⟩ else none

def afterFailure (self : SupervisorFailureCount) :
    Option SupervisorFailureCount := new? (self.get + 1)

def retryOrdinal (self : SupervisorFailureCount) : Option RetryOrdinal :=
  Counter.new self.get

theorem new?_eq_some_iff {value : Nat} {count : SupervisorFailureCount} :
    new? value = some count ↔ value = count.get := by
  unfold new?
  constructor
  · intro h
    split at h
    · cases h
      rfl
    · contradiction
  · rintro rfl
    rw [dif_pos count.lt]

theorem new?_eq_none_iff {value : Nat} :
    new? value = none ↔ 2 ^ 32 ≤ value := by
  simp [new?]

end SupervisorFailureCount

structure SupervisorLaunchPolicy where
  maxFailures : NonZeroU32
  backoff : BackoffPolicy
  handshakeTimeout : NonZeroDuration
  discoveryTimeout : NonZeroDuration
  deriving DecidableEq

def SupervisorLaunchPolicy.default : SupervisorLaunchPolicy where
  maxFailures := ⟨8, by decide, by decide⟩
  backoff := {
    initial := ⟨.fromMillis 100 (by decide), by decide⟩
    multiplier := .two
    maximum := ⟨.fromMillis 5000 (by decide), by decide⟩
    initial_le_maximum := by decide }
  handshakeTimeout := ⟨.fromMillis 5000 (by decide), by decide⟩
  discoveryTimeout := ⟨.fromMillis 3000 (by decide), by decide⟩

def SupervisorLaunchPolicy.permitsRetryAfter (self : SupervisorLaunchPolicy)
    (failures : SupervisorFailureCount) : Bool :=
  failures.get < self.maxFailures.get

inductive HandshakeRejection where
  | authenticationFailed
  | wrongManagerSession
  | wrongExecution
  | wrongSupervisor
  | wrongExecutionConfig
  | incompatibleProtocol
  | staleObservation
  deriving DecidableEq

inductive SupervisorFailure where
  | processMissing
  | processExited
  | handshakeTimedOut
  | handshakeRejected (rejection : HandshakeRejection)
  deriving DecidableEq

inductive SupervisorBinding where
  | discovering (process : SupervisorProcessIdentity)
      (failures : SupervisorFailureCount) (deadline : DiscoveryDeadline)
  | launchPending (process : SupervisorProcessIdentity)
      (failures : SupervisorFailureCount)
  | awaitingHandshake (process : SupervisorProcessIdentity)
      (failures : SupervisorFailureCount) (deadline : HandshakeDeadline)
  | attached (process : SupervisorProcessIdentity)
      (failures : SupervisorFailureCount) (lastSequence : ObservationSequence)
  | restartBackoff (nextProcess : SupervisorProcessIdentity)
      (failures : SupervisorFailureCount) (retryAt : RetryDeadline)
  deriving DecidableEq

/-- `instant` is the boot instant that the source calls `at`. -/
inductive SupervisorBindingEvent where
  | discoveryAttached (process : SupervisorProcessIdentity)
      (lastSequence : ObservationSequence)
  | discoveryFailed (process : SupervisorProcessIdentity)
      (instant : BootInstant) (failure : SupervisorFailure)
  | launchSucceeded (process : SupervisorProcessIdentity)
      (instant : BootInstant)
  | launchFailed (process : SupervisorProcessIdentity) (instant : BootInstant)
  | handshakeAccepted (process : SupervisorProcessIdentity)
      (lastSequence : ObservationSequence)
  | handshakeFailed (process : SupervisorProcessIdentity)
      (instant : BootInstant) (failure : SupervisorFailure)
  | supervisorExited (process : SupervisorProcessIdentity)
      (instant : BootInstant)
  | retryDeadlineReached (process : SupervisorProcessIdentity)
      (deadline : RetryDeadline)
  | executionTerminated
  deriving DecidableEq

inductive SupervisorBindingEffect where
  | launchSupervisor (process : SupervisorProcessIdentity)
  | armDiscoveryDeadline (deadline : DiscoveryDeadline)
  | armHandshakeDeadline (deadline : HandshakeDeadline)
  | armRetryDeadline (deadline : RetryDeadline)
  | adoptSupervisor (process : SupervisorProcessIdentity)
      (executionId : ExecutionId) (fromSequence : ObservationSequence)
  | requestSupervisorShutdown (process : SupervisorProcessIdentity)
  | reportSupervisorUnavailable
  deriving DecidableEq

inductive SupervisorBindingError where
  | unexpectedEvent
  | staleProcess
  | staleDeadline
  | failureCountOverflow
  | incarnationOverflow
  | deadlineOverflow
  deriving DecidableEq, Repr

abbrev SupervisorBindingResult :=
  Except SupervisorBindingError
    (Transition (Option SupervisorBinding) SupervisorBindingEffect)

namespace SupervisorBinding

def deadlineAfter {kind : DeadlineKind} (instant : BootInstant)
    (delay : Duration) : Except SupervisorBindingError (Deadline kind) :=
  orError ((instant.checkedAdd delay).map Deadline.mk) .deadlineOverflow

def discoveryAttached (self : SupervisorBinding)
    (process : SupervisorProcessIdentity) (executionId : ExecutionId)
    (lastSequence : ObservationSequence) : SupervisorBindingResult :=
  match self with
  | .discovering current failures _ =>
      if current ≠ process then .error .staleProcess
      else
        .ok (.new (some (.attached process failures lastSequence))
          [.adoptSupervisor process executionId lastSequence])
  | _ => .error .unexpectedEvent

def launchSucceeded (self : SupervisorBinding)
    (process : SupervisorProcessIdentity) (instant : BootInstant)
    (policy : SupervisorLaunchPolicy) : SupervisorBindingResult :=
  match self with
  | .launchPending current failures =>
      if current ≠ process then .error .staleProcess
      else do
        let deadline ← deadlineAfter instant policy.handshakeTimeout.get
        return .new (some (.awaitingHandshake process failures deadline))
          [.armHandshakeDeadline deadline]
  | _ => .error .unexpectedEvent

def handshakeAccepted (self : SupervisorBinding)
    (process : SupervisorProcessIdentity)
    (lastSequence : ObservationSequence) : SupervisorBindingResult :=
  match self with
  | .awaitingHandshake current failures _ =>
      if current ≠ process then .error .staleProcess
      else .ok (.withoutEffects (some (.attached process failures lastSequence)))
  | _ => .error .unexpectedEvent

def failing? : SupervisorBinding →
    Option (SupervisorProcessIdentity × SupervisorFailureCount)
  | .discovering process failures _ | .launchPending process failures
  | .awaitingHandshake process failures _ | .attached process failures _ =>
      some (process, failures)
  | .restartBackoff .. => none

def processFailed (self : SupervisorBinding)
    (process : SupervisorProcessIdentity) (instant : BootInstant)
    (policy : SupervisorLaunchPolicy) : SupervisorBindingResult :=
  match self.failing? with
  | none => .error .unexpectedEvent
  | some (current, failures) =>
      if current ≠ process then .error .staleProcess
      else do
        let failures ← orError failures.afterFailure .failureCountOverflow
        if !policy.permitsRetryAfter failures then
          return .new none [.reportSupervisorUnavailable]
        let nextProcess ← orError process.nextIncarnation .incarnationOverflow
        let retry ← orError failures.retryOrdinal .failureCountOverflow
        let retryAt ← deadlineAfter instant (policy.backoff.delayFor retry)
        return .new (some (.restartBackoff nextProcess failures retryAt))
          [.armRetryDeadline retryAt]

def retryDeadlineReached (self : SupervisorBinding)
    (process : SupervisorProcessIdentity) (deadline : RetryDeadline) :
    SupervisorBindingResult :=
  match self with
  | .restartBackoff nextProcess failures retryAt =>
      if nextProcess ≠ process then .error .staleProcess
      else if retryAt ≠ deadline then .error .staleDeadline
      else
        .ok (.new (some (.launchPending process failures))
          [.launchSupervisor process])
  | _ => .error .unexpectedEvent

def terminate (self : SupervisorBinding) :
    Transition (Option SupervisorBinding) SupervisorBindingEffect :=
  match self with
  | .discovering process .. | .awaitingHandshake process ..
  | .attached process .. => .new none [.requestSupervisorShutdown process]
  | .launchPending .. | .restartBackoff .. => .new none []

def transition (self : SupervisorBinding) (event : SupervisorBindingEvent)
    (executionId : ExecutionId) (policy : SupervisorLaunchPolicy) :
    SupervisorBindingResult :=
  match event with
  | .discoveryAttached process lastSequence =>
      self.discoveryAttached process executionId lastSequence
  | .discoveryFailed process instant _ | .handshakeFailed process instant _
  | .supervisorExited process instant | .launchFailed process instant =>
      self.processFailed process instant policy
  | .launchSucceeded process instant =>
      self.launchSucceeded process instant policy
  | .handshakeAccepted process lastSequence =>
      self.handshakeAccepted process lastSequence
  | .retryDeadlineReached process deadline =>
      self.retryDeadlineReached process deadline
  | .executionTerminated => .ok self.terminate

end SupervisorBinding

end Susm.Domain
