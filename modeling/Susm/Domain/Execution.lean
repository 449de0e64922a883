import Susm.Domain.Restart
import Susm.Foundation.Validation
import Mathlib.Data.Finset.Insert

/-!
# The execution state machine

One execution of a workload: its attempts, restart backoff, stopping and
terminal outcome.  Every event is answered by `ExecutionState.transition`,
which either rejects it or returns the next state and the declarative effects
the supervisor has to carry out.
-/

namespace Susm.Domain

open Susm.Foundation

abbrev Transition := Reaction

namespace Transition

def new {State Effect : Type} (state : State) (effects : List Effect) :
    Transition State Effect := ⟨state, effects⟩

def withoutEffects {State Effect : Type} (state : State) :
    Transition State Effect := ⟨state, []⟩

end Transition

structure ExitCode where
  get : UInt32
  deriving DecidableEq, Repr

structure Win32ErrorCode where
  get : UInt32
  deriving DecidableEq, Repr

inductive JobExecutionOrigin where
  | manual
  | enabled (managerSessionId : ManagerSessionId)
  | rerun (previousExecutionId : ExecutionId)
  deriving DecidableEq

inductive ExecutionOrigin where
  | serviceIntent (revision : IntentRevision)
  | job (origin : JobExecutionOrigin)
  deriving DecidableEq

inductive StopPhase where
  | awaitingLaunch (deadline : StopDeadline)
  | graceful (deadline : StopDeadline)
  | killing
  deriving DecidableEq

inductive StopPlan where
  | ctrlBreak (timeout : Duration)
  | command (timeout : Duration)
  | kill
  deriving DecidableEq

inductive ServiceStopCause where
  | stop
  | restart
  | managerSessionEnded
  deriving DecidableEq

inductive JobCancelCause where
  | cancel
  | rerun
  | managerSessionEnded
  deriving DecidableEq

inductive StopCause where
  | service (cause : ServiceStopCause)
  | job (cause : JobCancelCause)
  deriving DecidableEq

inductive PreflightFailure where
  | environmentVariableMissing
  | executableNotFound
  | workingDirectoryUnavailable
  | commandLineTooLong
  deriving DecidableEq

inductive LaunchFailure where
  | preflight (failure : PreflightFailure)
  | win32 (error : Win32ErrorCode)
  deriving DecidableEq

inductive AttemptEnd where
  | launchFailed (failure : LaunchFailure)
  | exited (exitCode : ExitCode) (ranFor : Duration)
  | killed
  | supervisorLost
  deriving DecidableEq

inductive ExecutionFailure where
  | attempt (attempt : AttemptNumber) (attemptEnd : AttemptEnd)
  | supervisorUnavailable
  deriving DecidableEq

inductive InfrastructureFailure where
  | supervisorLost (attempt : AttemptNumber)
  deriving DecidableEq

inductive ExecutionOutcome where
  | completed (exitCode : ExitCode)
  | failed (failure : ExecutionFailure)
  | outcomeUnknown (failure : InfrastructureFailure)
  | stopped (cause : ServiceStopCause) (forced : Bool)
  | cancelled (cause : JobCancelCause) (forced : Bool)
  deriving DecidableEq

inductive ExecutionPhase where
  | launching (attempt : AttemptNumber)
  | running (attempt : AttemptNumber)
  | restartBackoff (previousAttempt : AttemptNumber)
      (previousEnd : AttemptEnd) (nextAttempt : AttemptNumber)
      (retry : RetryOrdinal) (retryAt : RetryDeadline)
  | stopping (attempt : AttemptNumber) (phase : StopPhase)
      (cause : StopCause) (plan : StopPlan)
  | terminal (outcome : ExecutionOutcome)
  deriving DecidableEq

structure ExecutionState where
  id : ExecutionId
  workloadId : WorkloadId
  origin : ExecutionOrigin
  sourceDefinition : ProcessDefinitionHash
  executionConfig : ExecutionConfigHash
  successExitCodes : Finset ExitCode
  restartPolicy : ExecutionRestartPolicy
  lastRetry : Option RetryOrdinal
  phase : ExecutionPhase
  deriving DecidableEq

/-- `instant` is the boot instant that the source calls `at`. -/
inductive ExecutionEvent where
  | launchSucceeded (attempt : AttemptNumber) (instant : BootInstant)
  | launchFailed (attempt : AttemptNumber) (failure : LaunchFailure)
      (instant : BootInstant)
  | processExited (attempt : AttemptNumber) (exitCode : ExitCode)
      (ranFor : Duration) (instant : BootInstant)
  | stopRequested (cause : StopCause) (plan : StopPlan)
      (instant : BootInstant)
  | restartDeadlineReached (deadline : RetryDeadline)
  | stopDeadlineReached (deadline : StopDeadline)
  | restartPolicyChanged (policy : ExecutionRestartPolicy)
  | successExitCodesChanged (codes : Finset ExitCode)
  | supervisorLost (instant : BootInstant)
  deriving DecidableEq

inductive ExecutionEffect where
  | launchAttempt (attempt : AttemptNumber)
  | scheduleRestart (retryAt : RetryDeadline)
  | sendCtrlBreak
  | runStopCommand
  | scheduleStopDeadline (deadline : StopDeadline)
  | terminateJobObject
  | publishTerminal (outcome : ExecutionOutcome)
  deriving DecidableEq

inductive ExecutionTransitionError where
  | unexpectedEvent
  | staleAttempt
  | staleDeadline
  | attemptOverflow
  | retryOverflow
  | deadlineOverflow
  | policyKindMismatch
  deriving DecidableEq, Repr

abbrev ExecutionResult :=
  Except ExecutionTransitionError (Transition ExecutionState ExecutionEffect)

namespace ExecutionState

def terminal (self : ExecutionState) (outcome : ExecutionOutcome) :
    Transition ExecutionState ExecutionEffect :=
  .new { self with phase := .terminal outcome } [.publishTerminal outcome]

def finishStop (self : ExecutionState) (cause : StopCause) (forced : Bool) :
    Transition ExecutionState ExecutionEffect :=
  match cause with
  | .service cause => self.terminal (.stopped cause forced)
  | .job cause => self.terminal (.cancelled cause forced)

def attemptOutcome (self : ExecutionState) (attempt : AttemptNumber)
    (attemptEnd : AttemptEnd) : ExecutionOutcome :=
  match attemptEnd with
  | .exited exitCode _ =>
      if exitCode ∈ self.successExitCodes then .completed exitCode
      else .failed (.attempt attempt attemptEnd)
  | _ => .failed (.attempt attempt attemptEnd)

def finishTerminal (self : ExecutionState) (attempt : AttemptNumber)
    (attemptEnd : AttemptEnd) : Transition ExecutionState ExecutionEffect :=
  self.terminal (self.attemptOutcome attempt attemptEnd)

def stopDeadline (instant : BootInstant) (timeout : Duration) :
    Except ExecutionTransitionError StopDeadline :=
  orError ((instant.checkedAdd timeout).map Deadline.mk) .deadlineOverflow

def validateStopCause (self : ExecutionState) (cause : StopCause) :
    Except ExecutionTransitionError Unit :=
  match self.origin, cause with
  | .serviceIntent _, .service _ => .ok ()
  | .job _, .job _ => .ok ()
  | _, _ => .error .unexpectedEvent

def validatePolicyKind (self : ExecutionState)
    (policy : ExecutionRestartPolicy) :
    Except ExecutionTransitionError Unit :=
  match self.origin, policy with
  | .serviceIntent _, .service _ => .ok ()
  | .job _, .job _ => .ok ()
  | _, _ => .error .policyKindMismatch

def backoff (self : ExecutionState) :
    Except ExecutionTransitionError BackoffPolicy :=
  match self.origin, self.restartPolicy with
  | .serviceIntent _, .service (.onFailure policy) => .ok policy.backoff
  | .serviceIntent _, .service (.always policy) => .ok policy.backoff
  | .job _, .job (.onFailure policy) => .ok policy.backoff
  | _, _ => .error .policyKindMismatch

def attemptFailed (self : ExecutionState) (attemptEnd : AttemptEnd) : Bool :=
  match attemptEnd with
  | .exited exitCode _ => exitCode ∉ self.successExitCodes
  | .launchFailed _ | .killed | .supervisorLost => true

def limitPermits (limit : ServiceRetryLimit) (retry : RetryOrdinal) : Bool :=
  match limit with
  | .finite maximum => retry.get ≤ maximum.get
  | .unlimited => true

def policyPermits (self : ExecutionState) (attemptEnd : AttemptEnd)
    (retry : RetryOrdinal) : Except ExecutionTransitionError Bool :=
  let failed := self.attemptFailed attemptEnd
  match self.origin, self.restartPolicy with
  | .serviceIntent _, .service policy =>
      match policy with
      | .never => .ok false
      | .onFailure policy =>
          if failed then .ok (limitPermits policy.limit retry) else .ok false
      | .always policy => .ok (limitPermits policy.limit retry)
  | .job _, .job policy =>
      match policy with
      | .never => .ok false
      | .onFailure policy =>
          .ok (failed && retry.get ≤ policy.maxRestarts.get)
  | _, _ => .error .policyKindMismatch

/-- A service attempt that ran for at least `reset_after` clears the count. -/
def resetRetries (self : ExecutionState) (attemptEnd : AttemptEnd) :
    ExecutionState :=
  match self.origin, attemptEnd, self.restartPolicy with
  | .serviceIntent _, .exited _ ranFor, .service (.onFailure policy)
  | .serviceIntent _, .exited _ ranFor, .service (.always policy) =>
      if policy.resetAfter.get ≤ ranFor then { self with lastRetry := none }
      else self
  | _, _, _ => self

def nextRetry (lastRetry : Option RetryOrdinal) :
    Except ExecutionTransitionError RetryOrdinal :=
  match lastRetry with
  | some previous => orError previous.next .retryOverflow
  | none => .ok Counter.first

def finishAttempt (self : ExecutionState) (attempt : AttemptNumber)
    (attemptEnd : AttemptEnd) (instant : BootInstant) : ExecutionResult := do
  let self := self.resetRetries attemptEnd
  let retry ← nextRetry self.lastRetry
  let permitted ← self.policyPermits attemptEnd retry
  if !permitted then
    return self.finishTerminal attempt attemptEnd
  let nextAttempt ← orError attempt.next .attemptOverflow
  let backoff ← self.backoff
  let delay := backoff.delayFor retry
  let retryAt ← orError
    ((instant.checkedAdd delay).map Deadline.mk) .deadlineOverflow
  return .new
    { self with
      lastRetry := some retry
      phase := .restartBackoff attempt attemptEnd nextAttempt retry retryAt }
    [.scheduleRestart retryAt]

def launchSucceeded (self : ExecutionState) (attempt : AttemptNumber) :
    ExecutionResult :=
  match self.phase with
  | .launching current =>
      if current = attempt then
        .ok (.withoutEffects { self with phase := .running attempt })
      else .error .staleAttempt
  | .stopping current (.awaitingLaunch deadline) cause plan =>
      if current = attempt then
        let self := { self with
          phase := .stopping attempt (.graceful deadline) cause plan }
        match plan with
        | .ctrlBreak _ => .ok (.new self [.sendCtrlBreak])
        | .command _ => .ok (.new self [.runStopCommand])
        | .kill => .error .unexpectedEvent
      else .error .staleAttempt
  | .stopping current _ _ _ =>
      if current ≠ attempt then .error .staleAttempt
      else .error .unexpectedEvent
  | _ => .error .unexpectedEvent

def launchFailed (self : ExecutionState) (attempt : AttemptNumber)
    (failure : LaunchFailure) (instant : BootInstant) : ExecutionResult :=
  match self.phase with
  | .launching current =>
      if current = attempt then
        self.finishAttempt attempt (.launchFailed failure) instant
      else .error .staleAttempt
  | .stopping current _ cause _ =>
      if current = attempt then .ok (self.finishStop cause false)
      else .error .staleAttempt
  | _ => .error .unexpectedEvent

def processExited (self : ExecutionState) (attempt : AttemptNumber)
    (exitCode : ExitCode) (ranFor : Duration) (instant : BootInstant) :
    ExecutionResult :=
  match self.phase with
  | .running current =>
      if current = attempt then
        self.finishAttempt attempt (.exited exitCode ranFor) instant
      else .error .staleAttempt
  | .stopping current phase cause _ =>
      if current = attempt then
        .ok (self.finishStop cause (phase = .killing))
      else .error .staleAttempt
  | _ => .error .unexpectedEvent

/-- Enter `Killing` at once. -/
def kill (self : ExecutionState) (attempt : AttemptNumber)
    (cause : StopCause) (plan : StopPlan) :
    Transition ExecutionState ExecutionEffect :=
  .new { self with phase := .stopping attempt .killing cause plan }
    [.terminateJobObject]

def stopRequested (self : ExecutionState) (cause : StopCause)
    (plan : StopPlan) (instant : BootInstant) : ExecutionResult := do
  self.validateStopCause cause
  match self.phase with
  | .launching attempt =>
      match plan with
      | .kill => return self.kill attempt cause plan
      | .ctrlBreak timeout | .command timeout =>
          let deadline ← stopDeadline instant timeout
          return .new
            { self with
              phase := .stopping attempt (.awaitingLaunch deadline) cause plan }
            [.scheduleStopDeadline deadline]
  | .running attempt =>
      match plan with
      | .kill => return self.kill attempt cause plan
      | .ctrlBreak timeout =>
          let deadline ← stopDeadline instant timeout
          return .new
            { self with
              phase := .stopping attempt (.graceful deadline) cause plan }
            [.sendCtrlBreak, .scheduleStopDeadline deadline]
      | .command timeout =>
          let deadline ← stopDeadline instant timeout
          return .new
            { self with
              phase := .stopping attempt (.graceful deadline) cause plan }
            [.runStopCommand, .scheduleStopDeadline deadline]
  | .restartBackoff .. => return self.finishStop cause false
  | .stopping .. | .terminal _ => return .withoutEffects self

def restartDeadlineReached (self : ExecutionState)
    (deadline : RetryDeadline) : ExecutionResult :=
  match self.phase with
  | .restartBackoff _ _ nextAttempt _ retryAt =>
      if retryAt = deadline then
        .ok (.new { self with phase := .launching nextAttempt }
          [.launchAttempt nextAttempt])
      else .error .staleDeadline
  | _ => .error .unexpectedEvent

def stopDeadlineReached (self : ExecutionState)
    (deadline : StopDeadline) : ExecutionResult :=
  match self.phase with
  | .stopping attempt (.awaitingLaunch current) cause plan
  | .stopping attempt (.graceful current) cause plan =>
      if current = deadline then .ok (self.kill attempt cause plan)
      else .error .staleDeadline
  | .stopping _ .killing _ _ => .ok (.withoutEffects self)
  | _ => .error .unexpectedEvent

def reconsiderBackoff (self : ExecutionState) : ExecutionResult := do
  match self.phase with
  | .restartBackoff previousAttempt previousEnd _ retry _ =>
      let permitted ← self.policyPermits previousEnd retry
      if permitted then return .withoutEffects self
      else return self.finishTerminal previousAttempt previousEnd
  | _ => return .withoutEffects self

def restartPolicyChanged (self : ExecutionState)
    (policy : ExecutionRestartPolicy) : ExecutionResult := do
  self.validatePolicyKind policy
  { self with restartPolicy := policy }.reconsiderBackoff

def successExitCodesChanged (self : ExecutionState)
    (codes : Finset ExitCode) : ExecutionResult :=
  { self with successExitCodes := codes }.reconsiderBackoff

def supervisorLost (self : ExecutionState) (instant : BootInstant) :
    ExecutionResult :=
  match self.phase with
  | .launching attempt | .running attempt =>
      match self.origin with
      | .job _ =>
          .ok (self.terminal (.outcomeUnknown (.supervisorLost attempt)))
      | .serviceIntent _ =>
          self.finishAttempt attempt .supervisorLost instant
  | .stopping _ _ cause _ => .ok (self.finishStop cause true)
  | .restartBackoff .. => .error .unexpectedEvent
  | .terminal _ => .ok (.withoutEffects self)

def transition (self : ExecutionState) (event : ExecutionEvent) :
    ExecutionResult :=
  match event with
  | .launchSucceeded attempt _ => self.launchSucceeded attempt
  | .launchFailed attempt failure instant =>
      self.launchFailed attempt failure instant
  | .processExited attempt exitCode ranFor instant =>
      self.processExited attempt exitCode ranFor instant
  | .stopRequested cause plan instant =>
      self.stopRequested cause plan instant
  | .restartDeadlineReached deadline => self.restartDeadlineReached deadline
  | .stopDeadlineReached deadline => self.stopDeadlineReached deadline
  | .restartPolicyChanged policy => self.restartPolicyChanged policy
  | .successExitCodesChanged codes => self.successExitCodesChanged codes
  | .supervisorLost instant => self.supervisorLost instant

end ExecutionState

end Susm.Domain
