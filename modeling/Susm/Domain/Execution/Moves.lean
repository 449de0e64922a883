import Susm.Domain.Execution

/-!
# The accepted moves of an execution

`Move` lists what an accepted event can do, one constructor for each kind of
step, with the guards the source checks.  `Move.of_transition` shows that the
list is complete, so that an invariant is proved by cases on it and the
transition function is unfolded only here.
-/

namespace Susm.Domain

open Susm.Foundation

/-- The effect that asks a running process to stop; a kill asks nothing. -/
def StopPlan.signal : StopPlan → Option ExecutionEffect
  | .ctrlBreak _ => some .sendCtrlBreak
  | .command _ => some .runStopCommand
  | .kill => none

/-- The time a stop plan allows before the Job Object is terminated. -/
def StopPlan.timeout? : StopPlan → Option Duration
  | .ctrlBreak timeout | .command timeout => some timeout
  | .kill => none

def StopCause.outcome (cause : StopCause) (forced : Bool) : ExecutionOutcome :=
  match cause with
  | .service cause => .stopped cause forced
  | .job cause => .cancelled cause forced

namespace ExecutionState

def KindMatches (self : ExecutionState) : Prop :=
  self.validatePolicyKind self.restartPolicy = .ok ()

def backoffState (self : ExecutionState) (attempt : AttemptNumber)
    (attemptEnd : AttemptEnd) (nextAttempt : AttemptNumber)
    (retry : RetryOrdinal) (retryAt : RetryDeadline) : ExecutionState :=
  { self with
    lastRetry := some retry
    phase := .restartBackoff attempt attemptEnd nextAttempt retry retryAt }

theorem exists_deadline_iff {kind : DeadlineKind} {instant : BootInstant}
    {delay : Duration} {deadline : Deadline kind} :
    (instant.checkedAdd delay).map Deadline.mk = some deadline ↔
      instant.checkedAdd delay = some deadline.instant := by
  cases deadline
  simp

theorem stopDeadline_eq_ok_iff {instant : BootInstant} {timeout : Duration}
    {deadline : StopDeadline} :
    stopDeadline instant timeout = .ok deadline ↔
      instant.checkedAdd timeout = some deadline.instant :=
  orError_eq_ok.trans exists_deadline_iff

/-- The two ways an attempt end is decided once the retry ordinal is known. -/
inductive Finish (self : ExecutionState) (attempt : AttemptNumber)
    (attemptEnd : AttemptEnd) (instant : BootInstant) :
    Transition ExecutionState ExecutionEffect → Prop
  | denied {retry : RetryOrdinal}
      (ordinal : nextRetry self.lastRetry = .ok retry)
      (permits : self.policyPermits attemptEnd retry = .ok false) :
      Finish self attempt attemptEnd instant
        (self.finishTerminal attempt attemptEnd)
  | retried {retry : RetryOrdinal} {nextAttempt : AttemptNumber}
      {backoff : BackoffPolicy} {retryAt : RetryDeadline}
      (ordinal : nextRetry self.lastRetry = .ok retry)
      (permits : self.policyPermits attemptEnd retry = .ok true)
      (successor : attempt.next = some nextAttempt)
      (policy : self.backoff = .ok backoff)
      (deadline :
        instant.checkedAdd (backoff.delayFor retry) = some retryAt.instant) :
      Finish self attempt attemptEnd instant
        (.new (self.backoffState attempt attemptEnd nextAttempt retry retryAt)
          [.scheduleRestart retryAt])

theorem Finish.of_finishAttempt {self : ExecutionState}
    {attempt : AttemptNumber} {attemptEnd : AttemptEnd}
    {instant : BootInstant}
    {result : Transition ExecutionState ExecutionEffect}
    (h : self.finishAttempt attempt attemptEnd instant = .ok result) :
    Finish (self.resetRetries attemptEnd) attempt attemptEnd instant
      result := by
  obtain ⟨retry, hretry, h⟩ := bind_eq_ok_iff.mp h
  obtain ⟨permitted, hpermits, h⟩ := bind_eq_ok_iff.mp h
  cases permitted with
  | false =>
      cases h
      exact .denied hretry hpermits
  | true =>
      obtain ⟨nextAttempt, hnext, h⟩ := bind_eq_ok_iff.mp h
      obtain ⟨backoff, hbackoff, h⟩ := bind_eq_ok_iff.mp h
      obtain ⟨retryAt, hretryAt, h⟩ := bind_eq_ok_iff.mp h
      cases h
      exact .retried hretry hpermits (orError_eq_ok.mp hnext) hbackoff
        (exists_deadline_iff.mp (orError_eq_ok.mp hretryAt))

inductive Move (self : ExecutionState) :
    ExecutionEvent → Transition ExecutionState ExecutionEffect → Prop
  | launched {attempt : AttemptNumber} {instant : BootInstant}
      (phase : self.phase = .launching attempt) :
      Move self (.launchSucceeded attempt instant)
        (.withoutEffects { self with phase := .running attempt })
  | launchedIntoStop {attempt : AttemptNumber} {instant : BootInstant}
      {deadline : StopDeadline} {cause : StopCause} {plan : StopPlan}
      {effect : ExecutionEffect}
      (phase : self.phase =
        .stopping attempt (.awaitingLaunch deadline) cause plan)
      (signal : plan.signal = some effect) :
      Move self (.launchSucceeded attempt instant)
        (.new
          { self with
            phase := .stopping attempt (.graceful deadline) cause plan }
          [effect])
  | launchFailed {attempt : AttemptNumber} {failure : LaunchFailure}
      {instant : BootInstant}
      {result : Transition ExecutionState ExecutionEffect}
      (phase : self.phase = .launching attempt)
      (finish : Finish (self.resetRetries (.launchFailed failure)) attempt
        (.launchFailed failure) instant result) :
      Move self (.launchFailed attempt failure instant) result
  | processExited {attempt : AttemptNumber} {exitCode : ExitCode}
      {ranFor : Duration} {instant : BootInstant}
      {result : Transition ExecutionState ExecutionEffect}
      (phase : self.phase = .running attempt)
      (finish : Finish (self.resetRetries (.exited exitCode ranFor)) attempt
        (.exited exitCode ranFor) instant result) :
      Move self (.processExited attempt exitCode ranFor instant) result
  | serviceLost {attempt : AttemptNumber} {revision : IntentRevision}
      {instant : BootInstant}
      {result : Transition ExecutionState ExecutionEffect}
      (phase : self.phase = .launching attempt ∨ self.phase = .running attempt)
      (service : self.origin = .serviceIntent revision)
      (finish : Finish (self.resetRetries .supervisorLost) attempt
        .supervisorLost instant result) :
      Move self (.supervisorLost instant) result
  | jobLost {attempt : AttemptNumber} {origin : JobExecutionOrigin}
      {instant : BootInstant}
      (phase : self.phase = .launching attempt ∨ self.phase = .running attempt)
      (job : self.origin = .job origin) :
      Move self (.supervisorLost instant)
        (self.terminal (.outcomeUnknown (.supervisorLost attempt)))
  | stopEnded {event : ExecutionEvent} {attempt : AttemptNumber}
      {phase : StopPhase} {cause : StopCause} {plan : StopPlan}
      {forced : Bool}
      (inPhase : self.phase = .stopping attempt phase cause plan)
      (ended :
        (∃ failure instant, event = .launchFailed attempt failure instant ∧
            forced = false) ∨
          (∃ exitCode ranFor instant,
            event = .processExited attempt exitCode ranFor instant ∧
              forced = decide (phase = .killing)) ∨
          ∃ instant, event = .supervisorLost instant ∧ forced = true) :
      Move self event (self.finishStop cause forced)
  | stopBegan {attempt : AttemptNumber} {phase : StopPhase}
      {cause : StopCause} {plan : StopPlan} {timeout : Duration}
      {instant : BootInstant} {deadline : StopDeadline}
      {effects : List ExecutionEffect}
      (valid : self.validateStopCause cause = .ok ())
      (allowed : plan.timeout? = some timeout)
      (due : instant.checkedAdd timeout = some deadline.instant)
      (began :
        self.phase = .launching attempt ∧ phase = .awaitingLaunch deadline ∧
            effects = [.scheduleStopDeadline deadline] ∨
          self.phase = .running attempt ∧ phase = .graceful deadline ∧
            ∃ effect, plan.signal = some effect ∧
              effects = [effect, .scheduleStopDeadline deadline]) :
      Move self (.stopRequested cause plan instant)
        (.new { self with phase := .stopping attempt phase cause plan } effects)
  | killed {attempt : AttemptNumber} {cause : StopCause}
      {instant : BootInstant}
      (valid : self.validateStopCause cause = .ok ())
      (phase : self.phase = .launching attempt ∨
        self.phase = .running attempt) :
      Move self (.stopRequested cause .kill instant)
        (self.kill attempt cause .kill)
  | backoffStopped {previousAttempt nextAttempt : AttemptNumber}
      {previousEnd : AttemptEnd} {retry : RetryOrdinal}
      {retryAt : RetryDeadline} {cause : StopCause} {plan : StopPlan}
      {instant : BootInstant}
      (valid : self.validateStopCause cause = .ok ())
      (phase : self.phase = .restartBackoff previousAttempt previousEnd
        nextAttempt retry retryAt) :
      Move self (.stopRequested cause plan instant)
        (self.finishStop cause false)
  | relaunched {previousAttempt nextAttempt : AttemptNumber}
      {previousEnd : AttemptEnd} {retry : RetryOrdinal}
      {retryAt : RetryDeadline}
      (phase : self.phase = .restartBackoff previousAttempt previousEnd
        nextAttempt retry retryAt) :
      Move self (.restartDeadlineReached retryAt)
        (.new { self with phase := .launching nextAttempt }
          [.launchAttempt nextAttempt])
  | stopExpired {attempt : AttemptNumber} {deadline : StopDeadline}
      {cause : StopCause} {plan : StopPlan}
      (phase :
        self.phase = .stopping attempt (.awaitingLaunch deadline) cause plan ∨
          self.phase = .stopping attempt (.graceful deadline) cause plan) :
      Move self (.stopDeadlineReached deadline) (self.kill attempt cause plan)
  | updated {event : ExecutionEvent} {next : ExecutionState}
      {result : Transition ExecutionState ExecutionEffect}
      (change :
        (∃ policy, event = .restartPolicyChanged policy ∧
            self.validatePolicyKind policy = .ok () ∧
            next = { self with restartPolicy := policy }) ∨
          ∃ codes, event = .successExitCodesChanged codes ∧
            next = { self with successExitCodes := codes })
      (reconsidered : next.reconsiderBackoff = .ok result) :
      Move self event result
  | unchanged {event : ExecutionEvent}
      (phase :
        (∃ cause plan instant, event = .stopRequested cause plan instant ∧
            ((∃ attempt stop current currentPlan,
                self.phase = .stopping attempt stop current currentPlan) ∨
              ∃ outcome, self.phase = .terminal outcome)) ∨
          (∃ deadline, event = .stopDeadlineReached deadline ∧
            ∃ attempt cause plan,
              self.phase = .stopping attempt .killing cause plan) ∨
          ∃ instant, event = .supervisorLost instant ∧
            ∃ outcome, self.phase = .terminal outcome) :
      Move self event (.withoutEffects self)

theorem Move.of_launchSucceeded {self : ExecutionState}
    {attempt : AttemptNumber} {instant : BootInstant}
    {result : Transition ExecutionState ExecutionEffect}
    (h : self.launchSucceeded attempt = .ok result) :
    Move self (.launchSucceeded attempt instant) result := by
  unfold ExecutionState.launchSucceeded at h
  split at h
  case h_1 current hphase =>
    split at h
    · rename_i heq
      subst heq
      cases h
      exact .launched hphase
    · cases h
  case h_2 current deadline cause plan hphase =>
    split at h
    · rename_i heq
      subst heq
      dsimp only at h
      split at h
      · cases h
        exact .launchedIntoStop hphase rfl
      · cases h
        exact .launchedIntoStop hphase rfl
      · cases h
    · cases h
  case h_3 => split at h <;> cases h
  case h_4 => cases h

theorem Move.of_launchFailed {self : ExecutionState}
    {attempt : AttemptNumber} {failure : LaunchFailure}
    {instant : BootInstant}
    {result : Transition ExecutionState ExecutionEffect}
    (h : self.launchFailed attempt failure instant = .ok result) :
    Move self (.launchFailed attempt failure instant) result := by
  unfold ExecutionState.launchFailed at h
  split at h
  case h_1 current hphase =>
    split at h
    · rename_i heq
      subst heq
      exact .launchFailed hphase (.of_finishAttempt h)
    · cases h
  case h_2 current phase cause plan hphase =>
    split at h
    · rename_i heq
      subst heq
      cases h
      exact .stopEnded hphase (.inl ⟨_, _, rfl, rfl⟩)
    · cases h
  case h_3 => cases h

theorem Move.of_processExited {self : ExecutionState}
    {attempt : AttemptNumber} {exitCode : ExitCode} {ranFor : Duration}
    {instant : BootInstant}
    {result : Transition ExecutionState ExecutionEffect}
    (h : self.processExited attempt exitCode ranFor instant = .ok result) :
    Move self (.processExited attempt exitCode ranFor instant) result := by
  unfold ExecutionState.processExited at h
  split at h
  case h_1 current hphase =>
    split at h
    · rename_i heq
      subst heq
      exact .processExited hphase (.of_finishAttempt h)
    · cases h
  case h_2 current phase cause plan hphase =>
    split at h
    · rename_i heq
      subst heq
      cases h
      exact .stopEnded hphase (.inr (.inl ⟨_, _, _, rfl, rfl⟩))
    · cases h
  case h_3 => cases h

theorem Move.of_stopRequested {self : ExecutionState} {cause : StopCause}
    {plan : StopPlan} {instant : BootInstant}
    {result : Transition ExecutionState ExecutionEffect}
    (h : self.stopRequested cause plan instant = .ok result) :
    Move self (.stopRequested cause plan instant) result := by
  obtain ⟨_, hvalid, h⟩ := bind_eq_ok_iff.mp h
  cases hphase : self.phase with
  | launching attempt =>
      simp only [hphase] at h
      cases plan with
      | kill =>
          cases h
          exact .killed hvalid (.inl hphase)
      | ctrlBreak timeout | command timeout =>
          obtain ⟨deadline, hdeadline, h⟩ := bind_eq_ok_iff.mp h
          cases h
          exact .stopBegan hvalid rfl (stopDeadline_eq_ok_iff.mp hdeadline)
            (.inl ⟨hphase, rfl, rfl⟩)
  | running attempt =>
      simp only [hphase] at h
      cases plan with
      | kill =>
          cases h
          exact .killed hvalid (.inr hphase)
      | ctrlBreak timeout | command timeout =>
          obtain ⟨deadline, hdeadline, h⟩ := bind_eq_ok_iff.mp h
          cases h
          exact .stopBegan hvalid rfl (stopDeadline_eq_ok_iff.mp hdeadline)
            (.inr ⟨hphase, rfl, _, rfl, rfl⟩)
  | restartBackoff previousAttempt previousEnd nextAttempt retry retryAt =>
      simp only [hphase] at h
      cases h
      exact .backoffStopped hvalid hphase
  | stopping attempt stop current currentPlan =>
      simp only [hphase] at h
      cases h
      exact .unchanged (.inl ⟨cause, plan, instant, rfl,
        .inl ⟨_, _, _, _, hphase⟩⟩)
  | terminal outcome =>
      simp only [hphase] at h
      cases h
      exact .unchanged (.inl ⟨cause, plan, instant, rfl, .inr ⟨_, hphase⟩⟩)

theorem Move.of_restartDeadlineReached {self : ExecutionState}
    {deadline : RetryDeadline}
    {result : Transition ExecutionState ExecutionEffect}
    (h : self.restartDeadlineReached deadline = .ok result) :
    Move self (.restartDeadlineReached deadline) result := by
  unfold ExecutionState.restartDeadlineReached at h
  split at h
  · rename_i hphase
    split at h
    · rename_i heq
      subst heq
      cases h
      exact .relaunched hphase
    · cases h
  · cases h

theorem Move.of_stopDeadlineReached {self : ExecutionState}
    {deadline : StopDeadline}
    {result : Transition ExecutionState ExecutionEffect}
    (h : self.stopDeadlineReached deadline = .ok result) :
    Move self (.stopDeadlineReached deadline) result := by
  unfold ExecutionState.stopDeadlineReached at h
  split at h
  case h_1 attempt current cause plan hphase =>
    split at h
    · rename_i heq
      subst heq
      cases h
      exact .stopExpired (.inl hphase)
    · cases h
  case h_2 attempt current cause plan hphase =>
    split at h
    · rename_i heq
      subst heq
      cases h
      exact .stopExpired (.inr hphase)
    · cases h
  case h_3 hphase =>
    cases h
    exact .unchanged (.inr (.inl ⟨deadline, rfl, _, _, _, hphase⟩))
  case h_4 => cases h

theorem Move.of_restartPolicyChanged {self : ExecutionState}
    {policy : ExecutionRestartPolicy}
    {result : Transition ExecutionState ExecutionEffect}
    (h : self.restartPolicyChanged policy = .ok result) :
    Move self (.restartPolicyChanged policy) result := by
  obtain ⟨_, hvalid, h⟩ := bind_eq_ok_iff.mp h
  exact .updated (.inl ⟨policy, rfl, hvalid, rfl⟩) h

theorem Move.of_supervisorLost {self : ExecutionState}
    {instant : BootInstant}
    {result : Transition ExecutionState ExecutionEffect}
    (h : self.supervisorLost instant = .ok result) :
    Move self (.supervisorLost instant) result := by
  unfold ExecutionState.supervisorLost at h
  split at h
  case h_1 attempt hphase =>
    split at h
    · rename_i origin horigin
      cases h
      exact .jobLost (.inl hphase) horigin
    · rename_i revision horigin
      exact .serviceLost (.inl hphase) horigin (.of_finishAttempt h)
  case h_2 attempt hphase =>
    split at h
    · rename_i origin horigin
      cases h
      exact .jobLost (.inr hphase) horigin
    · rename_i revision horigin
      exact .serviceLost (.inr hphase) horigin (.of_finishAttempt h)
  case h_3 hphase =>
    cases h
    exact .stopEnded hphase (.inr (.inr ⟨_, rfl, rfl⟩))
  case h_4 => cases h
  case h_5 outcome hphase =>
    cases h
    exact .unchanged (.inr (.inr ⟨instant, rfl, outcome, hphase⟩))

theorem Move.of_transition {self : ExecutionState} {event : ExecutionEvent}
    {result : Transition ExecutionState ExecutionEffect}
    (h : self.transition event = .ok result) : Move self event result := by
  cases event with
  | launchSucceeded => exact .of_launchSucceeded h
  | launchFailed => exact .of_launchFailed h
  | processExited => exact .of_processExited h
  | stopRequested => exact .of_stopRequested h
  | restartDeadlineReached => exact .of_restartDeadlineReached h
  | stopDeadlineReached => exact .of_stopDeadlineReached h
  | restartPolicyChanged => exact .of_restartPolicyChanged h
  | successExitCodesChanged codes => exact .updated (.inr ⟨codes, rfl, rfl⟩) h
  | supervisorLost => exact .of_supervisorLost h

/-! ## What a move leaves alone -/

theorem resetRetries_cases (self : ExecutionState) (attemptEnd : AttemptEnd) :
    self.resetRetries attemptEnd = self ∨
      self.resetRetries attemptEnd = { self with lastRetry := none } ∧
        ∃ revision, self.origin = .serviceIntent revision := by
  unfold resetRetries
  split
  case h_1 revision _ _ _ horigin _ =>
    split
    · exact .inr ⟨rfl, revision, horigin⟩
    · exact .inl rfl
  case h_2 revision _ _ _ horigin _ =>
    split
    · exact .inr ⟨rfl, revision, horigin⟩
    · exact .inl rfl
  case h_3 => exact .inl rfl

@[simp] theorem resetRetries_origin (self : ExecutionState)
    (attemptEnd : AttemptEnd) :
    (self.resetRetries attemptEnd).origin = self.origin := by
  rcases self.resetRetries_cases attemptEnd with h | ⟨h, -⟩ <;> rw [h]

@[simp] theorem resetRetries_restartPolicy (self : ExecutionState)
    (attemptEnd : AttemptEnd) :
    (self.resetRetries attemptEnd).restartPolicy = self.restartPolicy := by
  rcases self.resetRetries_cases attemptEnd with h | ⟨h, -⟩ <;> rw [h]

@[simp] theorem resetRetries_successExitCodes (self : ExecutionState)
    (attemptEnd : AttemptEnd) :
    (self.resetRetries attemptEnd).successExitCodes =
      self.successExitCodes := by
  rcases self.resetRetries_cases attemptEnd with h | ⟨h, -⟩ <;> rw [h]

theorem finishStop_eq (self : ExecutionState) (cause : StopCause)
    (forced : Bool) :
    self.finishStop cause forced = self.terminal (cause.outcome forced) := by
  cases cause <;> rfl

theorem reconsiderBackoff_cases {self : ExecutionState}
    {result : Transition ExecutionState ExecutionEffect}
    (h : self.reconsiderBackoff = .ok result) :
    (∃ previousAttempt previousEnd nextAttempt retry retryAt,
      self.phase = .restartBackoff previousAttempt previousEnd nextAttempt
          retry retryAt ∧
        (self.policyPermits previousEnd retry = .ok true ∧
            result = .withoutEffects self ∨
          self.policyPermits previousEnd retry = .ok false ∧
            result = self.finishTerminal previousAttempt previousEnd)) ∨
      (∀ previousAttempt previousEnd nextAttempt retry retryAt,
        self.phase ≠ .restartBackoff previousAttempt previousEnd nextAttempt
          retry retryAt) ∧ result = .withoutEffects self := by
  unfold reconsiderBackoff at h
  cases hphase : self.phase with
  | restartBackoff previousAttempt previousEnd nextAttempt retry retryAt =>
      simp only [hphase] at h
      obtain ⟨permitted, hpermits, h⟩ := bind_eq_ok_iff.mp h
      refine .inl ⟨_, _, _, _, _, rfl, ?_⟩
      cases permitted with
      | true =>
          cases h
          exact .inl ⟨hpermits, rfl⟩
      | false =>
          cases h
          exact .inr ⟨hpermits, rfl⟩
  | launching | running | stopping | terminal =>
      simp only [hphase] at h
      cases h
      exact .inr ⟨by simp, rfl⟩

theorem Finish.origin {self : ExecutionState} {attempt : AttemptNumber}
    {attemptEnd : AttemptEnd} {instant : BootInstant}
    {result : Transition ExecutionState ExecutionEffect}
    (finish : Finish self attempt attemptEnd instant result) :
    result.state.origin = self.origin := by
  cases finish <;> rfl

theorem Finish.restartPolicy {self : ExecutionState} {attempt : AttemptNumber}
    {attemptEnd : AttemptEnd} {instant : BootInstant}
    {result : Transition ExecutionState ExecutionEffect}
    (finish : Finish self attempt attemptEnd instant result) :
    result.state.restartPolicy = self.restartPolicy := by
  cases finish <;> rfl

theorem reconsiderBackoff_origin {self : ExecutionState}
    {result : Transition ExecutionState ExecutionEffect}
    (h : self.reconsiderBackoff = .ok result) :
    result.state.origin = self.origin ∧
      result.state.restartPolicy = self.restartPolicy := by
  rcases reconsiderBackoff_cases h with
    ⟨_, _, _, _, _, -, ⟨-, rfl⟩ | ⟨-, rfl⟩⟩ | ⟨-, rfl⟩ <;> exact ⟨rfl, rfl⟩

section Move

variable {self : ExecutionState} {event : ExecutionEvent}
  {result : Transition ExecutionState ExecutionEffect}

theorem Move.origin (move : Move self event result) :
    result.state.origin = self.origin := by
  cases move with
  | launchFailed phase finish => simpa using finish.origin
  | processExited phase finish => simpa using finish.origin
  | serviceLost phase service finish => simpa using finish.origin
  | stopEnded => rw [finishStop_eq]; rfl
  | backoffStopped => rw [finishStop_eq]; rfl
  | updated change reconsidered =>
      rw [(reconsiderBackoff_origin reconsidered).1]
      rcases change with ⟨_, -, -, rfl⟩ | ⟨_, -, rfl⟩ <;> rfl
  | launched | launchedIntoStop | jobLost | stopBegan | killed | relaunched
  | stopExpired | unchanged => rfl

theorem Move.restartPolicy (move : Move self event result) :
    result.state.restartPolicy = self.restartPolicy ∨
      ∃ policy, event = .restartPolicyChanged policy ∧
        self.validatePolicyKind policy = .ok () ∧
        result.state.restartPolicy = policy := by
  cases move with
  | launchFailed phase finish => exact .inl (by simpa using finish.restartPolicy)
  | processExited phase finish =>
      exact .inl (by simpa using finish.restartPolicy)
  | serviceLost phase service finish =>
      exact .inl (by simpa using finish.restartPolicy)
  | stopEnded => rw [finishStop_eq]; exact .inl rfl
  | backoffStopped => rw [finishStop_eq]; exact .inl rfl
  | updated change reconsidered =>
      rw [(reconsiderBackoff_origin reconsidered).2]
      rcases change with ⟨policy, rfl, valid, rfl⟩ | ⟨_, -, rfl⟩
      · exact .inr ⟨policy, rfl, valid, rfl⟩
      · exact .inl rfl
  | launched | launchedIntoStop | jobLost | stopBegan | killed | relaunched
  | stopExpired | unchanged => exact .inl rfl

end Move

end ExecutionState

end Susm.Domain
