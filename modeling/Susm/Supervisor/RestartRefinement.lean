import Susm.Controller.Snapshot
import Susm.Domain.Backoff
import Susm.Domain.Execution.PhaseInvariant
import Susm.Supervisor.AttemptWorld

/-!
# Restart decisions refine the domain

The supervisor counts retries from zero and compares flags and milliseconds;
the domain counts ordinals from one and compares policies and durations.  On a
configuration built from a domain policy both decide alike.
-/

namespace Susm.Supervisor

open Susm.Foundation
open Susm.Domain
open Susm.Protocol
open Susm.Controller

/-! ## Delays -/

theorem min_saturatingMul {maximum : Nat} (h : maximum < 2 ^ 64)
    (delay multiplier : Nat) :
    min (saturatingMul (2 ^ 64) delay multiplier) maximum =
      min (delay * multiplier) maximum := by
  unfold saturatingMul
  omega

theorem growMillis_eq {multiplier maximum : Nat} (positive : 0 < multiplier)
    (hlt : maximum < 2 ^ 64) {delay : Nat} (below : delay ≤ maximum)
    (rounds : Nat) :
    growMillis multiplier maximum rounds delay =
      capped delay multiplier maximum rounds := by
  induction rounds generalizing delay with
  | zero => exact (capped_zero below).symm
  | succ rounds ih =>
      rw [growMillis, min_saturatingMul hlt, capped_succ positive,
        ih (min_le_right _ _)]

theorem retryDelay_eq {configuration : ExecutionConfiguration}
    (positive : 0 < configuration.restartBackoffInitialMs)
    (below : configuration.restartBackoffInitialMs ≤
      configuration.restartBackoffMaximumMs)
    (hlt : configuration.restartBackoffMaximumMs < 2 ^ 64)
    (multiplied : 0 < configuration.restartBackoffMultiplier) (retry : Nat) :
    retryDelay configuration retry =
      capped configuration.restartBackoffInitialMs
        configuration.restartBackoffMultiplier
        configuration.restartBackoffMaximumMs (retry - 1) := by
  unfold retryDelay
  dsimp only
  rw [max_eq_left (Nat.succ_le_of_lt multiplied),
    max_eq_left (Nat.succ_le_of_lt positive),
    max_eq_left (Nat.succ_le_of_lt (positive.trans_le below)),
    growMillis_eq multiplied hlt below]
  exact min_eq_left capped_le

theorem delayFor_nanos_of_millis {policy : BackoffPolicy}
    {configuration : ExecutionConfiguration}
    (initial : policy.initial.get.nanos =
      configuration.restartBackoffInitialMs * 10 ^ 6)
    (multiplier : policy.multiplier.get =
      configuration.restartBackoffMultiplier)
    (maximum : policy.maximum.get.nanos =
      configuration.restartBackoffMaximumMs * 10 ^ 6)
    (hlt : configuration.restartBackoffMaximumMs < 2 ^ 64)
    (retry : RetryOrdinal) :
    (policy.delayFor retry).nanos =
      retryDelay configuration retry.get * 10 ^ 6 := by
  have positive := policy.initial.pos
  have below := Duration.le_iff.mp policy.initial_le_maximum
  have multiplied := policy.multiplier.pos
  rw [policy.nanos_delayFor, initial, multiplier, maximum, capped_scale,
    retryDelay_eq (by omega) (by omega) hlt (by omega)]

theorem delayFor_nanos {policy : BackoffPolicy} (wire : BackoffOnWire policy)
    (snapshot : ExecutionConfiguration) (retry : RetryOrdinal) :
    (policy.delayFor retry).nanos =
      retryDelay (applyBackoff snapshot policy) retry.get * 10 ^ 6 := by
  obtain ⟨initial, maximum⟩ := wire
  exact @delayFor_nanos_of_millis policy (applyBackoff snapshot policy)
    initial rfl maximum (durationMs_lt _) retry

/-! ## One decision -/

structure Carries (configuration : ExecutionConfiguration)
    (state : ExecutionState) : Prop where
  restart : ∃ snapshot, RestartUnset snapshot ∧
    configuration = applyRestart snapshot state.restartPolicy
  wire : RestartOnWire state.restartPolicy
  codes : ∀ code, code ∈ configuration.successExitCodes ↔
    ExitCode.mk code ∈ state.successExitCodes
  kind : state.KindMatches
  origin : configuration.kind = .job ↔ state.IsJob

section Decision

variable {configuration : ExecutionConfiguration} {self : ExecutionState}

theorem Carries.withAttempt (carries : Carries configuration self)
    (attempt : Nat) :
    Carries { configuration with attempt := attempt } self := by
  obtain ⟨⟨snapshot, unset, rfl⟩, wire, codes, kind, origin⟩ := carries
  exact ⟨⟨_, unset.withAttempt attempt, applyRestart_withAttempt ..⟩, wire,
    codes, kind, origin⟩

theorem limitPermits_finite (maximum : NonZeroU32) (retry : RetryOrdinal) :
    ExecutionState.limitPermits (.finite maximum) retry =
      (retry.get - 1 < maximum.get) := by
  have hpos := retry.pos
  simp only [ExecutionState.limitPermits, decide_eq_true_eq, eq_iff_iff]
  omega

theorem shouldRetry_applyServiceRetry {snapshot : ExecutionConfiguration}
    (unset : RestartUnset snapshot) (policy : ServiceRetryPolicy)
    (successful : Bool) (retry : RetryOrdinal) :
    shouldRetry (applyServiceRetry snapshot policy) successful (retry.get - 1) =
      ((snapshot.restartPolicy = .always ∨
          (snapshot.restartPolicy = .onFailure ∧ !successful)) ∧
        ExecutionState.limitPermits policy.limit retry : Bool) := by
  unfold applyServiceRetry applyBackoff shouldRetry
  cases policy.limit with
  | finite maximum =>
      simp [limitPermits_finite, unset.maxRestartsUnlimited]
  | unlimited => simp [ExecutionState.limitPermits]

theorem policyPermits_applyRestart {snapshot : ExecutionConfiguration}
    (unset : RestartUnset snapshot) (kind : self.KindMatches)
    (attemptEnd : AttemptEnd) (retry : RetryOrdinal) :
    self.policyPermits attemptEnd retry =
      .ok (shouldRetry (applyRestart snapshot self.restartPolicy)
        (!self.attemptFailed attemptEnd) (retry.get - 1)) := by
  unfold ExecutionState.KindMatches ExecutionState.validatePolicyKind at kind
  unfold ExecutionState.policyPermits
  cases horigin : self.origin <;> cases hpolicy : self.restartPolicy <;>
    simp only [horigin, hpolicy, reduceCtorEq] at kind ⊢
  case serviceIntent.service revision policy =>
    cases policy with
    | never => simp [applyRestart, shouldRetry]
    | onFailure policy =>
        rw [applyRestart, shouldRetry_applyServiceRetry (unset.withPolicy _)]
        cases self.attemptFailed attemptEnd <;> simp
    | always policy =>
        rw [applyRestart, shouldRetry_applyServiceRetry (unset.withPolicy _)]
        simp
  case job.job origin policy =>
    cases policy with
    | never => simp [applyRestart, shouldRetry]
    | onFailure policy =>
        have hpos := retry.pos
        have hlimit : retry.get ≤ policy.maxRestarts.get ↔
            retry.get - 1 < policy.maxRestarts.get := by omega
        cases self.attemptFailed attemptEnd <;>
          simp [applyRestart, applyBackoff, shouldRetry,
            unset.maxRestartsUnlimited, hlimit]

theorem Carries.policyPermits (carries : Carries configuration self)
    (attemptEnd : AttemptEnd) (retry : RetryOrdinal) :
    self.policyPermits attemptEnd retry =
      .ok (shouldRetry configuration (!self.attemptFailed attemptEnd)
        (retry.get - 1)) := by
  obtain ⟨⟨snapshot, unset, rfl⟩, -, -, kind, -⟩ := carries
  exact policyPermits_applyRestart unset kind attemptEnd retry

theorem Carries.backoff (carries : Carries configuration self)
    {backoff : BackoffPolicy} (h : self.backoff = .ok backoff) :
    BackoffOnWire backoff ∧
      ∃ base, configuration = applyBackoff base backoff := by
  obtain ⟨⟨snapshot, unset, rfl⟩, wire, -, -, -⟩ := carries
  unfold ExecutionState.backoff at h
  split at h
  case h_1 policy horigin hpolicy =>
    cases h
    rw [hpolicy] at wire ⊢
    exact ⟨wire.2, _, rfl⟩
  case h_2 policy horigin hpolicy =>
    cases h
    rw [hpolicy] at wire ⊢
    exact ⟨wire.2, _, rfl⟩
  case h_3 policy horigin hpolicy =>
    cases h
    rw [hpolicy] at wire ⊢
    exact ⟨wire, _, rfl⟩
  case h_4 => cases h

theorem Carries.ticksOf_delayFor (carries : Carries configuration self)
    {backoff : BackoffPolicy} (h : self.backoff = .ok backoff)
    (retry : RetryOrdinal) :
    BootInstant.ticksOf (backoff.delayFor retry) =
      retryDelay configuration retry.get * 10_000 := by
  obtain ⟨wire, base, rfl⟩ := carries.backoff h
  rw [BootInstant.ticksOf, delayFor_nanos wire base]
  omega

/-- A run of so many milliseconds is measured without clamping. -/
def Measured (configuration : ExecutionConfiguration) (millis : Nat) : Prop :=
  (configuration.restartResetAfterMs : Int) ≤ maxI64 ∨ (millis : Int) < maxI64

theorem reachesReset_iff {reset millis : Nat}
    (measured : (reset : Int) ≤ maxI64 ∨ (millis : Int) < maxI64) :
    min (reset : Int) maxI64 ≤ saturateI64 millis ↔ reset ≤ millis := by
  unfold saturateI64 maxI64 at *
  omega

theorem resetsRetries_applyServiceRetry {snapshot : ExecutionConfiguration}
    {policy : ServiceRetryPolicy} {result : AttemptResult} {millis : Nat}
    {ranFor : Duration}
    (measured : Measured (applyServiceRetry snapshot policy) millis)
    (wire : OnWire policy.resetAfter.get) (launched : result.launched = true)
    (elapsed : result.endedUnixMs - result.startedUnixMs = millis)
    (hranFor : ranFor.nanos = millis * 10 ^ 6) :
    resetsRetries (applyServiceRetry snapshot policy) result = true ↔
      policy.resetAfter.get ≤ ranFor := by
  have hpos := policy.resetAfter.pos
  have hreset : (applyServiceRetry snapshot policy).restartResetAfterMs =
      durationMs policy.resetAfter.get := rfl
  unfold OnWire at wire
  unfold Measured at measured
  unfold resetsRetries
  rw [decide_eq_true_eq, elapsed, reachesReset_iff measured, hreset,
    Duration.le_iff, wire, hranFor]
  simp only [launched, true_and]
  omega

theorem retryCount_ite_reset {fresh self : ExecutionState} {condition : Prop}
    [Decidable condition] {resets : Bool} (h : resets = true ↔ condition)
    (hfresh : fresh.lastRetry = none) :
    ExecutionState.retryCount (if condition then fresh else self).lastRetry =
      if resets then 0 else ExecutionState.retryCount self.lastRetry := by
  by_cases hcondition : condition
  · rw [if_pos hcondition, if_pos (h.mpr hcondition), hfresh]
    rfl
  · rw [if_neg hcondition, if_neg (mt h.mp hcondition)]

theorem resetsRetries_unset {configuration : ExecutionConfiguration}
    (h : configuration.restartResetAfterMs = 0) (result : AttemptResult) :
    resetsRetries configuration result = false := by
  simp [resetsRetries, h]

theorem Carries.resetRetries (carries : Carries configuration self)
    {result : AttemptResult} {millis : Nat} {ranFor : Duration}
    (measured : Measured configuration millis)
    (launched : result.launched = true)
    (elapsed : result.endedUnixMs - result.startedUnixMs = millis)
    (hranFor : ranFor.nanos = millis * 10 ^ 6) (exitCode : ExitCode) :
    ExecutionState.retryCount
        (self.resetRetries (.exited exitCode ranFor)).lastRetry =
      if resetsRetries configuration result then 0
      else ExecutionState.retryCount self.lastRetry := by
  obtain ⟨⟨snapshot, unset, rfl⟩, wire, -, kind, -⟩ := carries
  unfold ExecutionState.resetRetries
  split
  case h_1 revision _ _ policy horigin hend hpolicy =>
    cases hend
    rw [hpolicy] at wire measured ⊢
    exact retryCount_ite_reset (resetsRetries_applyServiceRetry measured
      wire.1 launched elapsed hranFor) rfl
  case h_2 revision _ _ policy horigin hend hpolicy =>
    cases hend
    rw [hpolicy] at wire measured ⊢
    exact retryCount_ite_reset (resetsRetries_applyServiceRetry measured
      wire.1 launched elapsed hranFor) rfl
  case h_3 hfailure halways =>
    rw [resetsRetries_unset]
    · rfl
    unfold ExecutionState.KindMatches ExecutionState.validatePolicyKind at kind
    cases horigin : self.origin <;> cases hpolicy : self.restartPolicy <;>
      simp only [horigin, hpolicy, reduceCtorEq] at kind
    case serviceIntent.service revision policy =>
      cases policy with
      | never => exact unset.restartResetAfterMs
      | onFailure policy =>
          exact (hfailure _ _ _ _ horigin rfl hpolicy).elim
      | always policy => exact (halways _ _ _ _ horigin rfl hpolicy).elim
    case job.job origin policy =>
      cases policy <;> exact unset.restartResetAfterMs

theorem Carries.reset (carries : Carries configuration self)
    (attemptEnd : AttemptEnd) :
    Carries configuration (self.resetRetries attemptEnd) := by
  obtain ⟨restart, wire, codes, kind, origin⟩ := carries
  refine ⟨?_, ?_, ?_, self.resetRetries_kindMatches attemptEnd kind, ?_⟩
  · rwa [ExecutionState.resetRetries_restartPolicy]
  · rwa [ExecutionState.resetRetries_restartPolicy]
  · rwa [ExecutionState.resetRetries_successExitCodes]
  · unfold ExecutionState.IsJob
    rwa [ExecutionState.resetRetries_origin]

inductive Decided (configuration : ExecutionConfiguration)
    (self : ExecutionState) (attempt : AttemptNumber)
    (attemptEnd : AttemptEnd) (instant : BootInstant) (retries : Nat) :
    ExecutionResult → Prop
  | finished
      (denied : shouldRetry configuration (!self.attemptFailed attemptEnd)
        retries = false) :
      Decided configuration self attempt attemptEnd instant retries
        (.ok (self.finishTerminal attempt attemptEnd))
  | retried {nextAttempt : AttemptNumber} {retry : RetryOrdinal}
      {retryAt : RetryDeadline}
      (permitted : shouldRetry configuration (!self.attemptFailed attemptEnd)
        retries = true)
      (successor : nextAttempt.get = attempt.get + 1)
      (ordinal : retry.get = retries + 1)
      (deadline : retryAt.instant.ticks = instant.ticks +
        retryDelay configuration (retries + 1) * 10_000) :
      Decided configuration self attempt attemptEnd instant retries
        (.ok (.new
          (self.backoffState attempt attemptEnd nextAttempt retry retryAt)
          [.scheduleRestart retryAt]))
  | overflow
      (permitted : shouldRetry configuration (!self.attemptFailed attemptEnd)
        retries = true)
      (late : tickLimit ≤ instant.ticks +
        retryDelay configuration (retries + 1) * 10_000) :
      Decided configuration self attempt attemptEnd instant retries
        (.error .deadlineOverflow)

theorem finishAttempt_denied {attempt : AttemptNumber}
    {attemptEnd : AttemptEnd} {retry : RetryOrdinal} (instant : BootInstant)
    (ordinal : ExecutionState.nextRetry
      (self.resetRetries attemptEnd).lastRetry = .ok retry)
    (permits : (self.resetRetries attemptEnd).policyPermits attemptEnd retry =
      .ok false) :
    self.finishAttempt attempt attemptEnd instant =
      .ok ((self.resetRetries attemptEnd).finishTerminal attempt
        attemptEnd) := by
  exact bind_eq_ok_iff.mpr ⟨retry, ordinal,
    bind_eq_ok_iff.mpr ⟨false, permits, rfl⟩⟩

theorem finishAttempt_retried {attempt nextAttempt : AttemptNumber}
    {attemptEnd : AttemptEnd} {retry : RetryOrdinal}
    {backoff : BackoffPolicy} {instant : BootInstant}
    (retryAt : RetryDeadline)
    (ordinal : ExecutionState.nextRetry
      (self.resetRetries attemptEnd).lastRetry = .ok retry)
    (permits : (self.resetRetries attemptEnd).policyPermits attemptEnd retry =
      .ok true)
    (successor : attempt.next = some nextAttempt)
    (policy : (self.resetRetries attemptEnd).backoff = .ok backoff)
    (deadline :
      instant.checkedAdd (backoff.delayFor retry) = some retryAt.instant) :
    self.finishAttempt attempt attemptEnd instant =
      .ok (.new
        ((self.resetRetries attemptEnd).backoffState attempt attemptEnd
          nextAttempt retry retryAt)
        [.scheduleRestart retryAt]) :=
  bind_eq_ok_iff.mpr ⟨retry, ordinal, bind_eq_ok_iff.mpr ⟨true, permits,
    bind_eq_ok_iff.mpr ⟨nextAttempt,
      orError_eq_ok.mpr successor,
      bind_eq_ok_iff.mpr ⟨backoff, policy, bind_eq_ok_iff.mpr ⟨retryAt,
        orError_eq_ok.mpr
          (ExecutionState.exists_deadline_iff.mpr deadline), rfl⟩⟩⟩⟩⟩

theorem finishAttempt_overflow {attempt nextAttempt : AttemptNumber}
    {attemptEnd : AttemptEnd} {retry : RetryOrdinal}
    {backoff : BackoffPolicy} {instant : BootInstant}
    (ordinal : ExecutionState.nextRetry
      (self.resetRetries attemptEnd).lastRetry = .ok retry)
    (permits : (self.resetRetries attemptEnd).policyPermits attemptEnd retry =
      .ok true)
    (successor : attempt.next = some nextAttempt)
    (policy : (self.resetRetries attemptEnd).backoff = .ok backoff)
    (deadline : instant.checkedAdd (backoff.delayFor retry) = none) :
    self.finishAttempt attempt attemptEnd instant =
      .error .deadlineOverflow :=
  bind_eq_error_iff.mpr (.inr ⟨retry, ordinal, bind_eq_error_iff.mpr
    (.inr ⟨true, permits, bind_eq_error_iff.mpr (.inr ⟨nextAttempt,
      orError_eq_ok.mpr successor,
      bind_eq_error_iff.mpr (.inr ⟨backoff, policy,
        bind_eq_error_iff.mpr (.inl (by rw [deadline]; rfl))⟩)⟩)⟩)⟩)

theorem Carries.decided (carries : Carries configuration self)
    {attempt : AttemptNumber} (counted : self.CountedBelow attempt)
    (room : attempt.get + 1 < 2 ^ 32) (attemptEnd : AttemptEnd)
    (instant : BootInstant) :
    Decided configuration (self.resetRetries attemptEnd) attempt attemptEnd
      instant
      (ExecutionState.retryCount (self.resetRetries attemptEnd).lastRetry)
      (self.finishAttempt attempt attemptEnd instant) := by
  have carries := carries.reset attemptEnd
  obtain ⟨retry, ordinal⟩ :=
    (self.resetRetries_countedBelow attemptEnd counted).nextRetry
  have hretry := ExecutionState.nextRetry_get ordinal
  have permits := carries.policyPermits attemptEnd retry
  rw [hretry, Nat.add_sub_cancel] at permits
  cases hdecision : shouldRetry configuration
      (!(self.resetRetries attemptEnd).attemptFailed attemptEnd)
      (ExecutionState.retryCount
        (self.resetRetries attemptEnd).lastRetry) with
  | false =>
      rw [hdecision] at permits
      rw [finishAttempt_denied instant ordinal permits]
      exact .finished hdecision
  | true =>
      rw [hdecision] at permits
      obtain ⟨nextAttempt, successor⟩ : ∃ nextAttempt,
          attempt.next = some nextAttempt := by
        cases hnext : attempt.next with
        | none =>
            have hlimit : 2 ^ 32 ≤ attempt.get + 1 :=
              Counter.next_eq_none_iff.mp hnext
            omega
        | some nextAttempt => exact ⟨nextAttempt, rfl⟩
      obtain ⟨backoff, policy⟩ :=
        ExecutionState.backoff_of_policyPermits permits
      have hdelay := carries.ticksOf_delayFor policy retry
      rw [hretry] at hdelay
      cases hinstant : instant.checkedAdd (backoff.delayFor retry) with
      | none =>
          have hlate := BootInstant.checkedAdd_eq_none_iff.mp hinstant
          rw [hdelay] at hlate
          rw [finishAttempt_overflow ordinal permits successor policy hinstant]
          exact .overflow hdecision hlate
      | some later =>
          have hlater := BootInstant.checkedAdd_eq_some_iff.mp hinstant
          rw [hdelay] at hlater
          rw [finishAttempt_retried ⟨later⟩ ordinal permits successor policy
            hinstant]
          exact .retried hdecision
            (Counter.next_eq_some_iff.mp successor).symm hretry hlater.symm

end Decision

end Susm.Supervisor
