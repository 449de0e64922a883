import Susm.Domain.SupervisorBinding
import Susm.Supervisor.RestartRefinement

/-!
# Delays between supervisors

The controller waits between two launches of a supervisor for the delay of the
launch policy, which it computes by a shift.  Together with the delays of the
domain and of the supervisor these are all the backoffs of the repository, and
each is the capped growth of its policy.
-/

namespace Susm.Controller

open Susm.Foundation
open Susm.Domain
open Susm.Protocol
open Susm.Supervisor

theorem launchDelay_lt (millis : Nat) : min millis 5_000 < 2 ^ 64 :=
  (min_le_right millis 5_000).trans_lt (by decide)

def supervisorRetryDelay (failures : Nat) : Duration :=
  let exponent := min (failures - 1) 31
  .fromMillis (min (saturatingMul (2 ^ 64) 100 (1 <<< exponent)) 5_000)
    (launchDelay_lt _)

theorem supervisorRetryDelay_nanos (failures : Nat) :
    (supervisorRetryDelay failures).nanos =
      capped 100 2 5_000 (failures - 1) * 10 ^ 6 := by
  unfold supervisorRetryDelay
  dsimp only
  rw [Duration.nanos_fromMillis, Nat.one_shiftLeft, min_saturatingMul (by decide)]
  congr 1
  rcases le_total (failures - 1) 31 with few | many
  · rw [min_eq_left few, capped]
  · rw [min_eq_right many]
    have last : capped 100 2 5_000 31 ≤ capped 100 2 5_000 (failures - 1) :=
      capped_mono (by decide) many
    have reached : capped 100 2 5_000 31 = 5_000 := by decide
    rw [reached] at last
    exact (le_antisymm capped_le last).symm

/--
Every backoff is the capped growth: the one of the domain for every policy and
every retry, where it is monotone and within its bounds; the one of the
supervisor for the same values in milliseconds; and the one of the controller
for the launch policy.
-/
structure BackoffsAgree : Prop where
  growth : ∀ (policy : BackoffPolicy) (retry : RetryOrdinal),
    (policy.delayFor retry).nanos =
      min (policy.initial.get.nanos * policy.multiplier.get ^ (retry.get - 1))
        policy.maximum.get.nanos
  monotone : ∀ (policy : BackoffPolicy) (first second : RetryOrdinal),
    first.get ≤ second.get → policy.delayFor first ≤ policy.delayFor second
  bounds : ∀ (policy : BackoffPolicy) (retry : RetryOrdinal),
    policy.initial.get ≤ policy.delayFor retry ∧
      policy.delayFor retry ≤ policy.maximum.get
  supervisor : ∀ (configuration : ExecutionConfiguration)
      (policy : BackoffPolicy) (retry : RetryOrdinal),
    policy.initial.get.nanos =
      configuration.restartBackoffInitialMs * 10 ^ 6 →
    policy.multiplier.get = configuration.restartBackoffMultiplier →
    policy.maximum.get.nanos =
      configuration.restartBackoffMaximumMs * 10 ^ 6 →
    configuration.restartBackoffMaximumMs < 2 ^ 64 →
    (policy.delayFor retry).nanos =
      retryDelay configuration retry.get * 10 ^ 6
  controller : ∀ failures : RetryOrdinal,
    supervisorRetryDelay failures.get =
      SupervisorLaunchPolicy.default.backoff.delayFor failures

theorem backoffs_agree : BackoffsAgree := by
  constructor
  case growth => exact BackoffPolicy.nanos_delayFor
  case monotone => exact fun policy _ _ => policy.delayFor_mono
  case bounds =>
    intro policy retry
    exact ⟨policy.initial_le_delayFor retry, policy.delayFor_le_maximum retry⟩
  case supervisor =>
    intro configuration policy retry initial multiplier maximum hlt
    exact delayFor_nanos_of_millis initial multiplier maximum hlt retry
  case controller =>
    intro failures
    apply Duration.ext
    rw [supervisorRetryDelay_nanos, BackoffPolicy.nanos_delayFor,
      ← capped_scale]
    rfl

end Susm.Controller
