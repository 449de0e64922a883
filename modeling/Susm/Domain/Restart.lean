import Susm.Domain.Ids
import Susm.Domain.Time

/-!
# Restart policies

Retry limits and capped exponential backoff.  A `BackoffPolicy` cannot be
built with a maximum below its initial delay.
-/

namespace Susm.Domain

open Susm.Foundation

structure BackoffPolicy where
  initial : NonZeroDuration
  multiplier : NonZeroU32
  maximum : NonZeroDuration
  initial_le_maximum : initial.get ≤ maximum.get
  deriving DecidableEq

namespace BackoffPolicy

/-- The retry loop of `delay_for`, with the rounds that are left. -/
def grow (multiplier : Nat) (maximum : Duration) : Nat → Duration → Duration
  | 0, delay => delay
  | rounds + 1, delay =>
      match delay.checkedMul multiplier with
      | some next =>
          if next < maximum then grow multiplier maximum rounds next
          else maximum
      | none => maximum

def delayFor (policy : BackoffPolicy) (retry : RetryOrdinal) : Duration :=
  let maximum := policy.maximum.get
  let delay := policy.initial.get
  if policy.multiplier.get = 1 ∨ delay = maximum then delay
  else grow policy.multiplier.get maximum (retry.get - 1) delay

end BackoffPolicy

inductive ServiceRetryLimit where
  | finite (maximum : NonZeroU32)
  | unlimited
  deriving DecidableEq

structure ServiceRetryPolicy where
  limit : ServiceRetryLimit
  resetAfter : NonZeroDuration
  backoff : BackoffPolicy
  deriving DecidableEq

inductive ServiceRestartPolicy where
  | never
  | onFailure (policy : ServiceRetryPolicy)
  | always (policy : ServiceRetryPolicy)
  deriving DecidableEq

structure JobRetryPolicy where
  maxRestarts : NonZeroU32
  backoff : BackoffPolicy
  deriving DecidableEq

inductive JobRestartPolicy where
  | never
  | onFailure (policy : JobRetryPolicy)
  deriving DecidableEq

inductive ExecutionRestartPolicy where
  | service (policy : ServiceRestartPolicy)
  | job (policy : JobRestartPolicy)
  deriving DecidableEq

end Susm.Domain
