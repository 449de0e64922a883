import Susm.Foundation.Duration
import Susm.Protocol.Supervisor

/-!
# Restart decisions of the supervisor

The decisions that the supervisor takes from its execution configuration when
an attempt has ended, and the effect of a policy update on it.
-/

namespace Susm.Supervisor

open Susm.Foundation
open Susm.Protocol

def shouldRetry (configuration : ExecutionConfiguration) (successful : Bool)
    (retries : Nat) : Bool :=
  let policyAllows := configuration.restartPolicy = .always ∨
    (configuration.restartPolicy = .onFailure ∧ !successful)
  policyAllows ∧
    (configuration.maxRestartsUnlimited ∨ retries < configuration.maxRestarts)

/-- The loop of `retry_delay`, with the rounds that are left. -/
def growMillis (multiplier maximum : Nat) : Nat → Nat → Nat
  | 0, delay => delay
  | rounds + 1, delay =>
      growMillis multiplier maximum rounds
        (min (saturatingMul (2 ^ 64) delay multiplier) maximum)

def retryDelay (configuration : ExecutionConfiguration) (retry : Nat) : Nat :=
  let multiplier := max configuration.restartBackoffMultiplier 1
  let maximum := max configuration.restartBackoffMaximumMs 1
  let delay := max configuration.restartBackoffInitialMs 1
  min (growMillis multiplier maximum (retry - 1) delay) maximum

def isSuccessful (configuration : ExecutionConfiguration)
    (exitCode : Option UInt32) : Bool :=
  exitCode.any (· ∈ configuration.successExitCodes)

/-- The attempt was launched and ran for at least `restart_reset_after_ms`. -/
def resetsRetries (configuration : ExecutionConfiguration)
    (result : AttemptResult) : Bool :=
  result.launched ∧ configuration.restartResetAfterMs ≠ 0 ∧
    min (configuration.restartResetAfterMs : Int) maxI64 ≤
      saturateI64 (result.endedUnixMs - result.startedUnixMs)

/-- `unix_ms().saturating_add(...)` for a delay in milliseconds. -/
def retryAtUnixMs (now : Int) (delay : Nat) : Int :=
  saturateI64 (now + min (delay : Int) maxI64)

def applyPolicy (configuration : ExecutionConfiguration)
    (update : PolicyUpdate) : ExecutionConfiguration :=
  { configuration with
    successExitCodes := update.successExitCodes
    restartPolicy := update.restartPolicy
    maxRestarts := update.maxRestarts
    maxRestartsUnlimited := update.maxRestartsUnlimited
    restartResetAfterMs := update.restartResetAfterMs
    restartBackoffInitialMs := update.restartBackoffInitialMs
    restartBackoffMultiplier := update.restartBackoffMultiplier
    restartBackoffMaximumMs := update.restartBackoffMaximumMs
    stopMethod := update.stopMethod
    stopTimeoutMs := update.stopTimeoutMs
    stopExecutable := update.stopExecutable
    stopArguments := update.stopArguments
    captureLogs := update.captureLogs
    segmentSize := update.segmentSize
    segmentAgeMs := update.segmentAgeMs
    retentionSize := update.retentionSize
    retentionSizeUnlimited := update.retentionSizeUnlimited
    retentionAgeMs := update.retentionAgeMs
    retentionAgeUnlimited := update.retentionAgeUnlimited }

end Susm.Supervisor
