import Susm.Domain.Restart
import Susm.Foundation.Hex
import Susm.Protocol.Supervisor

/-!
# Execution snapshots

The restart policy of a definition as the fields of an execution
configuration.  Durations travel as whole milliseconds.
-/

namespace Susm.Controller

open Susm.Foundation
open Susm.Domain
open Susm.Protocol

def durationMs (duration : Duration) : Nat :=
  (checked (2 ^ 64) duration.asMillis).getD (2 ^ 64 - 1)

def applyBackoff (snapshot : ExecutionConfiguration)
    (policy : BackoffPolicy) : ExecutionConfiguration :=
  { snapshot with
    restartBackoffInitialMs := durationMs policy.initial.get
    restartBackoffMultiplier := policy.multiplier.get
    restartBackoffMaximumMs := durationMs policy.maximum.get }

def applyServiceRetry (snapshot : ExecutionConfiguration)
    (policy : ServiceRetryPolicy) : ExecutionConfiguration :=
  let snapshot := match policy.limit with
    | .finite limit => { snapshot with maxRestarts := limit.get }
    | .unlimited => { snapshot with maxRestartsUnlimited := true }
  applyBackoff
    { snapshot with
      restartResetAfterMs := durationMs policy.resetAfter.get }
    policy.backoff

def applyRestart (snapshot : ExecutionConfiguration)
    (restart : ExecutionRestartPolicy) : ExecutionConfiguration :=
  match restart with
  | .service .never | .job .never =>
      { snapshot with restartPolicy := .never }
  | .service (.onFailure policy) =>
      applyServiceRetry { snapshot with restartPolicy := .onFailure } policy
  | .service (.always policy) =>
      applyServiceRetry { snapshot with restartPolicy := .always } policy
  | .job (.onFailure policy) =>
      applyBackoff
        { snapshot with
          restartPolicy := .onFailure
          maxRestarts := policy.maxRestarts.get }
        policy.backoff

/-- The restart fields still have the defaults of a new configuration. -/
structure RestartUnset (snapshot : ExecutionConfiguration) : Prop where
  maxRestarts : snapshot.maxRestarts = 0
  maxRestartsUnlimited : snapshot.maxRestartsUnlimited = false
  restartResetAfterMs : snapshot.restartResetAfterMs = 0
  restartBackoffInitialMs : snapshot.restartBackoffInitialMs = 0
  restartBackoffMultiplier : snapshot.restartBackoffMultiplier = 0
  restartBackoffMaximumMs : snapshot.restartBackoffMaximumMs = 0

namespace RestartUnset

variable {snapshot : ExecutionConfiguration}

theorem withPolicy (unset : RestartUnset snapshot)
    (restartPolicy : RestartPolicyName) :
    RestartUnset { snapshot with restartPolicy := restartPolicy } :=
  ⟨unset.1, unset.2, unset.3, unset.4, unset.5, unset.6⟩

theorem withAttempt (unset : RestartUnset snapshot) (attempt : Nat) :
    RestartUnset { snapshot with attempt := attempt } :=
  ⟨unset.1, unset.2, unset.3, unset.4, unset.5, unset.6⟩

end RestartUnset

theorem applyRestart_withAttempt (snapshot : ExecutionConfiguration)
    (restart : ExecutionRestartPolicy) (attempt : Nat) :
    { applyRestart snapshot restart with attempt := attempt } =
      applyRestart { snapshot with attempt := attempt } restart := by
  cases restart with
  | service policy =>
      cases policy with
      | never => rfl
      | onFailure policy | always policy =>
          simp only [applyRestart, applyServiceRetry]
          cases policy.limit <;> rfl
  | job policy => cases policy <;> rfl

/-! ## Hashes -/

/--
What the controller takes from its installation and from other packages: the
Protobuf encodings, SHA-256, the supervisor of the same version and the path of
the pin that keeps this version installed, if it has one.
-/
structure Host where
  encodeConfiguration : ExecutionConfiguration → List UInt8
  encodePolicy : PolicyUpdate → List UInt8
  sha256 : List UInt8 → List UInt8
  supervisorExecutable : String
  versionPinPath : String → Option String

def setExecutionHash (host : Host) (configuration : ExecutionConfiguration) :
    ExecutionConfiguration :=
  let cleared := { configuration with executionConfigHash := [] }
  { cleared with
    executionConfigHash := host.sha256 (host.encodeConfiguration cleared) }

/-- The fields of a configuration that a running supervisor can change. -/
def policyFields (configuration : ExecutionConfiguration) : PolicyUpdate where
  successExitCodes := configuration.successExitCodes
  restartPolicy := configuration.restartPolicy
  maxRestarts := configuration.maxRestarts
  maxRestartsUnlimited := configuration.maxRestartsUnlimited
  restartResetAfterMs := configuration.restartResetAfterMs
  restartBackoffInitialMs := configuration.restartBackoffInitialMs
  restartBackoffMultiplier := configuration.restartBackoffMultiplier
  restartBackoffMaximumMs := configuration.restartBackoffMaximumMs
  stopMethod := configuration.stopMethod
  stopTimeoutMs := configuration.stopTimeoutMs
  stopExecutable := configuration.stopExecutable
  stopArguments := configuration.stopArguments
  captureLogs := configuration.captureLogs
  segmentSize := configuration.segmentSize
  segmentAgeMs := configuration.segmentAgeMs
  retentionSize := configuration.retentionSize
  retentionSizeUnlimited := configuration.retentionSizeUnlimited
  retentionAgeMs := configuration.retentionAgeMs
  retentionAgeUnlimited := configuration.retentionAgeUnlimited
  policyHash := []

def policyUpdate (host : Host) (configuration : ExecutionConfiguration) :
    PolicyUpdate :=
  let update := policyFields configuration
  { update with policyHash := host.sha256 (host.encodePolicy update) }

def hex (bytes : List UInt8) : String := String.ofList (hexText bytes)

/-! ## Durations on the wire -/

/-- The wire carries the duration exactly. -/
def OnWire (duration : Duration) : Prop :=
  duration.nanos = durationMs duration * 10 ^ 6

instance (duration : Duration) : Decidable (OnWire duration) :=
  inferInstanceAs (Decidable (_ = _))

theorem durationMs_lt (duration : Duration) : durationMs duration < 2 ^ 64 := by
  unfold durationMs
  cases h : checked (2 ^ 64) duration.asMillis with
  | none => simp
  | some millis =>
      obtain ⟨hlt, rfl⟩ := checked_eq_some_iff.mp h
      exact hlt

theorem onWire_fromMillis (millis : Nat) (h : millis < 2 ^ 64) :
    OnWire (.fromMillis millis h) := by
  unfold OnWire durationMs
  rw [Duration.asMillis_fromMillis, checked_of_lt h]
  rfl

/-- Every duration of the policy is carried exactly. -/
def BackoffOnWire (policy : BackoffPolicy) : Prop :=
  OnWire policy.initial.get ∧ OnWire policy.maximum.get

def RestartOnWire : ExecutionRestartPolicy → Prop
  | .service .never | .job .never => True
  | .service (.onFailure policy) | .service (.always policy) =>
      OnWire policy.resetAfter.get ∧ BackoffOnWire policy.backoff
  | .job (.onFailure policy) => BackoffOnWire policy.backoff

end Susm.Controller
