/-!
# Runtime journal messages

The records of `susm.runtime.v1`.  The phase of a checkpoint and the kind of an
observation are strings on the wire; here they are the values the supervisor
writes.
-/

namespace Susm.Protocol

inductive CheckpointPhase where
  | launching
  | running
  | restartBackoff
  deriving DecidableEq, Repr

def CheckpointPhase.name : CheckpointPhase → String
  | .launching => "launching"
  | .running => "running"
  | .restartBackoff => "restart_backoff"

inductive ObservationKind where
  | attemptStarted
  | attemptExited
  | launchFailed
  | supervisorLost
  | restartBackoff
  | policyApplied
  | completed
  | failed
  | stopped
  | cancelled
  | outcomeUnknown
  deriving DecidableEq, Repr

def ObservationKind.name : ObservationKind → String
  | .attemptStarted => "attempt-started"
  | .attemptExited => "attempt-exited"
  | .launchFailed => "launch-failed"
  | .supervisorLost => "supervisor-lost"
  | .restartBackoff => "restart-backoff"
  | .policyApplied => "policy-applied"
  | .completed => "completed"
  | .failed => "failed"
  | .stopped => "stopped"
  | .cancelled => "cancelled"
  | .outcomeUnknown => "outcome-unknown"

structure EnvironmentValue where
  name : String
  value : String
  deriving DecidableEq, Repr

structure Checkpoint where
  managerSessionId : String
  workloadId : String
  executionId : String
  supervisorId : String
  incarnation : Nat
  executionConfigHash : List UInt8
  attempt : Nat
  phase : CheckpointPhase
  lastSequence : Nat
  committedSequence : Nat
  retryAtUnixMs : Int
  resolvedExecutable : String
  resolvedWorkingDirectory : String
  resolvedEnvironment : List EnvironmentValue
  deriving DecidableEq, Repr

structure RuntimeObservation where
  sequence : Nat
  kind : ObservationKind
  attempt : Nat
  exitCode : Option UInt32
  detail : String
  observedUnixMs : Int
  terminal : Bool
  workloadProcessId : Nat
  deriving DecidableEq, Repr

structure Acknowledgement where
  committedSequence : Nat
  deriving DecidableEq, Repr

inductive RuntimeRecord where
  | checkpoint (checkpoint : Checkpoint)
  | observation (observation : RuntimeObservation)
  | acknowledgement (acknowledgement : Acknowledgement)
  deriving DecidableEq, Repr

structure RuntimeFrame where
  format : Nat
  record : Option RuntimeRecord
  deriving DecidableEq, Repr

end Susm.Protocol
