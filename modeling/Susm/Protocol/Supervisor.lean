import Susm.Protocol.Runtime

/-!
# Supervisor messages

The records of `susm.supervisor.v1` that a supervisor runs from.  Fields that
are closed sets of strings on the wire are enumerations with their names.
-/

namespace Susm.Protocol

inductive WorkloadKind where
  | service
  | job
  deriving DecidableEq, Repr

def WorkloadKind.name : WorkloadKind → String
  | .service => "service"
  | .job => "job"

inductive RestartPolicyName where
  | never
  | onFailure
  | always
  deriving DecidableEq, Repr

def RestartPolicyName.name : RestartPolicyName → String
  | .never => "never"
  | .onFailure => "on-failure"
  | .always => "always"

inductive StopMethod where
  | ctrlBreak
  | command
  | kill
  deriving DecidableEq, Repr

def StopMethod.name : StopMethod → String
  | .ctrlBreak => "ctrl-break"
  | .command => "command"
  | .kill => "kill"

structure ExecutionConfiguration where
  workloadId : String
  executionId : String
  attempt : Nat
  kind : WorkloadKind
  executable : String
  arguments : List String
  workingDirectory : String
  environmentSet : List EnvironmentValue
  environmentUnset : List String
  successExitCodes : List UInt32
  stopMethod : StopMethod
  stopTimeoutMs : Nat
  stopExecutable : String
  stopArguments : List String
  captureLogs : Bool
  segmentSize : Nat
  segmentAgeMs : Nat
  retentionSize : Nat
  retentionSizeUnlimited : Bool
  retentionAgeMs : Nat
  retentionAgeUnlimited : Bool
  logDirectory : String
  runtimeJournal : String
  resultFile : String
  restartPolicy : RestartPolicyName
  maxRestarts : Nat
  maxRestartsUnlimited : Bool
  restartResetAfterMs : Nat
  restartBackoffInitialMs : Nat
  restartBackoffMultiplier : Nat
  restartBackoffMaximumMs : Nat
  executionConfigHash : List UInt8
  managerSessionId : String
  processDefinitionHash : List UInt8
  supervisorExecutable : String
  versionPin : String
  deriving DecidableEq, Repr

/-- `outcome` is empty until the execution is finished. -/
structure AttemptResult where
  launched : Bool
  exitCode : Option UInt32
  error : String
  startedUnixMs : Int
  endedUnixMs : Int
  stopRequested : Bool
  forced : Bool
  outcome : Option ObservationKind
  deriving DecidableEq, Repr

structure PolicyUpdate where
  successExitCodes : List UInt32
  restartPolicy : RestartPolicyName
  maxRestarts : Nat
  maxRestartsUnlimited : Bool
  restartResetAfterMs : Nat
  restartBackoffInitialMs : Nat
  restartBackoffMultiplier : Nat
  restartBackoffMaximumMs : Nat
  stopMethod : StopMethod
  stopTimeoutMs : Nat
  stopExecutable : String
  stopArguments : List String
  captureLogs : Bool
  segmentSize : Nat
  segmentAgeMs : Nat
  retentionSize : Nat
  retentionSizeUnlimited : Bool
  retentionAgeMs : Nat
  retentionAgeUnlimited : Bool
  policyHash : List UInt8
  deriving DecidableEq, Repr

end Susm.Protocol
