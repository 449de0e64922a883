import Susm.Protocol.Supervisor

/-!
# Attach messages

The two directions of the `Attach` stream of `susm.supervisor.v1`, as the
supervisor writes and reads them.
-/

namespace Susm.Protocol

structure Hello where
  managerSessionId : String
  workloadId : String
  executionId : String
  supervisorId : String
  incarnation : Nat
  executionConfigHash : List UInt8
  lastSequence : Nat
  deriving DecidableEq, Repr

structure Observation where
  sequence : Nat
  kind : ObservationKind
  exitCode : Option UInt32
  detail : String
  attempt : Nat
  workloadProcessId : Nat
  deriving DecidableEq, Repr

inductive AttachRequest where
  | hello (hello : Hello)
  | observation (observation : Observation)
  deriving DecidableEq, Repr

structure Welcome where
  committedSequence : Nat
  deriving DecidableEq, Repr

/-- The kind is any string; a supervisor passes over those it does not know. -/
structure Command where
  kind : String
  payload : List UInt8
  deriving DecidableEq, Repr

structure AttachResponse where
  welcome : Option Welcome
  command : Option Command
  acknowledgement : Option Acknowledgement
  deriving DecidableEq, Repr

end Susm.Protocol
