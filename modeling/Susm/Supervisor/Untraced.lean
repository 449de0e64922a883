import Susm.Supervisor.Runner

/-!
# What leaves no trace

Most of what the supervisor does neither writes a record into its journal nor
creates a process or a new identity.
-/

namespace Susm.Supervisor

open Susm.Foundation
open Susm.Protocol

/-- The operation writes a record, or creates a process or an identity. -/
def traced : SupervisorOp → Bool
  | .append _ | .spawn .. | .newSupervisorId => true
  | _ => false

abbrev Untraced {Value : Type} (program : Run Value) : Prop :=
  program.Only fun op => traced op = false

theorem call_untraced {op : SupervisorOp} (h : traced op = false) :
    Untraced (call op) :=
  .call h

theorem unixMs_untraced : Untraced unixMs := call_untraced rfl

theorem failedResult_untraced (startedUnixMs : Int) (error : String) :
    Untraced (failedResult startedUnixMs error) :=
  unixMs_untraced.bind fun _ => .done _

theorem stoppedResult_untraced (startedUnixMs : Int) :
    Untraced (stoppedResult startedUnixMs) :=
  unixMs_untraced.bind fun _ => .done _

theorem writeAttemptResult_untraced (attempt : Nat) (result : AttemptResult) :
    Untraced (writeAttemptResult attempt result) :=
  (call_untraced rfl).bind fun _ => .done _

theorem sessionDeadline_untraced : Untraced sessionDeadline :=
  (call_untraced rfl).bind fun _ => .done _

theorem terminateAndWait_untraced : Untraced terminateAndWait :=
  (call_untraced rfl).bind fun _ =>
    (call_untraced rfl).bind fun _ => .done _

theorem stopProcess_untraced (configuration : ExecutionConfiguration)
    (processId : Nat) (maximumTimeout : Option Nat) :
    Untraced (stopProcess configuration processId maximumTimeout) := by
  unfold stopProcess
  split
  · exact terminateAndWait_untraced
  extract_lets wait rest
  have hrest (stopCommand : Bool) : Untraced (rest stopCommand) := by
    refine (call_untraced rfl).bind fun ended => ?_
    extract_lets finish
    have hfinish (result : ProcessEnd) : Untraced (finish result) := by
      change Untraced (ite (stopCommand = true) _ _)
      split
      · exact (call_untraced rfl).bind fun _ => .done _
      · exact .done _
    cases ended with
    | some status => exact (Program.Only.done _).bind hfinish
    | none => exact terminateAndWait_untraced.bind hfinish
  split
  · exact (call_untraced rfl).bind hrest
  · exact (call_untraced rfl).bind fun _ =>
      (Program.Only.done _).bind hrest

end Susm.Supervisor
