import Susm.Supervisor.AttemptWorld

/-!
# What a finished execution leaves behind

The supervisor finishes an execution with a terminal observation in its journal
and then with the result file.  Both say the same kind of end.
-/

namespace Susm.Supervisor

open Susm.Foundation
open Susm.Protocol

/-- The calls with which the supervisor finishes an execution; the outcome of a
job whose supervisor was lost is not known. -/
inductive Finishes (configuration : ExecutionConfiguration) :
    Run Unit → ObservationKind → Prop
  | decided (recorder : RuntimeRecorder) (attempt : Nat)
      (result : AttemptResult) :
      Finishes configuration
        (finishExecution configuration recorder attempt result)
        (finishKind configuration result)
  | unknown (recorder : RuntimeRecorder) (attempt : Nat)
      (result : AttemptResult) (job : configuration.kind = .job) :
      Finishes configuration
        (finishExecutionKind recorder attempt result .outcomeUnknown)
        .outcomeUnknown

structure Leaves (configuration : ExecutionConfiguration)
    (observation : RuntimeObservation) (result : AttemptResult) : Prop where
  called : ∃ program kind history, Finishes configuration program kind ∧
    program.Reaches history ∧
    (∃ answer, ⟨.append (.observation observation), answer⟩ ∈ history) ∧
    ∃ answer, ⟨.writeResult .execution result, answer⟩ ∈ history

def endMonitor (kind : ObservationKind) :
    Program.Monitor SupervisorOp SupervisorAnswer Unit where
  admits _ _ _ := True
  permits _
    | .append (.observation observation) => observation.kind = kind
    | .writeResult .execution result => result.outcome = some kind
    | _ => True
  after _ _ _ := ()

section Finishing

variable {configuration : ExecutionConfiguration} {kind : ObservationKind}
  {observation : RuntimeObservation} {result : AttemptResult}

theorem finishExecutionKind_writes (recorder : RuntimeRecorder) (attempt : Nat)
    (result : AttemptResult) :
    Program.Safe (endMonitor kind)
      (finishExecutionKind recorder attempt result kind) := by
  have observed (facts : ObservationFacts) (same : facts.kind = kind) :
      Program.Safe (endMonitor kind) (recorder.observeOrFail facts) := by
    refine .bind (.bind (.call fun _ => trivial) fun now =>
      .bind (.bind (.call fun _ => same) ?_) fun appended => .done _)
      fun observed => .bind (.done _) fun _ => .done _
    rintro (_ | ⟨source, left⟩) <;> exact .done _
  exact .bind (observed _ rfl) fun _ => .bind (.call fun _ => rfl) fun _ =>
    .done _

theorem Finishes.writes {program : Run Unit}
    (finishes : Finishes configuration program kind) :
    Program.Safe (endMonitor kind) program := by
  cases finishes with
  | decided => exact finishExecutionKind_writes _ _ _
  | unknown => exact finishExecutionKind_writes _ _ _

theorem Finishes.terminal {program : Run Unit}
    (finishes : Finishes configuration program kind) :
    kind ∈ [.completed, .failed, .stopped, .cancelled, .outcomeUnknown] := by
  cases finishes with
  | decided recorder attempt result =>
      unfold finishKind
      cases result.stopRequested <;> cases configuration.kind <;>
        cases isSuccessful configuration result.exitCode <;> simp
  | unknown => simp

theorem Leaves.agree (leaves : Leaves configuration observation result) :
    result.outcome = some observation.kind ∧ observation.kind ∈
      [.completed, .failed, .stopped, .cancelled, .outcomeUnknown] := by
  obtain ⟨program, kind, history, finishes, ⟨last, steps⟩,
    ⟨appended, observed⟩, written, wrote⟩ := leaves.called
  have admitted : (endMonitor kind).Admits () history := by
    clear steps observed wrote
    induction history with
    | nil => trivial
    | cons occurrence history ih => exact ⟨trivial, ih⟩
  have permits := Program.wp_permits (finishes.writes ()) steps admitted
  have allowed : ∀ occurrence ∈ history,
      (endMonitor kind).permits () occurrence.1 :=
    permits.forall fun _ _ permitted => permitted
  have hobserved : observation.kind = kind := allowed _ observed
  have hwrote : result.outcome = some kind := allowed _ wrote
  rw [hobserved, hwrote]
  exact ⟨rfl, finishes.terminal⟩

end Finishing

end Susm.Supervisor
