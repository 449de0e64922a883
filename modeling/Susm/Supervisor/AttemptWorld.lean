import Susm.Supervisor.Runner

/-!
# A world of attempts

An environment in which every file operation succeeds, nobody asks for a stop
and no policy update arrives.  What varies is the fate of each attempt.
-/

namespace Susm.Supervisor

open Susm.Foundation
open Susm.Protocol

inductive LaunchStep where
  | preflight
  | createJob
  | spawn
  deriving DecidableEq, Repr

inductive AttemptFact where
  | launchFailed (step : LaunchStep)
  | exited (code : UInt32) (millis : Nat)
  deriving DecidableEq, Repr

/-- The clock and the attempts to come; the last process never ends. -/
structure AttemptWorld where
  now : Int
  facts : List AttemptFact
  deriving DecidableEq, Repr

namespace AttemptWorld

def next (world : AttemptWorld) : AttemptWorld :=
  { world with facts := world.facts.tail }

/-- `unix_ms` reads zero before 1970 and from `2 ^ 63` milliseconds on. -/
def reading (now : Int) : Int := if 0 ≤ now ∧ now ≤ maxI64 then now else 0

theorem reading_of_mem {now : Int} (low : 0 ≤ now) (high : now ≤ maxI64) :
    reading now = now := if_pos ⟨low, high⟩

/-- The launch plan that the world resolves. -/
def plan : Preflight where
  executable := "C:\\tool.exe"
  workingDirectory := "C:\\"
  environment := []

/-- A launch step that is skipped leaves the failure to the step after it. -/
def answer (world : AttemptWorld) :
    (op : SupervisorOp) → SupervisorAnswer op × AttemptWorld
  | .newSupervisorId => ("supervisor", world)
  | .openEndingEvent _ => (.ok (), world)
  | .ensurePrivateConsole => (.ok (), world)
  | .unixMs => (reading world.now, world)
  | .stopRequested => (false, world)
  | .append _ => (.synced, world)
  | .writeResult _ _ => (.ok (), world)
  | .takePolicy => (none, world)
  | .preflightConfiguration _ =>
      match world.facts.head? with
      | some (.launchFailed .preflight) =>
          (.error (.preflight "executable was not found"), world.next)
      | _ => (.ok plan, world)
  | .createJob =>
      match world.facts.head? with
      | some (.launchFailed .preflight)
      | some (.launchFailed .createJob) =>
          (.error "cannot create the job", world.next)
      | _ => (.ok (), world)
  | .spawn _ _ =>
      match world.facts.head? with
      | some (.launchFailed _) => (.error "cannot create the process", world.next)
      | _ => (.ok 1, world)
  | .terminateJob => ((), world)
  | .selectProcess =>
      match world.facts.head? with
      | some (.exited code millis) =>
          (.exited (.ok code), { world.next with now := world.now + millis })
      | _ => (.policyChanged none, world)
  | .waitChild => (.ok 0, world)
  | .waitChildFor _ => (some (.ok 0), world)
  | .sessionEnding => (false, world)
  | .sendCtrlBreak _ => ((), world)
  | .startStopCommand _ _ => (false, world)
  | .endStopCommand => ((), world)
  | .selectBackoff delayMs =>
      (.elapsed, { world with now := world.now + delayMs })
  | .finalizeJournal => (.ok (), world)

end AttemptWorld

def life (fuel : Nat) (configuration : ExecutionConfiguration)
    (frames : List RuntimeFrame) (world : AttemptWorld) :
    Program.Execution SupervisorOp SupervisorAnswer RunError AttemptResult
      AttemptWorld :=
  (supervise fuel configuration ⟨false, frames⟩).exec AttemptWorld.answer world

/-- A service that runs one tool and is never restarted. -/
def toolConfiguration : ExecutionConfiguration where
  workloadId := "tool"
  executionId := "execution"
  attempt := 1
  kind := .service
  executable := "C:\\tool.exe"
  arguments := []
  workingDirectory := "C:\\"
  environmentSet := []
  environmentUnset := []
  successExitCodes := [0]
  stopMethod := .ctrlBreak
  stopTimeoutMs := 5000
  stopExecutable := ""
  stopArguments := []
  captureLogs := true
  segmentSize := 65536
  segmentAgeMs := 60000
  retentionSize := 0
  retentionSizeUnlimited := true
  retentionAgeMs := 0
  retentionAgeUnlimited := true
  logDirectory := "C:\\logs"
  runtimeJournal := "C:\\runtime.pb.open"
  resultFile := "C:\\result.pb"
  restartPolicy := .never
  maxRestarts := 0
  maxRestartsUnlimited := false
  restartResetAfterMs := 0
  restartBackoffInitialMs := 0
  restartBackoffMultiplier := 0
  restartBackoffMaximumMs := 0
  executionConfigHash := []
  managerSessionId := "session"
  processDefinitionHash := []
  supervisorExecutable := "C:\\susm-supervisor.exe"
  versionPin := ""

/-- The tool is started again after a failure, at most three times. -/
def retriedConfiguration : ExecutionConfiguration :=
  { toolConfiguration with
    restartPolicy := .onFailure
    maxRestarts := 3
    restartResetAfterMs := 60000
    restartBackoffInitialMs := 100
    restartBackoffMultiplier := 2
    restartBackoffMaximumMs := 1000 }

end Susm.Supervisor
