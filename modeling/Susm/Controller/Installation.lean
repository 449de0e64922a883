import Susm.Controller.World
import Susm.Protocol.Protobuf

/-!
# An installation

A host with the Protobuf encodings of its messages and SHA-256, and a
controller on it that serves one service, for the runs on given inputs.
-/

namespace Susm.Controller

open Susm.Foundation
open Susm.Protocol

/-! ## SHA-256 -/

namespace Sha256

def wrap (value : Nat) : Nat := value % 2 ^ 32

def rotate (value count : Nat) : Nat :=
  value >>> count ||| wrap (value <<< (32 - count))

def roundConstants : List Nat :=
  [0x428a2f98, 0x71374491, 0xb5c0fbcf, 0xe9b5dba5, 0x3956c25b, 0x59f111f1,
   0x923f82a4, 0xab1c5ed5, 0xd807aa98, 0x12835b01, 0x243185be, 0x550c7dc3,
   0x72be5d74, 0x80deb1fe, 0x9bdc06a7, 0xc19bf174, 0xe49b69c1, 0xefbe4786,
   0x0fc19dc6, 0x240ca1cc, 0x2de92c6f, 0x4a7484aa, 0x5cb0a9dc, 0x76f988da,
   0x983e5152, 0xa831c66d, 0xb00327c8, 0xbf597fc7, 0xc6e00bf3, 0xd5a79147,
   0x06ca6351, 0x14292967, 0x27b70a85, 0x2e1b2138, 0x4d2c6dfc, 0x53380d13,
   0x650a7354, 0x766a0abb, 0x81c2c92e, 0x92722c85, 0xa2bfe8a1, 0xa81a664b,
   0xc24b8b70, 0xc76c51a3, 0xd192e819, 0xd6990624, 0xf40e3585, 0x106aa070,
   0x19a4c116, 0x1e376c08, 0x2748774c, 0x34b0bcb5, 0x391c0cb3, 0x4ed8aa4a,
   0x5b9cca4f, 0x682e6ff3, 0x748f82ee, 0x78a5636f, 0x84c87814, 0x8cc70208,
   0x90befffa, 0xa4506ceb, 0xbef9a3f7, 0xc67178f2]

def initialHash : List Nat :=
  [0x6a09e667, 0xbb67ae85, 0x3c6ef372, 0xa54ff53a, 0x510e527f, 0x9b05688c,
   0x1f83d9ab, 0x5be0cd19]

/-- The message words after the sixteen of a block, the newest first. -/
def extend : Nat → List Nat → List Nat
  | 0, words => words
  | rounds + 1, words =>
      let early := words.getD 14 0
      let late := words.getD 1 0
      let small := rotate early 7 ^^^ rotate early 18 ^^^ early >>> 3
      let large := rotate late 17 ^^^ rotate late 19 ^^^ late >>> 10
      extend rounds
        (wrap (words.getD 15 0 + small + words.getD 6 0 + large) :: words)

def round : List Nat → Nat × Nat → List Nat
  | [a, b, c, d, e, f, g, h], (constant, word) =>
      let large := rotate e 6 ^^^ rotate e 11 ^^^ rotate e 25
      let choice := (e &&& f) ^^^ ((e ^^^ 0xffffffff) &&& g)
      let first := h + large + choice + constant + word
      let small := rotate a 2 ^^^ rotate a 13 ^^^ rotate a 22
      let majority := (a &&& b) ^^^ (a &&& c) ^^^ (b &&& c)
      [wrap (first + small + majority), a, b, c, wrap (d + first), e, f, g]
  | state, _ => state

def word (bytes : List UInt8) : Nat :=
  bytes.foldl (fun value byte => 256 * value + byte.toNat) 0

def bytesOf (width value : Nat) : List UInt8 :=
  (List.range width).reverse.map fun index =>
    UInt8.ofNat (value / 256 ^ index % 256)

/-- A block of sixty-four bytes. -/
def compress (hash : List Nat) (block : List UInt8) : List Nat :=
  let words := ((List.range 16).map fun index =>
    word ((block.drop (4 * index)).take 4)).reverse
  let final := (roundConstants.zip (extend 48 words).reverse).foldl round hash
  List.zipWith (fun first second => wrap (first + second)) hash final

def pad (message : List UInt8) : List UInt8 :=
  let zeros := (119 - message.length % 64) % 64
  message ++ 0x80 :: List.replicate zeros 0 ++ bytesOf 8 (8 * message.length)

def digest (message : List UInt8) : List UInt8 :=
  let padded := pad message
  let blocks := (List.range (padded.length / 64)).map fun index =>
    (padded.drop (64 * index)).take 64
  (blocks.foldl compress initialHash).flatMap (bytesOf 4)

end Sha256

def installation : Host where
  encodeConfiguration := Protobuf.configuration
  encodePolicy := Protobuf.policy
  sha256 := Sha256.digest
  supervisorExecutable := "C:\\susm\\susm-supervisor.exe"
  versionPinPath _ := none

/-! ## A service -/

/-- The accepted definition of a service that is never restarted. -/
def toolDefinition : ExecutionConfiguration :=
  setExecutionHash installation
    { workloadId := "tool"
      executionId := ""
      attempt := 0
      kind := .service
      executable := "C:\\tool.exe"
      arguments := []
      workingDirectory := "C:\\"
      environmentSet := []
      environmentUnset := []
      successExitCodes := [0]
      stopMethod := .ctrlBreak
      stopTimeoutMs := 5000
      stopExecutable := ""
      stopArguments := []
      captureLogs := false
      segmentSize := 0
      segmentAgeMs := 0
      retentionSize := 0
      retentionSizeUnlimited := false
      retentionAgeMs := 0
      retentionAgeUnlimited := false
      logDirectory := ""
      runtimeJournal := ""
      resultFile := ""
      restartPolicy := .never
      maxRestarts := 0
      maxRestartsUnlimited := false
      restartResetAfterMs := 0
      restartBackoffInitialMs := 0
      restartBackoffMultiplier := 0
      restartBackoffMaximumMs := 0
      executionConfigHash := []
      managerSessionId := ""
      processDefinitionHash := Sha256.digest (Protobuf.utf8 "C:\\tool.exe")
      supervisorExecutable := ""
      versionPin := "" }

/-- Storage and files work, nothing arrives, nothing is interrupted. -/
def calm : Answer where
  candidate := none
  uuid := ""
  systemTime := 1_000
  stored := true
  written := true
  spawned := none
  result := none
  observation := none
  interrupted := false

/-- The session of the runs on given inputs. -/
def sampleSession : String := "01890000-0000-7000-8000-000000000000"

def loadCandidate (definitions : List ExecutionConfiguration) : Answer :=
  { calm with
    candidate := some
      ⟨Sha256.digest (definitions.flatMap Protobuf.configuration),
        definitions⟩ }

/-- `main` up to the point where it serves, with nothing enabled. -/
def startupEvents (definitions : List ExecutionConfiguration) : List Event :=
  .startup sampleSession [] ::
    .advance 0 (loadCandidate definitions) :: List.replicate 7 (.advance 0 calm)

def startEvents (executionId : String) (processId : Nat) : List Event :=
  [.command (.startService "tool") { calm with uuid := executionId },
    .advance 0 calm, .advance 0 { calm with spawned := some processId },
    .advance 0 calm, .advance 0 calm]

def sampleHello (executionId : String) (processId : Nat) : Hello where
  executionId := executionId
  workloadId := "tool"
  managerSessionId := sampleSession
  executionConfigHash :=
    (startedDefinition installation sampleSession executionId
      toolDefinition).executionConfigHash
  supervisorProcessId := processId

def completedResult : AttemptResult where
  launched := true
  exitCode := some 0
  error := ""
  startedUnixMs := 1_000
  endedUnixMs := 2_000
  stopRequested := false
  forced := false
  outcome := some .completed

def worldAfter (world : World) (events : List Event) : World :=
  (execute (World.step installation) world events).getD world

theorem runs_worldAfter {Admits : World → Event → Prop}
    [∀ world event, Decidable (Admits world event)] {world : World}
    {events : List Event}
    (executed : (executeAdmitted (World.step installation) Admits world
      events).isSome) :
    Runs (World.step installation) Admits world (worldAfter world events) :=
  executeAdmitted_getD_runs executed

theorem executed_worldAfter {Admits : World → Event → Prop}
    [∀ world event, Decidable (Admits world event)] {world : World}
    {events : List Event}
    (executed : (executeAdmitted (World.step installation) Admits world
      events).isSome) :
    executeAdmitted (World.step installation) Admits world events =
      some (worldAfter world events) := by
  obtain ⟨last, hlast⟩ := Option.isSome_iff_exists.mp executed
  rw [worldAfter, (executeAdmitted_runs hlast).1, hlast]
  rfl

theorem step_worldAfter {world : World} {event : Event}
    (moves : (World.step installation world event).isSome) :
    World.step installation world event = some (worldAfter world [event]) := by
  obtain ⟨next, moved⟩ := Option.isSome_iff_exists.mp moves
  rw [worldAfter, execute, moved]
  rfl

/-! ## Two worlds to begin with -/

def toolRecord : WorkloadRecord where
  kind := .service
  definition := some toolDefinition
  enabled := false
  lastOutcome := none

def toolRow : StoredWorkload where
  kind := .service
  definition := some toolDefinition
  enabled := false
  lastTriggeredSession := ""
  lastOutcome := none

/-- The controller serves, and nothing has been started. -/
def servingWorld : World where
  controller := some
    { session := sampleSession
      state :=
        { workloads := AList.singleton "tool" toolRecord
          active := ∅
          revision := 1
          sessionEnding := false
          cancelled := []
          receivers := [] }
      tasks := [] }
  database :=
    { configGeneration :=
        some (Sha256.digest (Protobuf.configuration toolDefinition))
      workloads := AList.singleton "tool" toolRow
      executions := ∅ }
  processes := []
  now := 0

def runningDefinition : ExecutionConfiguration :=
  startedDefinition installation sampleSession "e1" toolDefinition

def runningExecution : ActiveExecution :=
  { startingExecution installation "e1" runningDefinition with
    supervisorProcessId := 7
    state := .launching
    attachmentId := some "a1" }

def runningRow : StoredExecution :=
  { startingRow "tool" 1_000 runningDefinition with
    state := .launching
    supervisorProcessId := 7 }

/-- The tool has been started, and its supervisor has attached. -/
def attachedManager : Manager where
  session := sampleSession
  state :=
    { workloads := AList.singleton "tool" toolRecord
      active := AList.singleton "tool" runningExecution
      revision := 4
      sessionEnding := false
      cancelled := []
      receivers := [⟨"a1", "e1", [], []⟩] }
  tasks :=
    [.runWaiting
        { startedRun "tool" "e1" 1_000 runningDefinition with
          supervisorProcessId := 7 }
        0,
      .stream "a1" "e1"]

def attachedWorld : World where
  controller := some attachedManager
  database :=
    { servingWorld.database with
      executions := AList.singleton "e1" runningRow }
  processes := [⟨"e1", 7, true⟩]
  now := 0

theorem execute_startupEvents :
    execute (World.step installation) World.initial
      (startupEvents [toolDefinition]) = some servingWorld := by
  decide +kernel

theorem runs_servingWorld {Admits : World → Event → Prop}
    [∀ world event, Decidable (Admits world event)]
    (executed : (executeAdmitted (World.step installation) Admits World.initial
      (startupEvents [toolDefinition])).isSome) :
    Runs (World.step installation) Admits World.initial servingWorld := by
  have run := executeAdmitted_getD_runs executed
  rw [execute_startupEvents] at run
  exact run

theorem servingWorld_reachable :
    World.Reachable installation servingWorld :=
  execute_runs execute_startupEvents

theorem attachedWorld_reachable :
    World.Reachable installation attachedWorld := by
  have executed : execute (World.step installation) servingWorld
      (startEvents "e1" 7 ++
        [.attach (sampleHello "e1" 7) calm,
          .advance 1 { calm with uuid := "a1" }]) = some attachedWorld := by
    decide +kernel
  exact servingWorld_reachable.trans (execute_runs executed)

/-- The controller ends and is started again; the recovery monitor polls. -/
def reopenedEvents : List Event :=
  .controllerExited :: startupEvents [toolDefinition] ++
    List.replicate 2 (.advance 0 calm)

def readoptedExecution : ActiveExecution :=
  { openedExecution installation "e1" runningRow with
    state := .launching
    attachmentId := some "a2" }

def readoptedManager : Manager where
  session := sampleSession
  state :=
    { workloads := AList.singleton "tool" toolRecord
      active := AList.singleton "tool" readoptedExecution
      revision := 1
      sessionEnding := false
      cancelled := []
      receivers := [⟨"a2", "e1", [], []⟩] }
  tasks := [.monitorPoll "e1" runningRow 3_000 true, .stream "a2" "e1"]

/-- The supervisor of the execution has come back to the new controller. -/
def readoptedWorld : World :=
  { attachedWorld with controller := some readoptedManager }

theorem readoptedWorld_reachable :
    World.Reachable installation readoptedWorld := by
  have executed : execute (World.step installation) attachedWorld
      (reopenedEvents ++
        [.attach (sampleHello "e1" 7) calm,
          .advance 1 { calm with uuid := "a2" }]) = some readoptedWorld := by
    decide +kernel
  exact attachedWorld_reachable.trans (execute_runs executed)

end Susm.Controller
