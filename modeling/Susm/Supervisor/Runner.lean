import Susm.Foundation.Hex
import Susm.Foundation.Program
import Susm.Supervisor.Journal
import Susm.Supervisor.Policy

/-!
# The run loop of the supervisor

`run` recovers from the runtime journal, then launches attempt after attempt
until the execution is finished.  Clock, processes, files, the stop sources and
the policy channel belong to the environment; the loops take fuel.
-/

namespace Susm.Supervisor

open Susm.Foundation
open Susm.Protocol

inductive RunError where
  | io (path source : String)
  | preflight (reason : String)
  | windows (reason : String)
  | process (reason : String)
  | sessionEvent (reason : String)
  deriving DecidableEq, Repr

def RunError.message : RunError → String
  | .io path source => s!"cannot access {path}: {source}"
  | .preflight reason => s!"preflight failed: {reason}"
  | .windows reason => s!"Windows process isolation failed: {reason}"
  | .process reason => s!"process launch failed: {reason}"
  | .sessionEvent reason => s!"manager-session ending event failed: {reason}"

structure SupervisorIdentity where
  id : String
  incarnation : Nat
  deriving DecidableEq, Repr

/-- The resolved launch plan; the environment is ordered by name. -/
structure Preflight where
  executable : String
  workingDirectory : String
  environment : List EnvironmentValue
  deriving DecidableEq, Repr

/-- `attempt-{attempt:06}/result.pb`, or the result file of the execution. -/
inductive ResultTarget where
  | attempt (attempt : Nat)
  | execution
  deriving DecidableEq, Repr

/-! ## The environment -/

/-- What a failed append has left of its frame in the file. -/
inductive FrameLeft where
  | nothing
  | part
  | whole
  deriving DecidableEq, Repr

inductive AppendAnswer where
  | synced
  | failed (source : String) (left : FrameLeft)
  deriving DecidableEq, Repr

/-- What wakes the supervisor while the process runs. -/
inductive ProcessEvent where
  | sessionEnded
  | exited (status : Except String UInt32)
  | externalChanged (stop : Bool)
  | externalClosed
  | stdinStop
  | stdinClosed
  | policyClosed
  | policyChanged (update : Option PolicyUpdate)

/-- What wakes the supervisor during a restart backoff. -/
inductive BackoffEvent where
  | sessionEnded
  | externalChanged (stop : Bool)
  | externalClosed
  | stdinStop
  | stdinClosed
  | policyClosed
  | policyChanged (update : Option PolicyUpdate)
  | elapsed

inductive SupervisorOp where
  | newSupervisorId
  | openEndingEvent (managerSessionId : String)
  | ensurePrivateConsole
  | unixMs
  | stopRequested
  | append (record : RuntimeRecord)
  | writeResult (target : ResultTarget) (result : AttemptResult)
  | takePolicy
  | preflightConfiguration (configuration : ExecutionConfiguration)
  | createJob
  | spawn (preflight : Preflight) (arguments : List String)
  | terminateJob
  | selectProcess
  | waitChild
  | waitChildFor (millis : Nat)
  | sessionEnding
  | sendCtrlBreak (processId : Nat)
  | startStopCommand (executable : String) (arguments : List String)
  | endStopCommand
  | selectBackoff (delayMs : Nat)
  | finalizeJournal

@[reducible] def SupervisorAnswer : SupervisorOp → Type
  | .newSupervisorId => String
  | .openEndingEvent _ | .ensurePrivateConsole => Except RunError Unit
  | .unixMs => Int
  | .stopRequested | .sessionEnding => Bool
  | .append _ => AppendAnswer
  | .writeResult .. => Except RunError Unit
  | .takePolicy => Option PolicyUpdate
  | .preflightConfiguration _ => Except RunError Preflight
  | .createJob => Except String Unit
  | .spawn .. => Except String Nat
  | .terminateJob | .sendCtrlBreak _ | .endStopCommand => Unit
  | .selectProcess => ProcessEvent
  | .waitChild => Except String UInt32
  | .waitChildFor _ => Option (Except String UInt32)
  | .startStopCommand .. => Bool
  | .selectBackoff _ => BackoffEvent
  | .finalizeJournal => Except RunError Unit

abbrev Run := Program SupervisorOp SupervisorAnswer RunError

def call (op : SupervisorOp) : Run (SupervisorAnswer op) := Program.call op

def unixMs : Run Int := call .unixMs

/-! ## Recording -/

structure RuntimeRecorder where
  journalPath : String
  identity : SupervisorIdentity
  sequence : Nat
  committedSequence : Nat
  deriving DecidableEq, Repr

structure ObservationFacts where
  kind : ObservationKind
  attempt : Nat
  exitCode : Option UInt32
  detail : String
  terminal : Bool
  workloadProcessId : Nat
  deriving DecidableEq, Repr

def ObservationFacts.observation (facts : ObservationFacts) (sequence : Nat)
    (observedUnixMs : Int) : RuntimeObservation where
  sequence := sequence
  kind := facts.kind
  attempt := facts.attempt
  exitCode := facts.exitCode
  detail := facts.detail
  observedUnixMs := observedUnixMs
  terminal := facts.terminal
  workloadProcessId := facts.workloadProcessId

namespace RuntimeRecorder

def append (recorder : RuntimeRecorder) (record : RuntimeRecord) :
    Run (Except RunError Unit) := do
  match ← call (.append record) with
  | .synced => return .ok ()
  | .failed source _ => return .error (.io recorder.journalPath source)

def checkpointRecord (recorder : RuntimeRecorder)
    (configuration : ExecutionConfiguration) (attempt : Nat)
    (phase : CheckpointPhase) (retryAtUnixMs : Int)
    (preflight : Option Preflight) : Checkpoint where
  managerSessionId := configuration.managerSessionId
  workloadId := configuration.workloadId
  executionId := configuration.executionId
  supervisorId := recorder.identity.id
  incarnation := recorder.identity.incarnation
  executionConfigHash := configuration.executionConfigHash
  attempt := attempt
  phase := phase
  lastSequence := recorder.sequence
  committedSequence := recorder.committedSequence
  retryAtUnixMs := retryAtUnixMs
  resolvedExecutable := (preflight.map Preflight.executable).getD ""
  resolvedWorkingDirectory :=
    (preflight.map Preflight.workingDirectory).getD ""
  resolvedEnvironment := (preflight.map Preflight.environment).getD []

def checkpoint (recorder : RuntimeRecorder)
    (configuration : ExecutionConfiguration) (attempt : Nat)
    (phase : CheckpointPhase) (retryAtUnixMs : Int)
    (preflight : Option Preflight) : Run (Except RunError Unit) :=
  recorder.append (.checkpoint (recorder.checkpointRecord configuration
    attempt phase retryAtUnixMs preflight))

/-- The sequence is consumed even when the append fails. -/
def observe (recorder : RuntimeRecorder) (facts : ObservationFacts) :
    Run (RuntimeRecorder × Except RunError Unit) := do
  let recorder :=
    { recorder with sequence := saturatingAdd (2 ^ 64) recorder.sequence 1 }
  let observedUnixMs ← unixMs
  let result ← recorder.append
    (.observation (facts.observation recorder.sequence observedUnixMs))
  return (recorder, result)

/-- `observe(...)?` -/
def observeOrFail (recorder : RuntimeRecorder) (facts : ObservationFacts) :
    Run RuntimeRecorder := do
  let (recorder, result) ← recorder.observe facts
  Program.orFail result
  return recorder

end RuntimeRecorder

def hex (bytes : List UInt8) : String := String.ofList (hexText bytes)

def policyApplied (update : PolicyUpdate) (attempt processId : Nat) :
    ObservationFacts where
  kind := .policyApplied
  attempt := attempt
  exitCode := none
  detail := hex update.policyHash
  terminal := false
  workloadProcessId := processId

/-! ## Results -/

def stoppedResult (startedUnixMs : Int) : Run AttemptResult := do
  let endedUnixMs ← unixMs
  return {
    launched := false
    exitCode := none
    error := ""
    startedUnixMs := startedUnixMs
    endedUnixMs := endedUnixMs
    stopRequested := true
    forced := false
    outcome := none }

def failedResult (startedUnixMs : Int) (error : String) :
    Run AttemptResult := do
  let endedUnixMs ← unixMs
  return {
    launched := false
    exitCode := none
    error := error
    startedUnixMs := startedUnixMs
    endedUnixMs := endedUnixMs
    stopRequested := false
    forced := false
    outcome := none }

def finishExecutionKind (recorder : RuntimeRecorder) (attempt : Nat)
    (result : AttemptResult) (kind : ObservationKind) : Run Unit := do
  let _ ← recorder.observeOrFail
    { kind := kind
      attempt := attempt
      exitCode := result.exitCode
      detail := result.error
      terminal := true
      workloadProcessId := 0 }
  let written ← Program.call
    (.writeResult .execution { result with outcome := some kind })
  Program.orFail written

def finishKind (configuration : ExecutionConfiguration)
    (result : AttemptResult) : ObservationKind :=
  if result.stopRequested then
    match configuration.kind with
    | .job => .cancelled
    | .service => .stopped
  else if isSuccessful configuration result.exitCode then .completed
  else .failed

def finishExecution (configuration : ExecutionConfiguration)
    (recorder : RuntimeRecorder) (attempt : Nat) (result : AttemptResult) :
    Run Unit :=
  finishExecutionKind recorder attempt result
    (finishKind configuration result)

def writeAttemptResult (attempt : Nat) (result : AttemptResult) :
    Run Unit := do
  let written ← call (.writeResult (.attempt attempt) result)
  Program.orFail written

/-! ## One process -/

structure ProcessEnd where
  status : Except String UInt32
  stopRequested : Bool
  forced : Bool

/-- The time a stop may take once the manager session is ending. -/
def sessionStopMillis : Nat := 25_000

def sessionDeadline : Run (Option Nat) := do
  let signaled ← call .sessionEnding
  return if signaled then some sessionStopMillis else none

def terminateAndWait : Run ProcessEnd := do
  call .terminateJob
  let status ← call .waitChild
  return ⟨status, true, true⟩

def stopProcess (configuration : ExecutionConfiguration) (processId : Nat)
    (maximumTimeout : Option Nat) : Run ProcessEnd := do
  if configuration.stopMethod = .kill then
    terminateAndWait
  else
    let stopCommand ←
      if configuration.stopMethod = .command then
        call (.startStopCommand configuration.stopExecutable
          configuration.stopArguments)
      else do
        call (.sendCtrlBreak processId)
        pure false
    let wait := (maximumTimeout.map (min configuration.stopTimeoutMs)).getD
      configuration.stopTimeoutMs
    let ended ←
      match ← call (.waitChildFor wait) with
      | some status => pure ⟨status, true, false⟩
      | none => terminateAndWait
    if stopCommand then
      call .endStopCommand
    return ended

/-- What the select loop of `run_process` changes. -/
structure ProcessState where
  configuration : ExecutionConfiguration
  recorder : RuntimeRecorder
  policyOpen : Bool

def updateRunning (attempt : Nat) (preflight : Preflight) (processId : Nat)
    (update : PolicyUpdate) (state : ProcessState) : Run ProcessState := do
  let candidate := applyPolicy state.configuration update
  match ← state.recorder.checkpoint candidate attempt .running 0
      (some preflight) with
  | .error _ => return state
  | .ok () =>
      let (recorder, _) ← state.recorder.observe
        (policyApplied update attempt processId)
      return { state with configuration := candidate, recorder := recorder }

def processRound (attempt : Nat) (preflight : Preflight) (processId : Nat)
    (state : ProcessState) : Run (ProcessState ⊕ ProcessState × ProcessEnd) := do
  match ← call .selectProcess with
  | .sessionEnded =>
      let ended ← stopProcess state.configuration processId
        (some sessionStopMillis)
      return .inr (state, ended)
  | .exited status => return .inr (state, ⟨status, false, false⟩)
  | .externalChanged true | .stdinStop =>
      let deadline ← sessionDeadline
      let ended ← stopProcess state.configuration processId deadline
      return .inr (state, ended)
  | .externalChanged false => return .inl state
  | .externalClosed | .stdinClosed =>
      let status ← call .waitChild
      return .inr (state, ⟨status, false, false⟩)
  | .policyClosed => return .inl { state with policyOpen := false }
  | .policyChanged none => return .inl state
  | .policyChanged (some update) =>
      if state.policyOpen then
        let state ← updateRunning attempt preflight processId update state
        return .inl state
      else return .inl state

/-- What an attempt leaves behind for the run loop. -/
structure Attempted where
  configuration : ExecutionConfiguration
  recorder : RuntimeRecorder
  result : AttemptResult

/-- The process was created: persist that it runs and wait for its end. -/
def superviseProcess (fuel : Nat) (configuration : ExecutionConfiguration)
    (recorder : RuntimeRecorder) (attempt : Nat) (preflight : Preflight)
    (startedUnixMs : Int) (processId : Nat) : Run Attempted := do
  match ← recorder.checkpoint configuration attempt .running 0
      (some preflight) with
  | .error error =>
      call .terminateJob
      let reason := error.message
      let result ← failedResult startedUnixMs
        s!"failed to persist running state: {reason}"
      return ⟨configuration, recorder, result⟩
  | .ok () =>
  let (recorder, started) ← recorder.observe
    { kind := .attemptStarted
      attempt := attempt
      exitCode := none
      detail := ""
      terminal := false
      workloadProcessId := processId }
  match started with
  | .error error =>
      call .terminateJob
      let reason := error.message
      let result ← failedResult startedUnixMs
        s!"failed to persist attempt start: {reason}"
      return ⟨configuration, recorder, result⟩
  | .ok () =>
  let (state, ended) ← Program.iterate
    (processRound attempt preflight processId) fuel
    ⟨configuration, recorder, true⟩
  match ended.status with
  | .ok status =>
      let endedUnixMs ← unixMs
      return ⟨state.configuration, state.recorder,
        { launched := true
          exitCode := some status
          error := ""
          startedUnixMs := startedUnixMs
          endedUnixMs := endedUnixMs
          stopRequested := ended.stopRequested
          forced := ended.forced
          outcome := none }⟩
  | .error reason =>
      let result ← failedResult startedUnixMs
        s!"process wait failed: {reason}"
      return ⟨state.configuration, state.recorder, result⟩

def runProcess (fuel : Nat) (configuration : ExecutionConfiguration)
    (recorder : RuntimeRecorder) (attempt : Nat) (preflight : Preflight)
    (startedUnixMs : Int) : Run Attempted := do
  match ← call .createJob with
  | .error reason =>
      let result ← failedResult startedUnixMs
        s!"Job Object setup failed: {reason}"
      return ⟨configuration, recorder, result⟩
  | .ok () =>
      match ← call (.spawn preflight configuration.arguments) with
      | .error reason =>
          let result ← failedResult startedUnixMs reason
          return ⟨configuration, recorder, result⟩
      | .ok processId =>
          superviseProcess fuel configuration recorder attempt preflight
            startedUnixMs processId

/-! ## Restart backoff -/

inductive BackoffOutcome where
  | elapsed
  | stopped
  | retryDenied
  deriving DecidableEq, Repr

structure BackoffContext where
  attempt : Nat
  retryAtUnixMs : Int
  preflight : Option Preflight
  successful : Bool
  decisionRetries : Nat

/-- What the loop of `wait_backoff` changes. -/
structure BackoffState where
  configuration : ExecutionConfiguration
  recorder : RuntimeRecorder
  stdinOpen : Bool
  policyOpen : Bool

def updateBackoff (context : BackoffContext) (update : PolicyUpdate)
    (state : BackoffState) :
    Run (BackoffState ⊕ BackoffState × BackoffOutcome) := do
  let configuration := applyPolicy state.configuration update
  let persisted ← state.recorder.checkpoint configuration context.attempt
    .restartBackoff context.retryAtUnixMs context.preflight
  Program.orFail persisted
  let recorder ← state.recorder.observeOrFail
    (policyApplied update context.attempt 0)
  let state :=
    { state with configuration := configuration, recorder := recorder }
  if shouldRetry configuration context.successful context.decisionRetries then
    return .inl state
  else return .inr (state, .retryDenied)

def backoffRound (delayMs : Nat) (context : BackoffContext)
    (state : BackoffState) :
    Run (BackoffState ⊕ BackoffState × BackoffOutcome) := do
  match ← call (.selectBackoff delayMs) with
  | .sessionEnded | .externalChanged true => return .inr (state, .stopped)
  | .externalChanged false | .externalClosed => return .inl state
  | .stdinStop =>
      if state.stdinOpen then return .inr (state, .stopped)
      else return .inl state
  | .stdinClosed => return .inl { state with stdinOpen := false }
  | .policyClosed => return .inl { state with policyOpen := false }
  | .policyChanged none => return .inl state
  | .policyChanged (some update) =>
      if state.policyOpen then updateBackoff context update state
      else return .inl state
  | .elapsed => return .inr (state, .elapsed)

def waitBackoff (fuel delayMs : Nat) (context : BackoffContext)
    (configuration : ExecutionConfiguration) (recorder : RuntimeRecorder) :
    Run (BackoffState × BackoffOutcome) :=
  Program.iterate (backoffRound delayMs context) fuel
    ⟨configuration, recorder, true, true⟩

/-! ## The run loop -/

structure LoopState where
  configuration : ExecutionConfiguration
  recorder : RuntimeRecorder
  attempt : Nat
  retries : Nat
  preflight : Option Preflight

/-- The stop that was accepted during a backoff ends the execution. -/
def finishStopped (configuration : ExecutionConfiguration)
    (recorder : RuntimeRecorder) (attempt : Nat) : Run AttemptResult := do
  let now ← unixMs
  let stopped ← stoppedResult now
  finishExecution configuration recorder attempt stopped
  return stopped

/-- Count the retry, persist its deadline and wait for it. -/
def backOff (fuel : Nat) (state : LoopState) (successful : Bool)
    (exitCode : Option UInt32) (detail : String) :
    Run (LoopState × BackoffOutcome) := do
  let retries := saturatingAdd (2 ^ 32) state.retries 1
  let attempt := saturatingAdd (2 ^ 32) state.attempt 1
  let delay := retryDelay state.configuration retries
  let now ← unixMs
  let retryAt := retryAtUnixMs now delay
  let persisted ← state.recorder.checkpoint state.configuration attempt
    .restartBackoff retryAt state.preflight
  Program.orFail persisted
  let recorder ← state.recorder.observeOrFail
    { kind := .restartBackoff
      attempt := attempt
      exitCode := exitCode
      detail := detail
      terminal := false
      workloadProcessId := 0 }
  let (waited, outcome) ← waitBackoff fuel delay
    { attempt := attempt
      retryAtUnixMs := retryAt
      preflight := state.preflight
      successful := successful
      decisionRetries := retries - 1 }
    state.configuration recorder
  return ({ state with
      configuration := waited.configuration
      recorder := waited.recorder
      attempt := attempt
      retries := retries }, outcome)

/-- One round ends the execution or goes on with the next attempt. -/
abbrev RoundResult := LoopState ⊕ AttemptResult

def decideRetry (fuel : Nat) (state : LoopState) (result : AttemptResult) :
    Run RoundResult := do
  if result.stopRequested then
    finishExecution state.configuration state.recorder state.attempt result
    return .inr result
  else
    let successful := isSuccessful state.configuration result.exitCode
    let retries :=
      if resetsRetries state.configuration result then 0 else state.retries
    if shouldRetry state.configuration successful retries then
      let (state, outcome) ← backOff fuel { state with retries := retries }
        successful result.exitCode result.error
      match outcome with
      | .elapsed => return .inl state
      | .stopped =>
          let stopped ← finishStopped state.configuration state.recorder
            state.attempt
          return .inr stopped
      | .retryDenied =>
          finishExecution state.configuration state.recorder state.attempt
            result
          return .inr result
    else
      finishExecution state.configuration state.recorder state.attempt result
      return .inr result

def takePolicy (state : LoopState) : Run LoopState := do
  match ← call .takePolicy with
  | none => return state
  | some update =>
      let configuration := applyPolicy state.configuration update
      let persisted ← state.recorder.checkpoint configuration state.attempt
        .launching 0 state.preflight
      Program.orFail persisted
      let recorder ← state.recorder.observeOrFail
        (policyApplied update state.attempt 0)
      return { state with configuration := configuration, recorder := recorder }

/-- Resolve the launch plan once per execution and run the process. -/
def launch (fuel : Nat) (state : LoopState) (startedUnixMs : Int) :
    Run (LoopState × AttemptResult) := do
  match state.preflight with
  | some preflight =>
      let attempted ← runProcess fuel state.configuration state.recorder
        state.attempt preflight startedUnixMs
      return ({ state with
          configuration := attempted.configuration
          recorder := attempted.recorder }, attempted.result)
  | none =>
      match ← call (.preflightConfiguration state.configuration) with
      | .ok resolved =>
          let persisted ← state.recorder.checkpoint state.configuration
            state.attempt .launching 0 (some resolved)
          Program.orFail persisted
          let attempted ← runProcess fuel state.configuration state.recorder
            state.attempt resolved startedUnixMs
          return ({ state with
              configuration := attempted.configuration
              recorder := attempted.recorder
              preflight := some resolved }, attempted.result)
      | .error error =>
          let endedUnixMs ← unixMs
          let stopRequested ← call .stopRequested
          return (state,
            { launched := false
              exitCode := none
              error := error.message
              startedUnixMs := startedUnixMs
              endedUnixMs := endedUnixMs
              stopRequested := stopRequested
              forced := false
              outcome := none })

/-- One round of the loop of `run`. -/
def attemptRound (fuel : Nat) (state : LoopState) : Run RoundResult := do
  let state :=
    { state with
      configuration := { state.configuration with attempt := state.attempt } }
  let persisted ← state.recorder.checkpoint state.configuration state.attempt
    .launching 0 state.preflight
  Program.orFail persisted
  let startedUnixMs ← unixMs
  let state ← takePolicy state
  let (state, result) ← launch fuel state startedUnixMs
  writeAttemptResult state.attempt result
  let recorder ← state.recorder.observeOrFail
    { kind := if result.launched then .attemptExited else .launchFailed
      attempt := state.attempt
      exitCode := result.exitCode
      detail := result.error
      terminal := false
      workloadProcessId := 0 }
  decideRetry fuel { state with recorder := recorder } result

/-! ## Recovery -/

def lostResult (phase : CheckpointPhase) (now : Int) : AttemptResult where
  launched := phase = .running
  exitCode := none
  error := "previous supervisor disappeared before persisting the process outcome"
  startedUnixMs := 0
  endedUnixMs := now
  stopRequested := false
  forced := true
  outcome := none

def recoverActive (fuel : Nat) (phase : CheckpointPhase) (state : LoopState) :
    Run RoundResult := do
  if ← call .stopRequested then
    let stopped ← finishStopped state.configuration state.recorder
      state.attempt
    return .inr stopped
  else
    let now ← unixMs
    let result := lostResult phase now
    writeAttemptResult state.attempt result
    let recorder ← state.recorder.observeOrFail
      { kind := .supervisorLost
        attempt := state.attempt
        exitCode := none
        detail := result.error
        terminal := false
        workloadProcessId := 0 }
    if state.configuration.kind = .job then
      let result := { result with outcome := some .outcomeUnknown }
      finishExecutionKind recorder state.attempt result .outcomeUnknown
      return .inr result
    else if shouldRetry state.configuration false state.retries then
      let (state, outcome) ← backOff fuel { state with recorder := recorder }
        false none "recovering from supervisor loss"
      match outcome with
      | .elapsed => return .inl state
      | .stopped =>
          let stopped ← finishStopped state.configuration state.recorder
            state.attempt
          return .inr stopped
      | .retryDenied =>
          finishExecution state.configuration state.recorder state.attempt
            result
          return .inr result
    else
      finishExecution state.configuration recorder state.attempt result
      return .inr result

/-- A wait that the clock has overtaken is read as an unsigned maximum. -/
def remainingMillis (retryAt now : Int) : Nat :=
  let remaining := saturateI64 (retryAt - now)
  if remaining < 0 then 2 ^ 64 - 1 else remaining.toNat

/-- The previous supervisor was lost while it waited for a retry. -/
def recoverBackoff (fuel : Nat) (checkpoint : Checkpoint)
    (state : LoopState) : Run RoundResult := do
  let now ← unixMs
  if checkpoint.retryAtUnixMs > now then
    let later ← unixMs
    let (waited, outcome) ← waitBackoff fuel
      (remainingMillis checkpoint.retryAtUnixMs later)
      { attempt := state.attempt
        retryAtUnixMs := checkpoint.retryAtUnixMs
        preflight := state.preflight
        successful := false
        decisionRetries := state.attempt - 2 }
      state.configuration state.recorder
    let state :=
      { state with
        configuration := waited.configuration
        recorder := waited.recorder }
    match outcome with
    | .elapsed => return .inl state
    | .stopped =>
        let stopped ← finishStopped state.configuration state.recorder
          state.attempt
        return .inr stopped
    | .retryDenied =>
        let started ← unixMs
        let failed ← failedResult started
          "pending retry was denied by a policy update"
        finishExecution state.configuration state.recorder state.attempt failed
        return .inr failed
  else return .inl state

def isSeparator (char : Char) : Bool := char = '\\' ∨ char = '/'

/-- `Path::is_absolute` on Windows: a drive with a root, or a share. -/
def isAbsolute (path : String) : Bool :=
  match path.toList with
  | first :: second :: rest =>
      if isSeparator first ∧ isSeparator second then
        let server := rest.takeWhile (!isSeparator ·)
        let share := (rest.dropWhile (!isSeparator ·)).drop 1
        !server.isEmpty ∧ !(share.takeWhile (!isSeparator ·)).isEmpty
      else first.isAlpha ∧ second = ':' ∧ rest.head?.any isSeparator
  | _ => false

def recoveredPreflight (checkpoint : Checkpoint) : Option Preflight :=
  if isAbsolute checkpoint.resolvedExecutable ∧
      isAbsolute checkpoint.resolvedWorkingDirectory then
    some
      { executable := checkpoint.resolvedExecutable
        workingDirectory := checkpoint.resolvedWorkingDirectory
        environment := checkpoint.resolvedEnvironment }
  else none

/-- Where the loop starts: retries are rebuilt from the attempt number. -/
def initialState (configuration : ExecutionConfiguration)
    (recovery : RuntimeRecovery) (identity : SupervisorIdentity) :
    LoopState :=
  let attempt := match recovery.checkpoint with
    | none => max configuration.attempt 1
    | some checkpoint => max checkpoint.attempt 1
  { configuration := configuration
    recorder :=
      { journalPath := configuration.runtimeJournal
        identity := identity
        sequence := recovery.lastSequence
        committedSequence := recovery.committedSequence }
    attempt := attempt
    retries := attempt - 1
    preflight := recovery.checkpoint.bind recoveredPreflight }

def recover (fuel : Nat) (checkpoint : Option Checkpoint)
    (state : LoopState) : Run RoundResult :=
  match checkpoint with
  | none => return .inl state
  | some checkpoint =>
      match checkpoint.phase with
      | .launching | .running => recoverActive fuel checkpoint.phase state
      | .restartBackoff => recoverBackoff fuel checkpoint state

def run (fuel : Nat) (configuration : ExecutionConfiguration)
    (recovery : RuntimeRecovery) (identity : SupervisorIdentity) :
    Run AttemptResult := do
  if configuration.managerSessionId ≠ "" then
    let opened ← call (.openEndingEvent configuration.managerSessionId)
    Program.orFail opened
  let state := initialState configuration recovery identity
  let console ← call .ensurePrivateConsole
  Program.orFail console
  match ← recover fuel recovery.checkpoint state with
  | .inr result => return result
  | .inl state => Program.iterate (attemptRound fuel) fuel state

/-- `main`: the identity continues the one in the journal. -/
def supervise (fuel : Nat) (configuration : ExecutionConfiguration)
    (journal : RuntimeJournal) : Run AttemptResult := do
  let recovery := journal.recovery
  let identity ← match recovery.checkpoint with
    | none => do
        let id ← call .newSupervisorId
        pure ⟨id, 1⟩
    | some checkpoint =>
        pure ⟨checkpoint.supervisorId,
          saturatingAdd (2 ^ 32) checkpoint.incarnation 1⟩
  let result ← run fuel configuration recovery identity
  let finalized ← call .finalizeJournal
  Program.orFail finalized
  return result

end Susm.Supervisor
