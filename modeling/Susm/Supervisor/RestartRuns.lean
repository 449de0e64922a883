import Susm.Foundation.ProgramTrace
import Susm.Supervisor.RestartRefinement

/-!
# Whole executions refine the domain

The run loop of the supervisor in a world of attempts against the execution
state machine fed with the same attempts: both take the same decision at every
attempt end, as long as the boot clock can represent the retry deadlines.
-/

namespace Susm.Supervisor

open Susm.Foundation
open Susm.Domain
open Susm.Protocol
open Susm.Controller

inductive Decision where
  | next (attempt : Nat)
  | wait (ticks : Nat)
  | finish (attempt : Nat) (kind : ObservationKind)
  deriving DecidableEq, Repr

def decision? : Occurrence SupervisorOp SupervisorAnswer → Option Decision
  | ⟨.append (.checkpoint checkpoint), _⟩ =>
      if checkpoint.phase = .restartBackoff then
        some (.next checkpoint.attempt)
      else none
  | ⟨.append (.observation observation), _⟩ =>
      if observation.terminal then
        some (.finish observation.attempt observation.kind)
      else none
  | ⟨.selectBackoff delayMs, _⟩ => some (.wait (delayMs * 10_000))
  | _ => none

/-! ## Operations in a world of attempts -/

abbrev Decides {Value : Type} (program : Run Value) (world : AttemptWorld)
    (value : Value) (decisions : List Decision) (last : AttemptWorld) : Prop :=
  program.Yields AttemptWorld.answer decision? world value decisions last

section World

variable {world : AttemptWorld}

theorem unixMs_decides :
    Decides unixMs world (AttemptWorld.reading world.now) [] world :=
  .call rfl rfl

theorem orFail_decides {Value : Type} (value : Value) :
    Decides (Program.orFail (.ok value)) world value [] world :=
  .done value world

theorem append_decides (world : AttemptWorld) (recorder : RuntimeRecorder)
    (record : RuntimeRecord) :
    Decides (recorder.append record) world (.ok ())
      (decision? ⟨.append record, .synced⟩).toList world :=
  Program.Yields.bind_silent (.call rfl rfl) (.done _ _)

theorem checkpoint_decides (world : AttemptWorld) (recorder : RuntimeRecorder)
    (configuration : ExecutionConfiguration) (attempt : Nat)
    (phase : CheckpointPhase) (h : phase ≠ .restartBackoff)
    (retryAtUnixMs : Int) (preflight : Option Preflight) :
    Decides (recorder.checkpoint configuration attempt phase retryAtUnixMs
      preflight) world (.ok ()) [] world := by
  have hdecision : decision? ⟨.append (.checkpoint (recorder.checkpointRecord
      configuration attempt phase retryAtUnixMs preflight)), .synced⟩ =
      none := if_neg h
  have appended := append_decides world recorder (.checkpoint
    (recorder.checkpointRecord configuration attempt phase retryAtUnixMs
      preflight))
  rw [hdecision] at appended
  exact appended

theorem backoffCheckpoint_decides (world : AttemptWorld) (recorder : RuntimeRecorder)
    (configuration : ExecutionConfiguration) (attempt : Nat)
    (retryAtUnixMs : Int) (preflight : Option Preflight) :
    Decides (recorder.checkpoint configuration attempt .restartBackoff
      retryAtUnixMs preflight) world (.ok ()) [.next attempt] world :=
  append_decides world recorder _

def RuntimeRecorder.advanced (recorder : RuntimeRecorder) : RuntimeRecorder :=
  { recorder with sequence := saturatingAdd (2 ^ 64) recorder.sequence 1 }

def ObservationFacts.decisions (facts : ObservationFacts) : List Decision :=
  (if facts.terminal then
    some (Decision.finish facts.attempt facts.kind)
  else none).toList

theorem observe_decides (recorder : RuntimeRecorder)
    (facts : ObservationFacts) :
    Decides (recorder.observe facts) world (recorder.advanced, .ok ())
      facts.decisions world :=
  unixMs_decides.silent_bind
    ((append_decides world recorder.advanced _).bind_silent (.done _ _))

theorem observeOrFail_decides (recorder : RuntimeRecorder)
    (facts : ObservationFacts) :
    Decides (recorder.observeOrFail facts) world recorder.advanced
      facts.decisions world :=
  (observe_decides recorder facts).bind_silent
    ((orFail_decides ()).silent_bind (.done _ _))

def unlaunched (now : Int) (error : String) : AttemptResult where
  launched := false
  exitCode := none
  error := error
  startedUnixMs := now
  endedUnixMs := now
  stopRequested := false
  forced := false
  outcome := none

theorem failedResult_decides (world : AttemptWorld) (error : String) :
    Decides (failedResult (AttemptWorld.reading world.now) error) world
      (unlaunched (AttemptWorld.reading world.now) error) [] world :=
  unixMs_decides.silent_bind (.done _ _)

theorem writeAttemptResult_decides (attempt : Nat) (result : AttemptResult) :
    Decides (writeAttemptResult attempt result) world () [] world :=
  Program.Yields.silent_bind (.call rfl rfl) (orFail_decides ())

theorem takePolicy_decides (state : LoopState) :
    Decides (takePolicy state) world state [] world :=
  Program.Yields.silent_bind (.call rfl rfl) (.done _ _)

/-! ## One attempt -/

/-- What the result of an attempt says about its fate. -/
def AttemptFact.Shown (fact : AttemptFact) (now : Int)
    (result : AttemptResult) : Prop :=
  result.stopRequested = false ∧
    match fact with
    | .launchFailed _ => result.launched = false ∧ result.exitCode = none
    | .exited code millis =>
        result.launched = true ∧ result.exitCode = some code ∧
          result.startedUnixMs = AttemptWorld.reading now ∧
          result.endedUnixMs = AttemptWorld.reading (now + millis)

def AttemptWorld.after (world : AttemptWorld) : AttemptFact → AttemptWorld
  | .launchFailed _ => world.next
  | .exited _ millis => { world.next with now := world.now + millis }

/-- The attempt ends as its fate says, and decides nothing yet. -/
def AttemptFact.Attempts (fact : AttemptFact) {Value : Type}
    (program : Run Value) (world : AttemptWorld)
    (shown : Value → AttemptResult → Prop) : Prop :=
  ∃ value result, Decides program world value [] (world.after fact) ∧
    fact.Shown world.now result ∧ shown value result

theorem superviseProcess_decides {code : UInt32} {millis : Nat}
    {facts : List AttemptFact} (fuel : Nat)
    (configuration : ExecutionConfiguration) (recorder : RuntimeRecorder)
    (attempt : Nat) (preflight : Preflight) (processId : Nat)
    (h : world.facts = .exited code millis :: facts) :
    (AttemptFact.exited code millis).Attempts
      (superviseProcess (fuel + 1) configuration recorder attempt preflight
        (AttemptWorld.reading world.now) processId) world
      fun attempted result => attempted.configuration = configuration ∧
        attempted.result = result := by
  have hselect : world.answer .selectProcess =
      (.exited (.ok code), world.after (.exited code millis)) := by
    simp only [AttemptWorld.answer, h, List.head?_cons, AttemptWorld.after]
  have hround : Decides (processRound attempt preflight processId
      ⟨configuration, recorder.advanced, true⟩) world
      (.inr (⟨configuration, recorder.advanced, true⟩,
        ⟨.ok code, false, false⟩)) [] (world.after (.exited code millis)) :=
    Program.Yields.silent_bind (.call hselect rfl) (.done _ _)
  have hrunning := checkpoint_decides world recorder configuration
    attempt .running (by decide) 0 (some preflight)
  have hended : Decides unixMs (world.after (.exited code millis))
      (AttemptWorld.reading (world.now + millis)) [] (world.after (.exited code millis)) :=
    unixMs_decides
  refine ⟨⟨configuration, recorder.advanced,
    { launched := true
      exitCode := some code
      error := ""
      startedUnixMs := AttemptWorld.reading world.now
      endedUnixMs := AttemptWorld.reading (world.now + millis)
      stopRequested := false
      forced := false
      outcome := none }⟩, _, ?_, ⟨rfl, rfl, rfl, rfl, rfl⟩, rfl, rfl⟩
  refine hrunning.silent_bind ?_
  refine (observe_decides recorder _).silent_bind ?_
  refine (hround.iterate fuel).silent_bind ?_
  exact hended.silent_bind (.done _ _)

theorem unlaunched_shown (step : LaunchStep) (start now : Int)
    (error : String) :
    (AttemptFact.launchFailed step).Shown start (unlaunched now error) :=
  ⟨rfl, rfl, rfl⟩

theorem runProcess_decides {fact : AttemptFact} {facts : List AttemptFact}
    (fuel : Nat) (configuration : ExecutionConfiguration)
    (recorder : RuntimeRecorder) (attempt : Nat) (preflight : Preflight)
    (h : world.facts = fact :: facts) :
    fact.Attempts
      (runProcess (fuel + 1) configuration recorder attempt preflight
        (AttemptWorld.reading world.now)) world
      fun attempted result => attempted.configuration = configuration ∧
        attempted.result = result := by
  cases fact with
  | exited code millis =>
      have hjob : world.answer .createJob = (.ok (), world) := by
        simp only [AttemptWorld.answer, h, List.head?_cons]
      have hspawn : world.answer (.spawn preflight configuration.arguments) =
          (.ok 1, world) := by
        simp only [AttemptWorld.answer, h, List.head?_cons]
      obtain ⟨attempted, result, hdecides, hshown, heq⟩ :=
        superviseProcess_decides fuel configuration recorder attempt preflight
          1 h
      refine ⟨attempted, result, ?_, hshown, heq⟩
      refine Program.Yields.silent_bind (.call hjob rfl) ?_
      exact Program.Yields.silent_bind (.call hspawn rfl) hdecides
  | launchFailed step =>
      have hfailed (error : String) : Decides
          (failedResult (AttemptWorld.reading world.now) error) world.next
          (unlaunched (AttemptWorld.reading world.now) error) []
          world.next :=
        failedResult_decides world.next error
      obtain ⟨error, hdecides⟩ : ∃ error, Decides (runProcess (fuel + 1)
          configuration recorder attempt preflight
          (AttemptWorld.reading world.now)) world ⟨configuration, recorder,
            unlaunched (AttemptWorld.reading world.now) error⟩ []
          world.next := by
        cases step with
        | preflight | createJob =>
            have hjob : world.answer .createJob =
                (.error "cannot create the job", world.next) := by
              simp only [AttemptWorld.answer, h, List.head?_cons]
            exact ⟨_, .silent_bind (.call hjob rfl)
              ((hfailed _).silent_bind (.done _ _))⟩
        | spawn =>
            have hjob : world.answer .createJob = (.ok (), world) := by
              simp only [AttemptWorld.answer, h, List.head?_cons]
            have hspawn : world.answer
                (.spawn preflight configuration.arguments) =
                  (.error "cannot create the process", world.next) := by
              simp only [AttemptWorld.answer, h, List.head?_cons]
            exact ⟨_, .silent_bind (.call hjob rfl) (.silent_bind
              (.call hspawn rfl) ((hfailed _).silent_bind (.done _ _)))⟩
      exact ⟨_, unlaunched _ error, hdecides,
        unlaunched_shown _ _ _ _, rfl, rfl⟩

/-- The loop state without what an attempt may change in it. -/
def LoopState.SameCounts (state next : LoopState) : Prop :=
  next.configuration = state.configuration ∧ next.attempt = state.attempt ∧
    next.retries = state.retries

theorem launch_decides {fact : AttemptFact} {facts : List AttemptFact}
    (fuel : Nat) (state : LoopState) (h : world.facts = fact :: facts) :
    fact.Attempts
      (launch (fuel + 1) state (AttemptWorld.reading world.now)) world
      fun launched result => state.SameCounts launched.1 ∧
        launched.2 = result := by
  cases hpreflight : state.preflight with
  | some preflight =>
      obtain ⟨attempted, result, hdecides, hshown, hsame, rfl⟩ :=
        runProcess_decides fuel state.configuration state.recorder
          state.attempt preflight h
      refine ⟨({ state with
        configuration := attempted.configuration
        recorder := attempted.recorder }, attempted.result), _, ?_, hshown,
        ⟨hsame, rfl, rfl⟩, rfl⟩
      unfold launch
      rw [hpreflight]
      exact hdecides.bind_silent (.done _ _)
  | none =>
      by_cases hfact : fact = .launchFailed .preflight
      · subst hfact
        have hresolve : world.answer
            (.preflightConfiguration state.configuration) =
              (.error (.preflight "executable was not found"), world.next) := by
          simp only [AttemptWorld.answer, h, List.head?_cons]
        have hnow : Decides unixMs world.next
            (AttemptWorld.reading world.now) [] world.next :=
          unixMs_decides
        refine ⟨(state, unlaunched (AttemptWorld.reading world.now)
          (RunError.preflight "executable was not found").message), _, ?_,
          unlaunched_shown _ _ _ _, ⟨rfl, rfl, rfl⟩, rfl⟩
        unfold launch
        rw [hpreflight]
        refine Program.Yields.silent_bind (.call hresolve rfl) ?_
        refine hnow.silent_bind ?_
        exact Program.Yields.silent_bind (.call rfl rfl) (.done _ _)
      · have hresolve : world.answer
            (.preflightConfiguration state.configuration) =
              (.ok AttemptWorld.plan, world) := by
          simp only [AttemptWorld.answer, h, List.head?_cons]
          split
          next heq => exact absurd (Option.some.inj heq) hfact
          next => rfl
        have hlaunching := checkpoint_decides world state.recorder
          state.configuration state.attempt .launching (by decide) 0
          (some AttemptWorld.plan)
        obtain ⟨attempted, result, hdecides, hshown, hsame, rfl⟩ :=
          runProcess_decides fuel state.configuration state.recorder
            state.attempt AttemptWorld.plan h
        refine ⟨({ state with
          configuration := attempted.configuration
          recorder := attempted.recorder
          preflight := some AttemptWorld.plan }, attempted.result), _, ?_,
          hshown, ⟨hsame, rfl, rfl⟩, rfl⟩
        unfold launch
        rw [hpreflight]
        refine Program.Yields.silent_bind (.call hresolve rfl) ?_
        refine hlaunching.silent_bind ?_
        refine (orFail_decides ()).silent_bind ?_
        exact hdecides.bind_silent (.done _ _)

/-! ## One decision -/

theorem finishExecution_decides (world : AttemptWorld) (configuration : ExecutionConfiguration)
    (recorder : RuntimeRecorder) (attempt : Nat) (result : AttemptResult) :
    Decides (finishExecution configuration recorder attempt result) world ()
      [.finish attempt (finishKind configuration result)] world := by
  refine (observeOrFail_decides recorder _).bind_silent ?_
  exact Program.Yields.silent_bind (.call rfl rfl) (orFail_decides ())

def LoopState.retried (state : LoopState) : LoopState :=
  { state with
    recorder := state.recorder.advanced
    attempt := saturatingAdd (2 ^ 32) state.attempt 1
    retries := saturatingAdd (2 ^ 32) state.retries 1 }

def LoopState.delay (state : LoopState) : Nat :=
  retryDelay state.configuration state.retried.retries

theorem waitBackoff_decides (fuel delayMs : Nat) (context : BackoffContext)
    (configuration : ExecutionConfiguration) (recorder : RuntimeRecorder) :
    Decides (waitBackoff (fuel + 1) delayMs context configuration recorder)
      world (⟨configuration, recorder, true, true⟩, .elapsed)
      [.wait (delayMs * 10_000)]
      { world with now := world.now + delayMs } := by
  refine Program.Yields.iterate ?_ fuel
  exact Program.Yields.bind_silent (.call rfl rfl) (.done _ _)

theorem backOff_decides (world : AttemptWorld) (fuel : Nat) (state : LoopState) (successful : Bool)
    (exitCode : Option UInt32) (detail : String) :
    Decides (backOff (fuel + 1) state successful exitCode detail) world
      (state.retried, .elapsed)
      [.next state.retried.attempt, .wait (state.delay * 10_000)]
      { world with now := world.now + state.delay } := by
  have hnext := backoffCheckpoint_decides world state.recorder
    state.configuration state.retried.attempt
    (retryAtUnixMs (AttemptWorld.reading world.now) state.delay)
    state.preflight
  refine unixMs_decides.silent_bind ?_
  refine hnext.bind ?_
  refine (orFail_decides ()).silent_bind ?_
  refine (observeOrFail_decides state.recorder _).silent_bind ?_
  exact (waitBackoff_decides fuel _ _ _ _).bind_silent (.done _ _)

/-- What the loop knows when it decides about a retry. -/
def LoopState.counted (state : LoopState) (result : AttemptResult) :
    LoopState :=
  { state with
    retries :=
      if resetsRetries state.configuration result then 0 else state.retries }

theorem decideRetry_decides_retry {state : LoopState} {result : AttemptResult}
    (fuel : Nat) (unstopped : result.stopRequested = false)
    (retry : shouldRetry state.configuration
      (isSuccessful state.configuration result.exitCode)
      (state.counted result).retries = true) :
    Decides (decideRetry (fuel + 1) state result) world
      (.inl (state.counted result).retried)
      [.next (state.counted result).retried.attempt,
        .wait ((state.counted result).delay * 10_000)]
      { world with now := world.now + (state.counted result).delay } := by
  have hbackoff := backOff_decides world fuel
    (state.counted result)
    (isSuccessful state.configuration result.exitCode) result.exitCode
    result.error
  unfold decideRetry
  rw [if_neg (by simp [unstopped])]
  dsimp only
  rw [if_pos (by exact retry)]
  exact hbackoff.bind_silent (.done _ _)

theorem decideRetry_decides_finish {state : LoopState}
    {result : AttemptResult} (fuel : Nat)
    (unstopped : result.stopRequested = false)
    (denied : shouldRetry state.configuration
      (isSuccessful state.configuration result.exitCode)
      (state.counted result).retries = false) :
    Decides (decideRetry fuel state result) world (.inr result)
      [.finish state.attempt
        (if isSuccessful state.configuration result.exitCode then .completed
        else .failed)] world := by
  have hkind : finishKind state.configuration result =
      if isSuccessful state.configuration result.exitCode then .completed
      else .failed := by
    unfold finishKind
    rw [if_neg (by simp [unstopped])]
  unfold decideRetry
  rw [if_neg (by simp [unstopped]), ← hkind]
  dsimp only
  rw [if_neg (by exact ne_true_of_eq_false denied)]
  exact (finishExecution_decides ..).bind_silent (.done _ _)

theorem attemptRound_decides {fact : AttemptFact} {facts : List AttemptFact}
    (fuel : Nat) (state : LoopState) (h : world.facts = fact :: facts) :
    ∃ next result,
      { state with configuration :=
        { state.configuration with attempt := state.attempt } }.SameCounts
          next ∧
      fact.Shown world.now result ∧
      ∀ value decisions last,
        Decides (decideRetry (fuel + 1) next result) (world.after fact) value
          decisions last →
        Decides (attemptRound (fuel + 1) state) world value decisions last := by
  obtain ⟨⟨next, result⟩, _, hlaunch, hshown, hsame, rfl⟩ :=
    launch_decides fuel { state with configuration :=
      { state.configuration with attempt := state.attempt } } h
  have hlaunching := checkpoint_decides world state.recorder
    { state.configuration with attempt := state.attempt } state.attempt
    .launching (by decide) 0 state.preflight
  refine ⟨{ next with recorder := next.recorder.advanced }, result, hsame,
    hshown, fun value decisions last hdecide => ?_⟩
  refine hlaunching.silent_bind ?_
  refine (orFail_decides ()).silent_bind ?_
  refine unixMs_decides.silent_bind ?_
  refine (takePolicy_decides _).silent_bind ?_
  refine hlaunch.silent_bind ?_
  refine (writeAttemptResult_decides _ _).silent_bind ?_
  exact (observeOrFail_decides next.recorder _).silent_bind hdecide

/-! ## The attempt that never ends -/

abbrev Waits {Value : Type} (program : Run Value) (world : AttemptWorld) :
    Prop :=
  program.Starves AttemptWorld.answer decision? world []

theorem superviseProcess_waits (fuel : Nat)
    (configuration : ExecutionConfiguration) (recorder : RuntimeRecorder)
    (attempt : Nat) (preflight : Preflight) (startedUnixMs : Int)
    (processId : Nat) (h : world.facts = []) :
    Waits (superviseProcess fuel configuration recorder attempt preflight
      startedUnixMs processId) world := by
  have hselect : world.answer .selectProcess =
      (.policyChanged none, world) := by
    simp only [AttemptWorld.answer, h, List.head?_nil]
  have hround : Decides (processRound attempt preflight processId
      ⟨configuration, recorder.advanced, true⟩) world
      (.inl ⟨configuration, recorder.advanced, true⟩) [] world :=
    Program.Yields.silent_bind (.call hselect rfl) (.done _ _)
  have hrunning := checkpoint_decides world recorder configuration
    attempt .running (by decide) 0 (some preflight)
  refine hrunning.starves ?_
  refine (observe_decides recorder _).starves ?_
  exact (Program.Starves.iterate hround fuel).bind

theorem runProcess_waits (fuel : Nat)
    (configuration : ExecutionConfiguration) (recorder : RuntimeRecorder)
    (attempt : Nat) (preflight : Preflight) (startedUnixMs : Int)
    (h : world.facts = []) :
    Waits (runProcess fuel configuration recorder attempt preflight
      startedUnixMs) world := by
  have hjob : world.answer .createJob = (.ok (), world) := by
    simp only [AttemptWorld.answer, h, List.head?_nil]
  have hspawn : world.answer (.spawn preflight configuration.arguments) =
      (.ok 1, world) := by
    simp only [AttemptWorld.answer, h, List.head?_nil]
  refine Program.Yields.starves (.call hjob rfl) ?_
  refine Program.Yields.starves (.call hspawn rfl) ?_
  exact superviseProcess_waits fuel configuration recorder attempt preflight
    startedUnixMs 1 h

theorem launch_waits (fuel : Nat) (state : LoopState) (startedUnixMs : Int)
    (h : world.facts = []) :
    Waits (launch fuel state startedUnixMs) world := by
  unfold launch
  cases state.preflight with
  | some preflight =>
      exact (runProcess_waits fuel _ _ _ _ startedUnixMs h).bind
  | none =>
      have hresolve : world.answer
          (.preflightConfiguration state.configuration) =
            (.ok AttemptWorld.plan, world) := by
        simp only [AttemptWorld.answer, h, List.head?_nil]
      have hlaunching := checkpoint_decides world state.recorder
        state.configuration state.attempt .launching (by decide) 0
        (some AttemptWorld.plan)
      refine Program.Yields.starves (.call hresolve rfl) ?_
      refine hlaunching.starves ?_
      refine (orFail_decides ()).starves ?_
      exact (runProcess_waits fuel _ _ _ _ startedUnixMs h).bind

theorem attemptRound_waits (fuel : Nat) (state : LoopState)
    (h : world.facts = []) : Waits (attemptRound fuel state) world := by
  have hlaunching := checkpoint_decides world state.recorder
    { state.configuration with attempt := state.attempt } state.attempt
    .launching (by decide) 0 state.preflight
  refine hlaunching.starves ?_
  refine (orFail_decides ()).starves ?_
  refine unixMs_decides.starves ?_
  refine (takePolicy_decides _).starves ?_
  exact (launch_waits fuel _ _ h).bind

end World

end Susm.Supervisor
