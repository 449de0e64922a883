import Susm.Supervisor.RunnerRecovery
import Susm.Supervisor.Untraced

/-!
# The order of the checkpoints

Every checkpoint carries the identity of its process and continues the last
one: an attempt is launched, runs, and is followed by a backoff for the next
attempt.  A process is created at most once between two backoffs, behind a
checkpoint of the launch.
-/

namespace Susm.Supervisor

open Susm.Foundation
open Susm.Protocol

/-! ## The monitor of the checkpoints -/

/-- The identity of the process, the last checkpoint, and whether a process was
created behind it. -/
structure Progress where
  identity : Option SupervisorIdentity
  last : Option (Nat × CheckpointPhase)
  spawned : Bool
  deriving DecidableEq, Repr

inductive Continues (first : Nat) :
    Option (Nat × CheckpointPhase) → Nat → CheckpointPhase → Prop
  | begins : Continues first none first .launching
  | again (attempt : Nat) (phase : CheckpointPhase) :
      Continues first (some (attempt, phase)) attempt phase
  | runs (attempt : Nat) :
      Continues first (some (attempt, .launching)) attempt .running
  | retries (attempt : Nat) {phase : CheckpointPhase}
      (active : phase ≠ .restartBackoff) :
      Continues first (some (attempt, phase))
        (saturatingAdd (2 ^ 32) attempt 1) .restartBackoff
  | launches (attempt : Nat) :
      Continues first (some (attempt, .restartBackoff)) attempt .launching

namespace Progress

/-- A backoff belongs to an attempt that has no process yet. -/
def marked (progress : Progress) (attempt : Nat) (phase : CheckpointPhase) :
    Progress :=
  { progress with
    last := some (attempt, phase)
    spawned := progress.spawned && phase ≠ .restartBackoff }

def permits (first : Nat) (progress : Progress) : SupervisorOp → Prop
  | .append (.checkpoint checkpoint) =>
      progress.identity =
          some ⟨checkpoint.supervisorId, checkpoint.incarnation⟩ ∧
        Continues first progress.last checkpoint.attempt checkpoint.phase
  | .spawn .. => progress.spawned = false ∧
      ∃ attempt, progress.last = some (attempt, .launching)
  | .newSupervisorId => progress.identity = none
  | _ => True

def after (progress : Progress) :
    (op : SupervisorOp) → SupervisorAnswer op → Progress
  | .append (.checkpoint checkpoint), _ =>
      progress.marked checkpoint.attempt checkpoint.phase
  | .spawn .., _ => { progress with spawned := true }
  | .newSupervisorId, id => { progress with identity := some ⟨id, 1⟩ }
  | _, _ => progress

end Progress

def progressMonitor (first : Nat) :
    Program.Monitor SupervisorOp SupervisorAnswer Progress where
  admits _ _ _ := True
  permits := Progress.permits first
  after := Progress.after

/-- The program ends without an error only in such a state. -/
abbrev Achieves (first : Nat) {Value : Type} (program : Run Value)
    (progress : Progress) (post : Value → Progress → Prop) : Prop :=
  program.wp (progressMonitor first) (Program.onOk post) progress

/-! ## Where the supervisor stands -/

structure Stands (identity : SupervisorIdentity) (attempt : Nat)
    (phase : CheckpointPhase) (progress : Progress) : Prop where
  identity : progress.identity = some identity
  last : progress.last = some (attempt, phase)

/-- The attempt was launched, and its process may have run. -/
def Active (identity : SupervisorIdentity) (attempt : Nat)
    (progress : Progress) : Prop :=
  ∃ phase ≠ CheckpointPhase.restartBackoff,
    Stands identity attempt phase progress

/-- No process was created for the attempt yet. -/
structure Unspawned (identity : SupervisorIdentity) (attempt : Nat)
    (phase : CheckpointPhase) (progress : Progress) : Prop
    extends Stands identity attempt phase progress where
  spawned : progress.spawned = false

structure Launchable (first : Nat) (identity : SupervisorIdentity)
    (attempt : Nat) (progress : Progress) : Prop where
  identity : progress.identity = some identity
  continues : Continues first progress.last attempt .launching
  spawned : progress.spawned = false

section Standing

variable {first attempt : Nat} {identity : SupervisorIdentity}
  {phase next : CheckpointPhase} {progress : Progress}

theorem Stands.marked (stands : Stands identity attempt phase progress)
    (later : Nat) : Stands identity later next (progress.marked later next) :=
  ⟨stands.identity, rfl⟩

theorem Stands.active (stands : Stands identity attempt phase progress)
    (active : phase ≠ .restartBackoff) : Active identity attempt progress :=
  ⟨phase, active, stands⟩

theorem Unspawned.again
    (unspawned : Unspawned identity attempt phase progress) :
    Unspawned identity attempt phase (progress.marked attempt phase) := by
  refine ⟨unspawned.toStands.marked attempt, ?_⟩
  simp [Progress.marked, unspawned.spawned]

theorem Launchable.marked
    (launchable : Launchable first identity attempt progress) :
    Unspawned identity attempt .launching
      (progress.marked attempt .launching) := by
  refine ⟨⟨launchable.identity, rfl⟩, ?_⟩
  simp [Progress.marked, launchable.spawned]

theorem Unspawned.launchable
    (unspawned : Unspawned identity attempt .restartBackoff progress) :
    Launchable first identity attempt progress where
  identity := unspawned.identity
  continues := by
    rw [unspawned.last]
    exact .launches attempt
  spawned := unspawned.spawned

theorem Active.backoff (active : Active identity attempt progress)
    (later : Nat) :
    Unspawned identity later .restartBackoff
      (progress.marked later .restartBackoff) := by
  obtain ⟨phase, -, stands⟩ := active
  refine ⟨stands.marked later, ?_⟩
  simp [Progress.marked]

end Standing

/-! ## What leaves the progress alone -/

section Operations

variable {first attempt : Nat} {progress : Progress} {Value Result : Type}
  {recorder : RuntimeRecorder}

/-- The operation appends a checkpoint, or creates a process or an identity. -/
def marks : SupervisorOp → Bool
  | .append (.checkpoint _) | .spawn .. | .newSupervisorId => true
  | _ => false

abbrev Unmarked {Value : Type} (program : Run Value) : Prop :=
  program.Only fun op => marks op = false

theorem call_unmarked {op : SupervisorOp} (h : marks op = false) :
    Unmarked (call op) :=
  .call h

theorem Untraced.unmarked {program : Run Value}
    (untraced : Untraced program) : Unmarked program := by
  refine untraced.mono fun op h => ?_
  cases op <;> first | rfl | cases h

theorem Unmarked.achieves {program : Run Value} (unmarked : Unmarked program) :
    Achieves first program progress fun _ last => last = progress := by
  refine unmarked.wp (fun progress op h => ?_)
    (fun progress op answer h => ?_) progress
  · rcases op with _ | _ | _ | _ | _ | ⟨⟨⟩⟩ | _ <;> trivial
  · rcases op with _ | _ | _ | _ | _ | ⟨⟨⟩⟩ | _ <;> first | rfl | cases h

theorem Unmarked.seq {program : Run Value} {next : Value → Run Result}
    {post : Result → Progress → Prop} (unmarked : Unmarked program)
    (rest : ∀ value, Achieves first (next value) progress post) :
    Achieves first (program.bind next) progress post := by
  refine Program.wp_seq unmarked.achieves ?_
  rintro value _ rfl
  exact rest value

theorem orFail_unmarked (result : Except RunError Value) :
    Unmarked (Program.orFail result) :=
  .done result

theorem observe_unmarked (facts : ObservationFacts) :
    Unmarked (recorder.observe facts) := by
  refine unixMs_untraced.unmarked.bind fun now => ?_
  refine (Program.Only.bind (call_unmarked rfl) fun answer => ?_).bind
    fun result => .done _
  cases answer <;> exact .done _

theorem observe_achieves (facts : ObservationFacts) :
    Achieves first (recorder.observe facts) progress fun observed last =>
      observed.1.identity = recorder.identity ∧ last = progress := by
  refine unixMs_untraced.unmarked.seq fun now => ?_
  refine Program.wp_bind (Program.wp_bind (Program.wp_call trivial ?_))
  rintro (_ | ⟨source, left⟩) - <;> exact ⟨rfl, rfl⟩

theorem observeOrFail_achieves (facts : ObservationFacts) :
    Achieves first (recorder.observeOrFail facts) progress
      fun observed last =>
        observed.identity = recorder.identity ∧ last = progress := by
  refine Program.wp_seq (observe_achieves facts) ?_
  rintro ⟨observed, result⟩ _ ⟨hidentity, rfl⟩
  refine (orFail_unmarked result).seq fun _ => ⟨hidentity, rfl⟩

theorem finishExecutionKind_unmarked (attempt : Nat) (result : AttemptResult)
    (kind : ObservationKind) :
    Unmarked (finishExecutionKind recorder attempt result kind) := by
  refine ((observe_unmarked _).bind fun observed => ?_).bind fun _ => ?_
  · exact (orFail_unmarked _).bind fun _ => .done _
  · exact (call_unmarked rfl).bind fun _ => orFail_unmarked _

theorem finishStopped_unmarked (configuration : ExecutionConfiguration)
    (attempt : Nat) :
    Unmarked (finishStopped configuration recorder attempt) :=
  unixMs_untraced.unmarked.bind fun now =>
    (stoppedResult_untraced now).unmarked.bind fun stopped =>
      (finishExecutionKind_unmarked attempt stopped _).bind fun _ => .done _

theorem checkpoint_achieves {phase : CheckpointPhase}
    (identified : progress.identity = some recorder.identity)
    (continues : Continues first progress.last attempt phase)
    (configuration : ExecutionConfiguration) (retryAtUnixMs : Int)
    (preflight : Option Preflight) :
    Achieves first (recorder.checkpoint configuration attempt phase
      retryAtUnixMs preflight) progress fun _ last =>
        last = progress.marked attempt phase := by
  refine Program.wp_bind (Program.wp_call ⟨identified, continues⟩ ?_)
  rintro (_ | ⟨source, left⟩) - <;> exact rfl

end Operations

/-! ## An attempt -/

section Attempt

variable {first attempt : Nat} {progress : Progress}

theorem takePolicy_achieves {state : LoopState}
    (unspawned : Unspawned state.recorder.identity state.attempt .launching
      progress) :
    Achieves first (takePolicy state) progress fun next last =>
      Unspawned next.recorder.identity next.attempt .launching last := by
  refine (call_unmarked rfl).seq fun update => ?_
  cases update with
  | none => exact unspawned
  | some update =>
      refine Program.wp_seq (checkpoint_achieves unspawned.identity ?_ ..) ?_
      · rw [unspawned.last]
        exact .again _ _
      rintro persisted _ rfl
      refine (orFail_unmarked persisted).seq fun _ => ?_
      refine Program.wp_seq (observeOrFail_achieves _) ?_
      rintro recorder _ ⟨hidentity, rfl⟩
      have unspawned := unspawned.again
      rwa [← hidentity] at unspawned

theorem updateRunning_achieves {state : ProcessState}
    (stands : Stands state.recorder.identity attempt .running progress)
    (preflight : Preflight) (processId : Nat) (update : PolicyUpdate) :
    Achieves first (updateRunning attempt preflight processId update state)
      progress fun next last =>
        Stands next.recorder.identity attempt .running last := by
  refine Program.wp_seq (checkpoint_achieves stands.identity ?_ ..) ?_
  · rw [stands.last]
    exact .again _ _
  rintro persisted _ rfl
  cases persisted with
  | error error => exact stands.marked attempt
  | ok persisted =>
      refine Program.wp_seq (observe_achieves _) ?_
      rintro ⟨recorder, result⟩ _ ⟨hidentity, rfl⟩
      have marked : Stands state.recorder.identity attempt .running
          (progress.marked attempt .running) := stands.marked attempt
      rwa [← hidentity] at marked

theorem processRound_achieves {state : ProcessState}
    (stands : Stands state.recorder.identity attempt .running progress)
    (preflight : Preflight) (processId : Nat) :
    Achieves first (processRound attempt preflight processId state) progress
      fun next last => Stands (next.elim ProcessState.recorder
        fun ended => ended.1.recorder).identity attempt .running last := by
  refine (call_unmarked rfl).seq fun event => ?_
  have stopped (deadline : Option Nat) : Achieves first
      ((stopProcess state.configuration processId deadline).bind fun ended =>
        .done (.ok (Sum.inr (state, ended)))) progress
      fun next last => Stands (next.elim ProcessState.recorder
        fun ended => ended.1.recorder).identity attempt .running last :=
    (stopProcess_untraced _ _ _).unmarked.seq fun ended => stands
  cases event with
  | sessionEnded => exact stopped _
  | exited status => exact stands
  | externalChanged stop =>
      cases stop with
      | true => exact sessionDeadline_untraced.unmarked.seq stopped
      | false => exact stands
  | stdinStop => exact sessionDeadline_untraced.unmarked.seq stopped
  | externalClosed | stdinClosed =>
      exact (call_unmarked rfl).seq fun status => stands
  | policyClosed => exact stands
  | policyChanged update =>
      cases update with
      | none => exact stands
      | some update =>
          change Achieves first (ite (state.policyOpen = true) _ _) _ _
          split
          · refine Program.wp_seq (updateRunning_achieves stands preflight
              processId update) fun next last hstands => ?_
            exact hstands
          · exact stands

theorem processLoop_achieves {state : ProcessState}
    (stands : Stands state.recorder.identity attempt .running progress)
    (fuel : Nat) (preflight : Preflight) (processId : Nat) :
    Achieves first (Program.iterate (processRound attempt preflight processId)
      fuel state) progress fun ended last =>
        Stands ended.1.recorder.identity attempt .running last := by
  refine Program.wp_loop (fun (state : ProcessState) last =>
    Stands state.recorder.identity attempt .running last)
    (fun state last hstate => ?_) fuel stands
  refine Program.wp_mono (processRound_achieves hstate preflight processId) ?_
  rintro (error | next | ended) last hround <;> exact hround

theorem failed_achieves {recorder : RuntimeRecorder}
    (stands : Stands recorder.identity attempt .running progress)
    (configuration : ExecutionConfiguration) (startedUnixMs : Int)
    (error : String) :
    Achieves first ((failedResult startedUnixMs error).bind fun result =>
      .done (.ok (Attempted.mk configuration recorder result))) progress
      fun attempted last => Active attempted.recorder.identity attempt last :=
  (failedResult_untraced _ _).unmarked.seq fun _ => stands.active nofun

theorem superviseProcess_achieves {recorder : RuntimeRecorder}
    (stands : Stands recorder.identity attempt .launching progress)
    (fuel : Nat) (configuration : ExecutionConfiguration)
    (preflight : Preflight) (startedUnixMs : Int) (processId : Nat) :
    Achieves first (superviseProcess fuel configuration recorder attempt
      preflight startedUnixMs processId) progress fun attempted last =>
        Active attempted.recorder.identity attempt last := by
  refine Program.wp_seq (checkpoint_achieves stands.identity ?_ ..) ?_
  · rw [stands.last]
    exact .runs attempt
  rintro persisted _ rfl
  have running : Stands recorder.identity attempt .running
      (progress.marked attempt .running) := stands.marked attempt
  cases persisted with
  | error error =>
      exact (call_unmarked rfl).seq fun _ => failed_achieves running ..
  | ok persisted =>
      refine Program.wp_seq (observe_achieves _) ?_
      rintro ⟨observed, result⟩ _ ⟨hidentity, rfl⟩
      rw [← hidentity] at running
      cases result with
      | error error =>
          exact (call_unmarked rfl).seq fun _ => failed_achieves running ..
      | ok observedOk =>
          refine Program.wp_seq
            (processLoop_achieves running fuel preflight processId) ?_
          rintro ⟨state, status, stopRequested, forced⟩ last hended
          cases status with
          | ok status =>
              exact unixMs_untraced.unmarked.seq fun now => hended.active nofun
          | error reason => exact failed_achieves hended ..

theorem runProcess_achieves {recorder : RuntimeRecorder}
    (unspawned : Unspawned recorder.identity attempt .launching progress)
    (fuel : Nat) (configuration : ExecutionConfiguration)
    (preflight : Preflight) (startedUnixMs : Int) :
    Achieves first (runProcess fuel configuration recorder attempt preflight
      startedUnixMs) progress fun attempted last =>
        Active attempted.recorder.identity attempt last := by
  refine (call_unmarked rfl).seq fun job => ?_
  cases job with
  | error reason =>
      exact (failedResult_untraced _ _).unmarked.seq fun _ =>
        unspawned.active nofun
  | ok job =>
      refine Program.wp_bind (Program.wp_call
        ⟨unspawned.spawned, attempt, unspawned.last⟩ fun spawned _ => ?_)
      have stands : Stands recorder.identity attempt .launching
          { progress with spawned := true } :=
        ⟨unspawned.identity, unspawned.last⟩
      cases spawned with
      | error reason =>
          exact (failedResult_untraced _ _).unmarked.seq fun _ =>
            stands.active nofun
      | ok processId => exact superviseProcess_achieves stands ..

theorem launch_achieves {state : LoopState}
    (unspawned : Unspawned state.recorder.identity state.attempt .launching
      progress) (fuel : Nat) (startedUnixMs : Int) :
    Achieves first (launch fuel state startedUnixMs) progress
      fun launched last =>
        Active launched.1.recorder.identity launched.1.attempt last := by
  unfold launch
  cases state.preflight with
  | some preflight =>
      refine Program.wp_seq (runProcess_achieves unspawned ..) ?_
      exact fun attempted last hactive => hactive
  | none =>
      refine (call_unmarked rfl).seq fun resolved => ?_
      cases resolved with
      | ok resolved =>
          refine Program.wp_seq
            (checkpoint_achieves unspawned.identity ?_ ..) ?_
          · rw [unspawned.last]
            exact .again _ _
          rintro persisted _ rfl
          refine (orFail_unmarked persisted).seq fun _ => ?_
          refine Program.wp_seq (runProcess_achieves unspawned.again ..) ?_
          exact fun attempted last hactive => hactive
      | error error =>
          refine unixMs_untraced.unmarked.seq fun now => ?_
          exact (call_unmarked rfl).seq fun stop => unspawned.active nofun

end Attempt

/-! ## A backoff -/

section Backoff

variable {first : Nat} {progress : Progress}

theorem updateBackoff_achieves {state : BackoffState}
    {context : BackoffContext}
    (unspawned : Unspawned state.recorder.identity context.attempt
      .restartBackoff progress) (update : PolicyUpdate) :
    Achieves first (updateBackoff context update state) progress
      fun next last => Unspawned (next.elim BackoffState.recorder
        fun ended => ended.1.recorder).identity context.attempt
          .restartBackoff last := by
  refine Program.wp_seq (checkpoint_achieves unspawned.identity ?_ ..) ?_
  · rw [unspawned.last]
    exact .again _ _
  rintro persisted _ rfl
  refine (orFail_unmarked persisted).seq fun _ => ?_
  refine Program.wp_seq (observeOrFail_achieves _) ?_
  rintro recorder _ ⟨hidentity, rfl⟩
  have unspawned := unspawned.again
  rw [← hidentity] at unspawned
  change Achieves first (ite (shouldRetry _ _ _ = true) _ _) _ _
  split <;> exact unspawned

theorem backoffRound_achieves {state : BackoffState}
    {context : BackoffContext}
    (unspawned : Unspawned state.recorder.identity context.attempt
      .restartBackoff progress) (delayMs : Nat) :
    Achieves first (backoffRound delayMs context state) progress
      fun next last => Unspawned (next.elim BackoffState.recorder
        fun ended => ended.1.recorder).identity context.attempt
          .restartBackoff last := by
  refine (call_unmarked rfl).seq fun event => ?_
  cases event with
  | sessionEnded | externalClosed | stdinClosed | policyClosed | elapsed =>
      exact unspawned
  | externalChanged stop => cases stop <;> exact unspawned
  | stdinStop =>
      change Achieves first (ite (state.stdinOpen = true) _ _) _ _
      split <;> exact unspawned
  | policyChanged update =>
      cases update with
      | none => exact unspawned
      | some update =>
          change Achieves first (ite (state.policyOpen = true) _ _) _ _
          split
          · exact updateBackoff_achieves unspawned update
          · exact unspawned

theorem waitBackoff_achieves {recorder : RuntimeRecorder}
    {context : BackoffContext}
    (unspawned : Unspawned recorder.identity context.attempt .restartBackoff
      progress) (fuel delayMs : Nat) (configuration : ExecutionConfiguration) :
    Achieves first (waitBackoff fuel delayMs context configuration recorder)
      progress fun waited last => Unspawned waited.1.recorder.identity
        context.attempt .restartBackoff last := by
  refine Program.wp_loop (fun (state : BackoffState) last =>
    Unspawned state.recorder.identity context.attempt .restartBackoff last)
    (fun state last hstate => ?_) fuel unspawned
  refine Program.wp_mono (backoffRound_achieves hstate delayMs) ?_
  rintro (error | next | ended) last hround <;> exact hround

theorem backOff_achieves {state : LoopState}
    (active : Active state.recorder.identity state.attempt progress)
    (fuel : Nat) (successful : Bool) (exitCode : Option UInt32)
    (detail : String) :
    Achieves first (backOff fuel state successful exitCode detail) progress
      fun waited last => Unspawned waited.1.recorder.identity
        waited.1.attempt .restartBackoff last := by
  refine unixMs_untraced.unmarked.seq fun now => ?_
  obtain ⟨phase, hphase, stands⟩ := active
  refine Program.wp_seq (checkpoint_achieves stands.identity ?_ ..) ?_
  · rw [stands.last]
    exact .retries _ hphase
  rintro persisted _ rfl
  refine (orFail_unmarked persisted).seq fun _ => ?_
  refine Program.wp_seq (observeOrFail_achieves _) ?_
  rintro recorder _ ⟨hidentity, rfl⟩
  have unspawned := (stands.active hphase).backoff
    (saturatingAdd (2 ^ 32) state.attempt 1)
  rw [← hidentity] at unspawned
  refine Program.wp_seq (waitBackoff_achieves unspawned ..) ?_
  exact fun waited last hwaited => hwaited

end Backoff

/-! ## The run loop -/

section Loop

variable {first : Nat} {progress : Progress}

/-- A loop that goes on can launch its attempt; a result ends the run. -/
abbrev LaunchableRound (first : Nat) (round : RoundResult)
    (progress : Progress) : Prop :=
  round.elim (fun next => Launchable first next.recorder.identity next.attempt
    progress) fun _ => True

theorem finished_achieves {program : Run Unit} (unmarked : Unmarked program)
    (result : AttemptResult) :
    Achieves first (program.bind fun _ => .done (.ok (.inr result))) progress
      (LaunchableRound first) :=
  unmarked.seq fun _ => trivial

theorem stopped_achieves {recorder : RuntimeRecorder}
    (configuration : ExecutionConfiguration) (attempt : Nat) :
    Achieves first ((finishStopped configuration recorder attempt).bind
      fun stopped => .done (.ok (.inr stopped))) progress
      (LaunchableRound first) :=
  (finishStopped_unmarked configuration attempt).seq fun _ => trivial

theorem decideRetry_achieves {state : LoopState}
    (active : Active state.recorder.identity state.attempt progress)
    (fuel : Nat) (result : AttemptResult) :
    Achieves first (decideRetry fuel state result) progress
      (LaunchableRound first) := by
  unfold decideRetry
  split
  · exact finished_achieves (finishExecutionKind_unmarked _ _ _) result
  dsimp only
  generalize (if resetsRetries state.configuration result = true then 0
    else state.retries) = retries
  split
  · have active : Active { state with retries := retries }.recorder.identity
        { state with retries := retries }.attempt progress := active
    refine Program.wp_seq (backOff_achieves active ..) ?_
    rintro ⟨next, outcome⟩ last hunspawned
    cases outcome with
    | elapsed => exact hunspawned.launchable
    | stopped => exact stopped_achieves _ _
    | retryDenied =>
        exact finished_achieves (finishExecutionKind_unmarked _ _ _) result
  · exact finished_achieves (finishExecutionKind_unmarked _ _ _) result

theorem attemptRound_achieves {state : LoopState}
    (launchable : Launchable first state.recorder.identity state.attempt
      progress) (fuel : Nat) :
    Achieves first (attemptRound fuel state) progress
      (LaunchableRound first) := by
  refine Program.wp_seq
    (checkpoint_achieves launchable.identity launchable.continues ..) ?_
  rintro persisted _ rfl
  refine (orFail_unmarked persisted).seq fun _ => ?_
  refine unixMs_untraced.unmarked.seq fun now => ?_
  refine Program.wp_seq (takePolicy_achieves launchable.marked) ?_
  intro taken last hunspawned
  refine Program.wp_seq (launch_achieves hunspawned fuel now) ?_
  rintro ⟨next, result⟩ last hactive
  refine (writeAttemptResult_untraced _ _).unmarked.seq fun _ => ?_
  refine Program.wp_seq (observeOrFail_achieves _) ?_
  rintro recorder _ ⟨hidentity, rfl⟩
  rw [← hidentity] at hactive
  exact decideRetry_achieves hactive fuel result

theorem recoverActive_achieves {state : LoopState}
    (active : Active state.recorder.identity state.attempt progress)
    (fuel : Nat) (phase : CheckpointPhase) :
    Achieves first (recoverActive fuel phase state) progress
      (LaunchableRound first) := by
  refine (call_unmarked rfl).seq fun stop => ?_
  split
  · exact stopped_achieves _ _
  refine unixMs_untraced.unmarked.seq fun now => ?_
  refine (writeAttemptResult_untraced _ _).unmarked.seq fun _ => ?_
  refine Program.wp_seq (observeOrFail_achieves _) ?_
  rintro recorder last ⟨hidentity, rfl⟩
  rw [← hidentity] at active
  split
  · exact finished_achieves (finishExecutionKind_unmarked _ _ _) _
  split
  · have active : Active { state with recorder := recorder }.recorder.identity
        { state with recorder := recorder }.attempt last := active
    refine Program.wp_seq (backOff_achieves active ..) ?_
    rintro ⟨next, outcome⟩ last hunspawned
    cases outcome with
    | elapsed => exact hunspawned.launchable
    | stopped => exact stopped_achieves _ _
    | retryDenied =>
        exact finished_achieves (finishExecutionKind_unmarked _ _ _) _
  · exact finished_achieves (finishExecutionKind_unmarked _ _ _) _

theorem recoverBackoff_achieves {state : LoopState}
    (unspawned : Unspawned state.recorder.identity state.attempt
      .restartBackoff progress) (fuel : Nat) (checkpoint : Checkpoint) :
    Achieves first (recoverBackoff fuel checkpoint state) progress
      (LaunchableRound first) := by
  refine unixMs_untraced.unmarked.seq fun now => ?_
  split
  · refine unixMs_untraced.unmarked.seq fun later => ?_
    refine Program.wp_seq (waitBackoff_achieves unspawned ..) ?_
    rintro ⟨waited, outcome⟩ last hunspawned
    cases outcome with
    | elapsed => exact hunspawned.launchable
    | stopped => exact stopped_achieves _ _
    | retryDenied =>
        refine unixMs_untraced.unmarked.seq fun started => ?_
        refine (failedResult_untraced _ _).unmarked.seq fun failed => ?_
        exact finished_achieves (finishExecutionKind_unmarked _ _ _) failed
  · exact unspawned.launchable

/-- The identity that continues the one in the journal. -/
def recoveredIdentity (checkpoint : Option Checkpoint) :
    Option SupervisorIdentity :=
  checkpoint.map fun checkpoint =>
    ⟨checkpoint.supervisorId, saturatingAdd (2 ^ 32) checkpoint.incarnation 1⟩

/-- A process may have been created for an attempt that was launched. -/
def Progress.start (identity : Option SupervisorIdentity)
    (checkpoint : Option Checkpoint) : Progress where
  identity := identity
  last := checkpoint.map fun checkpoint =>
    (checkpoint.attempt, checkpoint.phase)
  spawned := checkpoint.any (·.phase ≠ .restartBackoff)

theorem recover_achieves {recovery : RuntimeRecovery}
    (positive : ∀ checkpoint ∈ recovery.checkpoint, 1 ≤ checkpoint.attempt)
    (fuel : Nat) (configuration : ExecutionConfiguration)
    (identity : SupervisorIdentity) :
    Achieves (max configuration.attempt 1)
      (recover fuel recovery.checkpoint
        (initialState configuration recovery identity))
      (.start (some identity) recovery.checkpoint)
      (LaunchableRound (max configuration.attempt 1)) := by
  cases hcheckpoint : recovery.checkpoint with
  | none =>
      have hattempt : (initialState configuration recovery identity).attempt =
          max configuration.attempt 1 := by
        simp only [initialState, hcheckpoint]
      refine ⟨rfl, ?_, rfl⟩
      rw [hattempt]
      exact .begins
  | some checkpoint =>
      have hattempt : (initialState configuration recovery identity).attempt =
          checkpoint.attempt := by
        simp only [initialState, hcheckpoint]
        exact max_eq_left (positive checkpoint hcheckpoint)
      have stands : Stands
          (initialState configuration recovery identity).recorder.identity
          (initialState configuration recovery identity).attempt
          checkpoint.phase (.start (some identity) (some checkpoint)) :=
        ⟨rfl, by rw [hattempt]; rfl⟩
      cases hphase : checkpoint.phase with
      | launching | running =>
          simp only [recover, hphase]
          exact recoverActive_achieves
            (stands.active (by rw [hphase]; decide)) fuel _
      | restartBackoff =>
          rw [hphase] at stands
          simp only [recover, hphase]
          refine recoverBackoff_achieves ⟨stands, ?_⟩ fuel _
          simp [Progress.start, hphase]

theorem run_achieves {recovery : RuntimeRecovery}
    (positive : ∀ checkpoint ∈ recovery.checkpoint, 1 ≤ checkpoint.attempt)
    (fuel : Nat) (configuration : ExecutionConfiguration)
    (identity : SupervisorIdentity) :
    Achieves (max configuration.attempt 1)
      (run fuel configuration recovery identity)
      (.start (some identity) recovery.checkpoint) fun _ _ => True := by
  unfold run
  extract_lets start rest
  have hrest : Achieves (max configuration.attempt 1) (rest ())
      (.start (some identity) recovery.checkpoint) fun _ _ => True := by
    refine (call_unmarked rfl).seq fun console => ?_
    refine (orFail_unmarked console).seq fun _ => ?_
    refine Program.wp_seq
      (recover_achieves positive fuel configuration identity) ?_
    rintro (next | result) last hround
    · refine Program.wp_loop (fun (state : LoopState) last =>
        Launchable _ state.recorder.identity state.attempt last)
        (fun state last hstate => ?_) fuel hround
      refine Program.wp_mono (attemptRound_achieves hstate fuel) ?_
      rintro (error | next | result) last hround <;> exact hround
    · trivial
  split
  · refine (call_unmarked rfl).seq fun opened => ?_
    exact (orFail_unmarked opened).seq fun _ => hrest
  · exact hrest

theorem supervise_achieves {frames : List RuntimeFrame}
    (positive : ∀ checkpoint ∈
      (RuntimeJournal.mk false frames).recovery.checkpoint,
      1 ≤ checkpoint.attempt)
    (fuel : Nat) (configuration : ExecutionConfiguration) :
    Achieves (max configuration.attempt 1)
      (supervise fuel configuration ⟨false, frames⟩)
      (.start (recoveredIdentity
        (RuntimeJournal.mk false frames).recovery.checkpoint)
        (RuntimeJournal.mk false frames).recovery.checkpoint)
      fun _ _ => True := by
  have hrun (identity : SupervisorIdentity) : Achieves
      (max configuration.attempt 1) (do
        let result ← run fuel configuration
          (RuntimeJournal.mk false frames).recovery identity
        let finalized ← call .finalizeJournal
        Program.orFail finalized
        return result)
      (.start (some identity)
        (RuntimeJournal.mk false frames).recovery.checkpoint)
      fun _ _ => True := by
    refine Program.wp_seq (run_achieves positive fuel configuration identity)
      fun result _ _ => ?_
    refine (call_unmarked rfl).seq fun finalized => ?_
    exact (orFail_unmarked finalized).seq fun _ => trivial
  unfold supervise
  dsimp only
  cases hcheckpoint : (RuntimeJournal.mk false frames).recovery.checkpoint with
  | none =>
      rw [hcheckpoint] at hrun
      refine Program.wp_bind (Program.wp_call rfl fun id _ => ?_)
      exact hrun ⟨id, 1⟩
  | some checkpoint =>
      rw [hcheckpoint] at hrun
      exact hrun _

end Loop

theorem Incarnation.Lived.permits {incarnation : Incarnation}
    (lived : incarnation.Lived)
    (positive : ∀ checkpoint ∈ (RuntimeJournal.mk false
      incarnation.recovered).recovery.checkpoint, 1 ≤ checkpoint.attempt) :
    (progressMonitor (max incarnation.configuration.attempt 1)).Permits
      (.start (recoveredIdentity (RuntimeJournal.mk false
        incarnation.recovered).recovery.checkpoint) (RuntimeJournal.mk false
        incarnation.recovered).recovery.checkpoint) incarnation.history := by
  obtain ⟨last, steps⟩ := lived.reached
  have admitted (progress : Progress) :
      (progressMonitor (max incarnation.configuration.attempt 1)).Admits
        progress incarnation.history := by
    clear steps
    induction incarnation.history generalizing progress with
    | nil => trivial
    | cons occurrence history ih => exact ⟨trivial, ih _⟩
  exact Program.wp_permits (supervise_achieves positive incarnation.fuel
    incarnation.configuration) steps (admitted _)

/-! ## The checkpoints in the journal -/

def checkpoints (frames : List RuntimeFrame) : List Checkpoint :=
  frames.filterMap fun frame =>
    match frame.record with
    | some (.checkpoint checkpoint) => some checkpoint
    | _ => none

theorem recovery_checkpoint (frames : List RuntimeFrame) :
    (RuntimeJournal.mk false frames).recovery.checkpoint =
      (checkpoints frames).getLast? := by
  unfold checkpoints
  rw [← List.head?_reverse, ← List.filterMap_reverse, List.head?_filterMap]
  rfl

theorem checkpoints_append (first second : List RuntimeFrame) :
    checkpoints (first ++ second) = checkpoints first ++ checkpoints second :=
  List.filterMap_append

theorem checkpoints_withoutAcknowledgements (frames : List RuntimeFrame) :
    checkpoints (withoutAcknowledgements frames) = checkpoints frames := by
  unfold checkpoints withoutAcknowledgements
  rw [List.filterMap_filter]
  congr 1
  funext frame
  obtain ⟨format, _ | checkpoint | observation | acknowledgement⟩ := frame <;>
    rfl

theorem checkpoints_eq_of_recovered {recovered frames : List RuntimeFrame}
    (h : withoutAcknowledgements recovered = withoutAcknowledgements frames) :
    checkpoints recovered = checkpoints frames := by
  rw [← checkpoints_withoutAcknowledgements, h,
    checkpoints_withoutAcknowledgements]

/-- The checkpoint that an operation leaves in the file. -/
def keptCheckpoint : (op : SupervisorOp) → SupervisorAnswer op →
    List Checkpoint
  | .append (.checkpoint checkpoint), .synced => [checkpoint]
  | .append (.checkpoint checkpoint), .failed _ .whole => [checkpoint]
  | _, _ => []

theorem checkpoints_journaled_cons (op : SupervisorOp)
    (answer : SupervisorAnswer op)
    (history : List (Occurrence SupervisorOp SupervisorAnswer)) :
    checkpoints (journaled (⟨op, answer⟩ :: history)) =
      keptCheckpoint op answer ++ checkpoints (journaled history) := by
  cases op with
  | append record =>
      cases record <;> rcases answer with _ | ⟨source, _ | _ | _⟩ <;> rfl
  | _ => rfl

theorem eq_of_mem_keptCheckpoint {op : SupervisorOp}
    {answer : SupervisorAnswer op} {checkpoint : Checkpoint}
    (h : checkpoint ∈ keptCheckpoint op answer) :
    op = .append (.checkpoint checkpoint) := by
  cases op with
  | append record =>
      cases record with
      | checkpoint appended =>
          rcases answer with _ | ⟨source, _ | _ | _⟩
          · rw [List.mem_singleton.mp h]
          · cases h
          · cases h
          · rw [List.mem_singleton.mp h]
      | _ => cases h
  | _ => cases h

theorem mem_checkpoints_journaled
    {history : List (Occurrence SupervisorOp SupervisorAnswer)}
    {checkpoint : Checkpoint}
    (h : checkpoint ∈ checkpoints (journaled history)) :
    ∃ occurrence ∈ history,
      occurrence.1 = .append (.checkpoint checkpoint) := by
  induction history with
  | nil => cases h
  | cons occurrence history ih =>
      obtain ⟨op, answer⟩ := occurrence
      rw [checkpoints_journaled_cons] at h
      rcases List.mem_append.mp h with h | h
      · exact ⟨_, List.mem_cons_self, eq_of_mem_keptCheckpoint h⟩
      · obtain ⟨occurrence, hmem, hop⟩ := ih h
        exact ⟨occurrence, List.mem_cons_of_mem _ hmem, hop⟩

theorem Continues.positive {first attempt : Nat} {phase : CheckpointPhase}
    {last : Option (Nat × CheckpointPhase)}
    (continues : Continues first last attempt phase) (hfirst : 1 ≤ first)
    (positive : ∀ checkpoint ∈ last, 1 ≤ checkpoint.1) : 1 ≤ attempt := by
  cases continues with
  | begins => exact hfirst
  | again | runs | launches => exact positive _ rfl
  | retries current active =>
      unfold saturatingAdd
      omega

theorem checkpoints_positive {first : Nat} {progress : Progress}
    {history : List (Occurrence SupervisorOp SupervisorAnswer)}
    (permitted : (progressMonitor first).Permits progress history)
    (hfirst : 1 ≤ first)
    (positive : ∀ checkpoint ∈ progress.last, 1 ≤ checkpoint.1) :
    ∀ checkpoint ∈ checkpoints (journaled history), 1 ≤ checkpoint.attempt := by
  induction history generalizing progress with
  | nil => nofun
  | cons occurrence history ih =>
      obtain ⟨op, answer⟩ := occurrence
      have later : ∀ checkpoint ∈ (progress.after op answer).last,
          1 ≤ checkpoint.1 := by
        cases op with
        | append record =>
            cases record with
            | checkpoint checkpoint =>
                rintro _ ⟨⟩
                exact permitted.1.2.positive hfirst positive
            | _ => exact positive
        | _ => exact positive
      intro checkpoint h
      rw [checkpoints_journaled_cons] at h
      rcases List.mem_append.mp h with h | h
      · obtain rfl := eq_of_mem_keptCheckpoint h
        exact later _ rfl
      · exact ih permitted.2 later checkpoint h

end Susm.Supervisor
