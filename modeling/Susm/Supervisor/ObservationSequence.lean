import Susm.Supervisor.JournaledRuns
import Susm.Supervisor.Untraced
import Mathlib.Data.List.Range

/-!
# The numbers of the observations

The recorder counts an observation before it is journaled.  Most callers end
the run when the append fails; `run_process` goes on after a failed
`attempt-started` and ignores a failed `policy-applied`.  As long as these two
are journaled, the observations of all supervisors are numbered without a hole.
-/

namespace Susm.Supervisor

open Susm.Foundation
open Susm.Protocol

/-! ## The monitor of the observations -/

/-- The last number consumed, whether it was journaled, the last phase. -/
structure Stream where
  sequence : Nat
  intact : Bool
  phase : Option CheckpointPhase
  deriving DecidableEq, Repr

/-- The run goes on after a failed append of these observations. -/
def Stream.Ignores (stream : Stream) (observation : RuntimeObservation) :
    Prop :=
  observation.kind = .attemptStarted ∨
    (observation.kind = .policyApplied ∧ stream.phase = some .running)

instance (stream : Stream) : DecidablePred stream.Ignores :=
  fun _ => inferInstanceAs (Decidable (_ ∨ _))

/-- The observation is journaled if nobody cares whether it is, and the
numbers do not run out. -/
def streamAdmits (stream : Stream) :
    (op : SupervisorOp) → SupervisorAnswer op → Prop
  | .append (.observation observation), answer =>
      stream.sequence + 1 < 2 ^ 64 ∧
        (stream.Ignores observation → answer = .synced)
  | _, _ => True

/-- Observations follow the last one, and none follows a lost one. -/
def streamPermits (stream : Stream) : SupervisorOp → Prop
  | .append (.observation observation) => stream.intact = true ∧
      observation.sequence = saturatingAdd (2 ^ 64) stream.sequence 1
  | _ => True

def streamAfter (stream : Stream) :
    (op : SupervisorOp) → SupervisorAnswer op → Stream
  | .append (.observation observation), answer =>
      { stream with
        sequence := observation.sequence
        intact := answer = .synced }
  | .append (.checkpoint checkpoint), _ =>
      { stream with phase := some checkpoint.phase }
  | _, _ => stream

def streamMonitor : Program.Monitor SupervisorOp SupervisorAnswer Stream where
  admits := streamAdmits
  permits := streamPermits
  after := streamAfter

/-- The program ends without an error only in such a state. -/
abbrev Ensures {Value : Type} (program : Run Value) (stream : Stream)
    (post : Value → Stream → Prop) : Prop :=
  program.wp streamMonitor (Program.onOk post) stream

/-- The recorder has counted exactly what the journal has. -/
structure Follows (recorder : RuntimeRecorder) (stream : Stream) : Prop where
  intact : stream.intact = true
  sequence : recorder.sequence = stream.sequence

theorem Follows.checkpoint {recorder : RuntimeRecorder} {stream : Stream}
    (follows : Follows recorder stream) (phase : CheckpointPhase) :
    Follows recorder { stream with phase := some phase } :=
  ⟨follows.intact, follows.sequence⟩

section Recording

variable {stream : Stream} {recorder : RuntimeRecorder}

/-- Nothing is written. -/
abbrev Quiet {Value : Type} (program : Run Value) : Prop :=
  ∀ stream, Ensures program stream fun _ last => last = stream

theorem Quiet.done {Value : Type} (result : Except RunError Value) :
    Quiet (.done result : Run Value) := by
  intro stream
  cases result with
  | error error => trivial
  | ok value => exact rfl

theorem Quiet.bind {Value Result : Type} {program : Run Value}
    {next : Value → Run Result} (first : Quiet program)
    (rest : ∀ value, Quiet (next value)) : Quiet (program.bind next) := by
  intro stream
  refine Program.wp_seq (first stream) ?_
  rintro value _ rfl
  exact rest value _

theorem Quiet.seq {Value Result : Type} {program : Run Value}
    {next : Value → Run Result} {post : Result → Stream → Prop}
    (first : Quiet program) (rest : ∀ value, Ensures (next value) stream post) :
    Ensures (program.bind next) stream post := by
  refine Program.wp_seq (first stream) ?_
  rintro value _ rfl
  exact rest value

theorem Quiet.ensures {Value : Type} {program : Run Value}
    (quiet : Quiet program) :
    Ensures program stream fun _ _ => True :=
  Program.wp_mono (quiet stream) fun result _ _ => by
    cases result <;> trivial

def writes : SupervisorOp → Bool
  | .append _ => true
  | _ => false

theorem quiet_call {op : SupervisorOp} (h : writes op = false) :
    Quiet (call op) := by
  intro stream
  cases op with
  | append record => cases h
  | _ => exact Program.wp_call trivial fun _ _ => rfl

theorem quiet_of_untraced {Value : Type} {program : Run Value}
    (untraced : Untraced program) : Quiet program := by
  refine untraced.wp (fun stream op h => ?_) fun stream op answer h => ?_
  · cases op with
    | append record => cases h
    | _ => trivial
  · cases op with
    | append record => cases h
    | _ => rfl

theorem Untraced.seq {Value Result : Type} {program : Run Value}
    {next : Value → Run Result} {post : Result → Stream → Prop}
    (untraced : Untraced program)
    (rest : ∀ value, Ensures (next value) stream post) :
    Ensures (program.bind next) stream post :=
  (quiet_of_untraced untraced).seq rest

theorem quiet_unixMs : Quiet unixMs := quiet_of_untraced unixMs_untraced

theorem checkpoint_ensures (configuration : ExecutionConfiguration)
    (attempt : Nat) (phase : CheckpointPhase) (retryAtUnixMs : Int)
    (preflight : Option Preflight) :
    Ensures (recorder.checkpoint configuration attempt phase retryAtUnixMs
      preflight) stream fun _ last =>
        last = { stream with phase := some phase } := by
  refine Program.wp_seq (Program.wp_call trivial fun _ _ => rfl) ?_
  rintro answer _ rfl
  cases answer <;> exact rfl

theorem observe_ensures (follows : Follows recorder stream)
    (facts : ObservationFacts) :
    Ensures (recorder.observe facts) stream fun observed last =>
      last.phase = stream.phase ∧
        (observed.2 = .ok () → Follows observed.1 last) ∧
        (facts.kind = .attemptStarted ∨
          (facts.kind = .policyApplied ∧ stream.phase = some .running) →
            observed.2 = .ok ()) := by
  refine quiet_unixMs.seq fun now => ?_
  refine Program.wp_bind (Program.wp_bind
    (Program.wp_call ⟨follows.intact, ?_⟩ ?_))
  · exact congrArg (saturatingAdd (2 ^ 64) · 1) follows.sequence
  · intro answer admitted
    cases answer with
    | synced => exact ⟨rfl, fun _ => ⟨rfl, rfl⟩, fun _ => rfl⟩
    | failed source left =>
        refine ⟨rfl, nofun, fun ignores => ?_⟩
        cases admitted.2 ignores

theorem observeOrFail_ensures (follows : Follows recorder stream)
    (facts : ObservationFacts) :
    Ensures (recorder.observeOrFail facts) stream fun observed last =>
      Follows observed last := by
  refine Program.wp_seq (observe_ensures follows facts) ?_
  rintro ⟨observed, error | ⟨⟩⟩ last ⟨-, hfollows, -⟩
  · trivial
  · exact hfollows rfl

end Recording

/-! ## The supervisor -/

section Supervisor

variable {stream : Stream}

theorem finishExecutionKind_ensures {recorder : RuntimeRecorder}
    (follows : Follows recorder stream) (attempt : Nat)
    (result : AttemptResult) (kind : ObservationKind) :
    Ensures (finishExecutionKind recorder attempt result kind) stream
      fun _ _ => True :=
  Program.wp_seq (observeOrFail_ensures follows _) fun _ _ _ =>
    ((quiet_call rfl).bind fun _ => .done _ : Quiet _).ensures

theorem finishStopped_ensures {recorder : RuntimeRecorder}
    (follows : Follows recorder stream)
    (configuration : ExecutionConfiguration) (attempt : Nat) :
    Ensures (finishStopped configuration recorder attempt) stream
      fun _ _ => True := by
  refine quiet_unixMs.seq fun now => ?_
  refine (stoppedResult_untraced now).seq fun stopped => ?_
  refine Program.wp_seq (finishExecutionKind_ensures follows attempt stopped
    (finishKind configuration stopped)) fun _ _ _ => ?_
  trivial

theorem takePolicy_ensures {state : LoopState}
    (follows : Follows state.recorder stream) :
    Ensures (takePolicy state) stream fun next last =>
      Follows next.recorder last := by
  refine (quiet_call rfl).seq fun update => ?_
  cases update with
  | none => exact follows
  | some update =>
      refine Program.wp_seq (checkpoint_ensures _ _ _ _ _) ?_
      rintro persisted _ rfl
      refine (Quiet.done _).seq fun _ => ?_
      refine Program.wp_seq
        (observeOrFail_ensures (follows.checkpoint .launching) _) ?_
      intro recorder last hfollows
      exact hfollows

theorem updateRunning_ensures {state : ProcessState}
    (follows : Follows state.recorder stream) (attempt : Nat)
    (preflight : Preflight) (processId : Nat) (update : PolicyUpdate) :
    Ensures (updateRunning attempt preflight processId update state) stream
      fun next last => Follows next.recorder last := by
  refine Program.wp_seq (checkpoint_ensures _ _ _ _ _) ?_
  rintro persisted _ rfl
  cases persisted with
  | error error => exact follows.checkpoint .running
  | ok persisted =>
      refine Program.wp_seq
        (observe_ensures (follows.checkpoint .running) _) ?_
      rintro ⟨recorder, result⟩ last ⟨-, hfollows, hignored⟩
      exact hfollows (hignored (.inr ⟨rfl, rfl⟩))

theorem processRound_ensures {state : ProcessState}
    (follows : Follows state.recorder stream) (attempt : Nat)
    (preflight : Preflight) (processId : Nat) :
    Ensures (processRound attempt preflight processId state) stream
      fun next last => Follows (next.elim ProcessState.recorder
        fun ended => ended.1.recorder) last := by
  refine (quiet_call rfl).seq fun event => ?_
  cases event with
  | sessionEnded =>
      exact (stopProcess_untraced _ _ _).seq fun ended => follows
  | exited status => exact follows
  | externalChanged stop =>
      cases stop with
      | true =>
          refine sessionDeadline_untraced.seq fun deadline => ?_
          exact (stopProcess_untraced _ _ _).seq fun ended => follows
      | false => exact follows
  | stdinStop =>
      refine sessionDeadline_untraced.seq fun deadline => ?_
      exact (stopProcess_untraced _ _ _).seq fun ended => follows
  | externalClosed | stdinClosed =>
      exact (quiet_call rfl).seq fun status => follows
  | policyClosed => exact follows
  | policyChanged update =>
      cases update with
      | none => exact follows
      | some update =>
          change Ensures (ite (state.policyOpen = true) _ _) _ _
          split
          · refine Program.wp_seq (updateRunning_ensures follows attempt
              preflight processId update) fun next last hfollows => ?_
            exact hfollows
          · exact follows

/-- An attempt that is launched without its first observation is not
observed at all. -/
theorem superviseProcess_ensures {recorder : RuntimeRecorder}
    (follows : Follows recorder stream) (fuel : Nat)
    (configuration : ExecutionConfiguration) (attempt : Nat)
    (preflight : Preflight) (startedUnixMs : Int) (processId : Nat) :
    Ensures (superviseProcess fuel configuration recorder attempt preflight
      startedUnixMs processId) stream fun attempted last =>
        Follows attempted.recorder last := by
  refine Program.wp_seq (checkpoint_ensures _ _ _ _ _) ?_
  rintro persisted _ rfl
  have follows := follows.checkpoint .running
  cases persisted with
  | error error =>
      refine (quiet_call rfl).seq fun _ => ?_
      exact (failedResult_untraced _ _).seq fun result => follows
  | ok persisted =>
      refine Program.wp_seq (observe_ensures follows _) ?_
      rintro ⟨observed, result⟩ last ⟨-, hfollows, hignored⟩
      obtain rfl : result = .ok () := hignored (.inl rfl)
      have hloop : Ensures (Program.iterate
          (processRound attempt preflight processId) fuel
          ⟨configuration, observed, true⟩) last
          fun ended last => Follows ended.1.recorder last := by
        refine Program.wp_loop
          (fun state stream => Follows state.recorder stream)
          (fun state stream hstate => ?_) fuel (hfollows rfl)
        refine Program.wp_mono (processRound_ensures hstate attempt preflight
          processId) ?_
        rintro (error | next | ended) last hround <;> exact hround
      refine Program.wp_seq hloop ?_
      rintro ⟨state, status, stopRequested, forced⟩ last hended
      cases status with
      | ok status => exact quiet_unixMs.seq fun now => hended
      | error reason =>
          exact (failedResult_untraced _ _).seq fun result => hended

theorem runProcess_ensures {recorder : RuntimeRecorder}
    (follows : Follows recorder stream) (fuel : Nat)
    (configuration : ExecutionConfiguration) (attempt : Nat)
    (preflight : Preflight) (startedUnixMs : Int) :
    Ensures (runProcess fuel configuration recorder attempt preflight
      startedUnixMs) stream fun attempted last =>
        Follows attempted.recorder last := by
  refine (quiet_call rfl).seq fun job => ?_
  cases job with
  | error reason => exact (failedResult_untraced _ _).seq fun result => follows
  | ok job =>
      refine (quiet_call rfl).seq fun spawned => ?_
      cases spawned with
      | error reason =>
          exact (failedResult_untraced _ _).seq fun result => follows
      | ok processId => exact superviseProcess_ensures follows ..

theorem launch_ensures {state : LoopState}
    (follows : Follows state.recorder stream) (fuel : Nat)
    (startedUnixMs : Int) :
    Ensures (launch fuel state startedUnixMs) stream fun launched last =>
      Follows launched.1.recorder last := by
  unfold launch
  cases state.preflight with
  | some preflight =>
      refine Program.wp_seq (runProcess_ensures follows ..) ?_
      exact fun attempted last hfollows => hfollows
  | none =>
      refine (quiet_call rfl).seq fun resolved => ?_
      cases resolved with
      | ok resolved =>
          refine Program.wp_seq (checkpoint_ensures _ _ _ _ _) ?_
          rintro persisted _ rfl
          refine (Quiet.done _).seq fun _ => ?_
          refine Program.wp_seq
            (runProcess_ensures (follows.checkpoint .launching) ..) ?_
          exact fun attempted last hfollows => hfollows
      | error error =>
          refine quiet_unixMs.seq fun now => ?_
          exact (quiet_call rfl).seq fun stop => follows

theorem updateBackoff_ensures {state : BackoffState}
    (follows : Follows state.recorder stream) (context : BackoffContext)
    (update : PolicyUpdate) :
    Ensures (updateBackoff context update state) stream fun next last =>
      Follows (next.elim BackoffState.recorder
        fun ended => ended.1.recorder) last := by
  refine Program.wp_seq (checkpoint_ensures _ _ _ _ _) ?_
  rintro persisted _ rfl
  refine (Quiet.done _).seq fun _ => ?_
  refine Program.wp_seq
    (observeOrFail_ensures (follows.checkpoint .restartBackoff) _) ?_
  intro recorder last hfollows
  change Ensures (ite (shouldRetry _ _ _ = true) _ _) _ _
  split <;> exact hfollows

theorem backoffRound_ensures {state : BackoffState}
    (follows : Follows state.recorder stream) (delayMs : Nat)
    (context : BackoffContext) :
    Ensures (backoffRound delayMs context state) stream fun next last =>
      Follows (next.elim BackoffState.recorder
        fun ended => ended.1.recorder) last := by
  refine (quiet_call rfl).seq fun event => ?_
  cases event with
  | sessionEnded | externalClosed | stdinClosed | policyClosed | elapsed =>
      exact follows
  | externalChanged stop => cases stop <;> exact follows
  | stdinStop =>
      change Ensures (ite (state.stdinOpen = true) _ _) _ _
      split <;> exact follows
  | policyChanged update =>
      cases update with
      | none => exact follows
      | some update =>
          change Ensures (ite (state.policyOpen = true) _ _) _ _
          split
          · exact updateBackoff_ensures follows context update
          · exact follows

theorem waitBackoff_ensures {recorder : RuntimeRecorder}
    (follows : Follows recorder stream) (fuel delayMs : Nat)
    (context : BackoffContext) (configuration : ExecutionConfiguration) :
    Ensures (waitBackoff fuel delayMs context configuration recorder) stream
      fun waited last => Follows waited.1.recorder last := by
  refine Program.wp_loop
    (fun state stream => Follows state.recorder stream)
    (fun state stream hstate => ?_) fuel follows
  refine Program.wp_mono (backoffRound_ensures hstate delayMs context) ?_
  rintro (error | next | ended) last hround <;> exact hround

theorem backOff_ensures (state : LoopState)
    (follows : Follows state.recorder stream) (fuel : Nat)
    (successful : Bool) (exitCode : Option UInt32) (detail : String) :
    Ensures (backOff fuel state successful exitCode detail) stream
      fun waited last => Follows waited.1.recorder last := by
  refine quiet_unixMs.seq fun now => ?_
  refine Program.wp_seq (checkpoint_ensures _ _ _ _ _) ?_
  rintro persisted _ rfl
  refine (Quiet.done _).seq fun _ => ?_
  refine Program.wp_seq
    (observeOrFail_ensures (follows.checkpoint .restartBackoff) _) ?_
  intro recorder last hfollows
  refine Program.wp_seq (waitBackoff_ensures hfollows ..) ?_
  exact fun waited last hwaited => hwaited

/-- The recorder of a loop that goes on follows; a result ends the run. -/
abbrev FollowsRound (round : RoundResult) (stream : Stream) : Prop :=
  round.elim (fun next => Follows next.recorder stream) fun _ => True

theorem ended_ensures {program : Run Unit}
    (h : Ensures program stream fun _ _ => True) (result : AttemptResult) :
    Ensures (program.bind fun _ => .done (.ok (.inr result))) stream
      FollowsRound :=
  Program.wp_seq h fun _ _ _ => trivial

theorem stopped_ensures {program : Run AttemptResult}
    (h : Ensures program stream fun _ _ => True) :
    Ensures (program.bind fun stopped => .done (.ok (.inr stopped))) stream
      FollowsRound :=
  Program.wp_seq h fun _ _ _ => trivial

theorem decideRetry_ensures {state : LoopState}
    (follows : Follows state.recorder stream) (fuel : Nat)
    (result : AttemptResult) :
    Ensures (decideRetry fuel state result) stream FollowsRound := by
  unfold decideRetry
  split
  · exact ended_ensures (finishExecutionKind_ensures follows _ _ _) result
  dsimp only
  generalize (if resetsRetries state.configuration result = true then 0
    else state.retries) = retries
  split
  · refine Program.wp_seq
      (backOff_ensures { state with retries := retries } follows ..) ?_
    rintro ⟨next, outcome⟩ last hfollows
    cases outcome with
    | elapsed => exact hfollows
    | stopped => exact stopped_ensures (finishStopped_ensures hfollows _ _)
    | retryDenied =>
        exact ended_ensures (finishExecutionKind_ensures hfollows _ _ _) result
  · exact ended_ensures (finishExecutionKind_ensures follows _ _ _) result

theorem attemptRound_ensures {state : LoopState}
    (follows : Follows state.recorder stream) (fuel : Nat) :
    Ensures (attemptRound fuel state) stream FollowsRound := by
  refine Program.wp_seq (checkpoint_ensures _ _ _ _ _) ?_
  rintro persisted _ rfl
  refine (Quiet.done _).seq fun _ => ?_
  refine quiet_unixMs.seq fun now => ?_
  refine Program.wp_seq
    (takePolicy_ensures (follows.checkpoint .launching)) ?_
  intro taken last hfollows
  refine Program.wp_seq (launch_ensures hfollows fuel now) ?_
  rintro ⟨next, result⟩ last hfollows
  refine (writeAttemptResult_untraced _ _).seq fun _ => ?_
  refine Program.wp_seq (observeOrFail_ensures hfollows _) ?_
  intro recorder last hfollows
  exact decideRetry_ensures hfollows fuel result

theorem recoverActive_ensures {state : LoopState}
    (follows : Follows state.recorder stream) (fuel : Nat)
    (phase : CheckpointPhase) :
    Ensures (recoverActive fuel phase state) stream FollowsRound := by
  refine (quiet_call rfl).seq fun stop => ?_
  split
  · exact stopped_ensures (finishStopped_ensures follows _ _)
  refine quiet_unixMs.seq fun now => ?_
  refine (writeAttemptResult_untraced _ _).seq fun _ => ?_
  refine Program.wp_seq (observeOrFail_ensures follows _) ?_
  intro recorder last hfollows
  split
  · exact ended_ensures (finishExecutionKind_ensures hfollows _ _ _) _
  split
  · refine Program.wp_seq
      (backOff_ensures { state with recorder := recorder } hfollows ..) ?_
    rintro ⟨next, outcome⟩ last hfollows
    cases outcome with
    | elapsed => exact hfollows
    | stopped => exact stopped_ensures (finishStopped_ensures hfollows _ _)
    | retryDenied =>
        exact ended_ensures (finishExecutionKind_ensures hfollows _ _ _) _
  · exact ended_ensures (finishExecutionKind_ensures hfollows _ _ _) _

theorem recoverBackoff_ensures {state : LoopState}
    (follows : Follows state.recorder stream) (fuel : Nat)
    (checkpoint : Checkpoint) :
    Ensures (recoverBackoff fuel checkpoint state) stream FollowsRound := by
  refine quiet_unixMs.seq fun now => ?_
  split
  · refine quiet_unixMs.seq fun later => ?_
    refine Program.wp_seq (waitBackoff_ensures follows ..) ?_
    rintro ⟨waited, outcome⟩ last hfollows
    cases outcome with
    | elapsed => exact hfollows
    | stopped => exact stopped_ensures (finishStopped_ensures hfollows _ _)
    | retryDenied =>
        refine quiet_unixMs.seq fun started => ?_
        refine (failedResult_untraced _ _).seq fun failed => ?_
        exact ended_ensures (finishExecutionKind_ensures hfollows _ _ _) failed
  · exact follows

theorem recover_ensures {state : LoopState}
    (follows : Follows state.recorder stream) (fuel : Nat)
    (checkpoint : Option Checkpoint) :
    Ensures (recover fuel checkpoint state) stream FollowsRound := by
  cases checkpoint with
  | none => exact follows
  | some checkpoint =>
      cases hphase : checkpoint.phase with
      | launching | running =>
          simp only [recover, hphase]
          exact recoverActive_ensures follows fuel _
      | restartBackoff =>
          simp only [recover, hphase]
          exact recoverBackoff_ensures follows fuel _

theorem run_ensures {recovery : RuntimeRecovery}
    (intact : stream.intact = true)
    (recovered : recovery.lastSequence = stream.sequence) (fuel : Nat)
    (configuration : ExecutionConfiguration)
    (identity : SupervisorIdentity) :
    Ensures (run fuel configuration recovery identity) stream
      fun _ _ => True := by
  have hfollows : Follows
      (initialState configuration recovery identity).recorder stream :=
    ⟨intact, recovered⟩
  unfold run
  extract_lets start rest
  have hrest : Ensures (rest ()) stream fun _ _ => True := by
    refine (quiet_call rfl).seq fun console => ?_
    refine (Quiet.done _).seq fun _ => ?_
    refine Program.wp_seq (recover_ensures hfollows fuel _) ?_
    rintro (next | result) last hround
    · refine Program.wp_loop
        (fun (state : LoopState) stream => Follows state.recorder stream)
        (fun state stream hstate => ?_) fuel hround
      refine Program.wp_mono (attemptRound_ensures hstate fuel) ?_
      rintro (error | next | result) last hround <;> exact hround
    · trivial
  split
  · refine (quiet_call rfl).seq fun opened => ?_
    exact (Quiet.done _).seq fun _ => hrest
  · exact hrest

theorem supervise_ensures {frames : List RuntimeFrame}
    (intact : stream.intact = true)
    (recovered : (RuntimeJournal.mk false frames).recovery.lastSequence =
      stream.sequence) (fuel : Nat) (configuration : ExecutionConfiguration) :
    Ensures (supervise fuel configuration ⟨false, frames⟩) stream
      fun _ _ => True := by
  have hrun (identity : SupervisorIdentity) := run_ensures intact recovered
    fuel configuration identity
  have hend (identity : SupervisorIdentity) : Ensures (do
      let result ← run fuel configuration
        (RuntimeJournal.mk false frames).recovery identity
      let finalized ← call .finalizeJournal
      Program.orFail finalized
      return result) stream fun _ _ => True :=
    Program.wp_seq (hrun identity) fun result _ _ =>
      ((quiet_call rfl).bind fun _ => (Quiet.done _).bind fun _ =>
        .done _ : Quiet _).ensures
  unfold supervise
  dsimp only
  split
  · exact (quiet_call rfl).seq fun id => (Quiet.done _).seq hend
  · exact (Quiet.done _).seq hend

end Supervisor

/-! ## The journal of one supervisor -/

/-- The numbers of the observations, in journal order. -/
def observationSequences (frames : List RuntimeFrame) : List Nat :=
  frames.filterMap fun frame =>
    match frame.record with
    | some (.observation observation) => some observation.sequence
    | _ => none

def remembered (history : List (Occurrence SupervisorOp SupervisorAnswer)) :
    List RuntimeFrame :=
  history.filterMap fun
    | ⟨.append record, .synced⟩ => some (RuntimeJournal.frameOf record)
    | _ => none

section History

variable {stream : Stream}
variable {history : List (Occurrence SupervisorOp SupervisorAnswer)}

theorem unobserved_of_lost (lost : stream.intact = false)
    (permitted : streamMonitor.Permits stream history) :
    observationSequences (journaled history) = [] ∧
      observationSequences (remembered history) = [] := by
  induction history generalizing stream with
  | nil => exact ⟨rfl, rfl⟩
  | cons occurrence history ih =>
      obtain ⟨op, answer⟩ := occurrence
      obtain ⟨hop, hrest⟩ := permitted
      cases op with
      | append record =>
          cases record with
          | observation observation =>
              have hintact := hop.1
              rw [lost] at hintact
              cases hintact
          | checkpoint checkpoint =>
              have hlost : (streamAfter stream (.append (.checkpoint
                  checkpoint)) answer).intact = false := lost
              have hlater := ih hlost hrest
              rcases answer with _ | ⟨source, _ | _ | _⟩ <;> exact hlater
          | acknowledgement acknowledgement =>
              have hlater := ih lost hrest
              rcases answer with _ | ⟨source, _ | _ | _⟩ <;> exact hlater
      | _ => exact ih lost hrest

theorem observed_consecutive (intact : stream.intact = true)
    (admitted : streamMonitor.Admits stream history)
    (permitted : streamMonitor.Permits stream history) :
    (∃ count, observationSequences (journaled history) =
        List.range' (stream.sequence + 1) count) ∧
      ∃ count, observationSequences (remembered history) =
        List.range' (stream.sequence + 1) count := by
  induction history generalizing stream with
  | nil => exact ⟨⟨0, rfl⟩, ⟨0, rfl⟩⟩
  | cons occurrence history ih =>
      obtain ⟨op, answer⟩ := occurrence
      obtain ⟨hop, hrest⟩ := permitted
      obtain ⟨hanswer, hadmitted⟩ := admitted
      cases op with
      | append record =>
          cases record with
          | observation observation =>
              have hnumber : observation.sequence = stream.sequence + 1 := by
                rw [hop.2, saturatingAdd_of_lt hanswer.1]
              cases answer with
              | synced =>
                  have hintact : (streamAfter stream (.append (.observation
                      observation)) .synced).intact = true := rfl
                  obtain ⟨⟨count, hcount⟩, kept, hkept⟩ :=
                    ih hintact hadmitted hrest
                  simp only [streamAfter, hnumber] at hcount hkept
                  refine ⟨⟨count + 1, ?_⟩, kept + 1, ?_⟩
                  · rw [List.range'_succ, ← hcount, ← hnumber]
                    rfl
                  · rw [List.range'_succ, ← hkept, ← hnumber]
                    rfl
              | failed source left =>
                  have hlost : (streamAfter stream (.append (.observation
                      observation)) (.failed source left)).intact = false :=
                    rfl
                  obtain ⟨hjournaled, hremembered⟩ :=
                    unobserved_of_lost hlost hrest
                  refine ⟨?_, 0, hremembered⟩
                  cases left with
                  | nothing | part => exact ⟨0, hjournaled⟩
                  | whole =>
                      refine ⟨1, ?_⟩
                      rw [List.range'_one, ← hnumber]
                      exact congrArg (observation.sequence :: ·) hjournaled
          | checkpoint checkpoint =>
              have hintact : (streamAfter stream (.append (.checkpoint
                  checkpoint)) answer).intact = true := intact
              have hlater := ih hintact hadmitted hrest
              rcases answer with _ | ⟨source, _ | _ | _⟩ <;> exact hlater
          | acknowledgement acknowledgement =>
              have hlater := ih intact hadmitted hrest
              rcases answer with _ | ⟨source, _ | _ | _⟩ <;> exact hlater
      | _ => exact ih intact hadmitted hrest

end History

/-! ## The journal of all supervisors -/

/-- The observations are numbered from one on, so that a reader with any
cursor finds the next number. -/
structure Gapless (frames : List RuntimeFrame) : Prop where
  numbered : ∃ count, observationSequences frames = List.range' 1 count
  next : ∀ cursor, ∃ count,
    ((RuntimeJournal.mk false frames).observationsAfter cursor).map
      RuntimeObservation.sequence = List.range' (cursor + 1) count

theorem filter_range' (cursor count : Nat) :
    (List.range' 1 count).filter (cursor < ·) =
      List.range' (cursor + 1) (count - cursor) := by
  induction count with
  | zero => simp
  | succ count ih =>
      rw [List.range'_concat, List.filter_append, ih]
      by_cases h : cursor < 1 + count
      · rw [show count + 1 - cursor = count - cursor + 1 by omega,
          List.range'_concat]
        simp only [List.filter_cons, Nat.one_mul, h, decide_true, if_true,
          List.filter_nil]
        congr 2
        omega
      · simp [h, show count + 1 - cursor = 0 by omega,
          show count - cursor = 0 by omega]

theorem observationsAfter_sequences (frames : List RuntimeFrame)
    (cursor : Nat) :
    ((RuntimeJournal.mk false frames).observationsAfter cursor).map
        RuntimeObservation.sequence =
      (observationSequences frames).filter (cursor < ·) := by
  unfold RuntimeJournal.observationsAfter observationSequences
  rw [List.map_filterMap, List.filter_filterMap]
  congr 1
  funext frame
  obtain ⟨format, _ | checkpoint | observation | acknowledgement⟩ := frame
  · rfl
  · rfl
  · by_cases h : cursor < observation.sequence <;> simp [h, Option.filter]
  · rfl

theorem Gapless.of_numbered {frames : List RuntimeFrame}
    (h : ∃ count, observationSequences frames = List.range' 1 count) :
    Gapless frames := by
  obtain ⟨count, hcount⟩ := h
  refine ⟨⟨count, hcount⟩, fun cursor => ⟨count - cursor, ?_⟩⟩
  rw [observationsAfter_sequences, hcount, filter_range']

theorem foldl_max_range' (count : Nat) :
    (List.range' 1 count).foldl max 0 = count := by
  induction count with
  | zero => rfl
  | succ count ih =>
      rw [List.range'_concat, List.foldl_append, ih]
      simp only [List.foldl_cons, List.foldl_nil, Nat.one_mul]
      omega

theorem observationSequences_append (first second : List RuntimeFrame) :
    observationSequences (first ++ second) =
      observationSequences first ++ observationSequences second :=
  List.filterMap_append

theorem observationSequences_withoutAcknowledgements
    (frames : List RuntimeFrame) :
    observationSequences (withoutAcknowledgements frames) =
      observationSequences frames := by
  unfold observationSequences withoutAcknowledgements
  rw [List.filterMap_filter]
  congr 1
  funext frame
  obtain ⟨format, _ | checkpoint | observation | acknowledgement⟩ := frame <;>
    rfl

theorem Gapless.congr {frames others : List RuntimeFrame}
    (gapless : Gapless frames)
    (same : withoutAcknowledgements others = withoutAcknowledgements frames) :
    Gapless others := by
  refine .of_numbered ?_
  rw [← observationSequences_withoutAcknowledgements, same,
    observationSequences_withoutAcknowledgements]
  exact gapless.numbered

/-- No append is lost behind which the run goes on. -/
def Incarnation.Persists (incarnation : Incarnation) : Prop :=
  streamMonitor.Admits
    ⟨(RuntimeJournal.mk false incarnation.recovered).recovery.lastSequence,
      true, none⟩ incarnation.history

theorem Incarnation.Lived.staysGapless {incarnation : Incarnation}
    (lived : incarnation.Lived) (persists : incarnation.Persists)
    (recovered : Gapless incarnation.recovered) :
    Gapless (incarnation.recovered ++ journaled incarnation.history) ∧
      Gapless (incarnation.recovered ++ remembered incarnation.history) := by
  obtain ⟨last, steps⟩ := lived.reached
  have permitted := Program.wp_permits (supervise_ensures rfl rfl
    incarnation.fuel incarnation.configuration) steps persists
  obtain ⟨⟨count, hcount⟩, kept, hkept⟩ :=
    observed_consecutive rfl persists permitted
  obtain ⟨before, hbefore⟩ := recovered.numbered
  have hlast : (RuntimeJournal.mk false
      incarnation.recovered).recovery.lastSequence = before := by
    change (observationSequences incarnation.recovered).foldl max 0 = before
    rw [hbefore, foldl_max_range']
  rw [hlast, Nat.add_comm] at hcount hkept
  constructor
  · refine .of_numbered ⟨before + count, ?_⟩
    rw [observationSequences_append, hbefore, hcount, List.range'_append_1]
  · refine .of_numbered ⟨before + kept, ?_⟩
    rw [observationSequences_append, hbefore, hkept, List.range'_append_1]

theorem Incarnations.staysGapless {frames : List RuntimeFrame}
    {incarnations : List Incarnation} (run : Incarnations frames incarnations)
    (persists : ∀ incarnation ∈ incarnations, incarnation.Persists) :
    Gapless frames ∧ ∀ incarnation ∈ incarnations,
      Gapless (incarnation.recovered ++ remembered incarnation.history) := by
  induction run with
  | none => exact ⟨.of_numbered ⟨0, rfl⟩, by simp⟩
  | @recover frames earlier incarnation before recovered lived uncut ih =>
      obtain ⟨persistsLast, persistsEarlier⟩ := List.forall_mem_cons.mp persists
      obtain ⟨hframes, hearlier⟩ := ih persistsEarlier
      have hrecovered : Gapless incarnation.recovered := hframes.congr recovered
      obtain ⟨hfile, hmemory⟩ := lived.staysGapless persistsLast hrecovered
      exact ⟨hfile, List.forall_mem_cons.mpr ⟨hmemory, hearlier⟩⟩

def allJournaled (history : List (Occurrence SupervisorOp SupervisorAnswer)) :
    Bool :=
  history.all fun
    | ⟨.append (.observation observation), answer⟩ =>
        answer = .synced ∧ observation.sequence + 1 < 2 ^ 64
    | _ => true

theorem admits_of_allJournaled {stream : Stream}
    {history : List (Occurrence SupervisorOp SupervisorAnswer)}
    (h : allJournaled history = true) (room : stream.sequence + 1 < 2 ^ 64) :
    streamMonitor.Admits stream history := by
  induction history generalizing stream with
  | nil => trivial
  | cons occurrence history ih =>
      obtain ⟨op, answer⟩ := occurrence
      obtain ⟨hfirst, hrest⟩ := Bool.and_eq_true_iff.mp h
      cases op with
      | append record =>
          cases record with
          | observation observation =>
              obtain ⟨hsynced, hroom⟩ := of_decide_eq_true hfirst
              exact ⟨⟨room, fun _ => hsynced⟩, ih hrest hroom⟩
          | checkpoint checkpoint => exact ⟨trivial, ih hrest room⟩
          | acknowledgement acknowledgement => exact ⟨trivial, ih hrest room⟩
      | _ => exact ⟨trivial, ih hrest room⟩

/--
The observations in the file, and in the memory of every supervisor, are
numbered without a hole, as long as nothing is appended behind an append that
stopped inside its frame.
-/
theorem Supervised.gapless {codec : FrameCodec}
    {incarnations : List Incarnation} {events : List JournalEvent}
    (supervised : Supervised codec incarnations events)
    (roundTrips : ∀ event ∈ events, event.RoundTrips codec)
    (untorn : events.Pairwise fun earlier later =>
      earlier.Tears codec → ¬ later.Appends)
    (persists : ∀ incarnation ∈ incarnations, incarnation.Persists) :
    (∃ journal bytes, RuntimeJournal.open codec
        (JournalWorld.initial.run codec events).file = .ok (journal, bytes) ∧
      Gapless journal.frames) ∧
      ∀ incarnation ∈ incarnations,
        Gapless (incarnation.recovered ++ remembered incarnation.history) := by
  obtain ⟨frames, written, tail, refined⟩ :=
    supervised.refined roundTrips untorn
  obtain ⟨file, memory⟩ := refined.run.staysGapless persists
  exact ⟨⟨_, _, refined.holds.open, file.congr refined.same⟩, memory⟩

/-- A tool that fails and the supervisor that replaces it. -/
theorem Supervised.gapless_failed :
    ∃ events, Supervised (toolCodec (twoTools toolConfiguration 1))
        (twoTools toolConfiguration 1) events ∧
      (∃ journal bytes,
        RuntimeJournal.open (toolCodec (twoTools toolConfiguration 1))
          (JournalWorld.initial.run (toolCodec (twoTools toolConfiguration 1))
            events).file = .ok (journal, bytes) ∧
        Gapless journal.frames) ∧
      ∀ incarnation ∈ twoTools toolConfiguration 1,
        Gapless (incarnation.recovered ++ remembered incarnation.history) := by
  obtain ⟨events, stored⟩ := stored_tool
  refine ⟨events, stored.supervised,
    stored.supervised.gapless stored.roundTrips stored.untorn ?_⟩
  simp only [twoTools, List.forall_mem_cons, List.not_mem_nil, false_implies,
    implies_true, and_true]
  constructor <;>
    exact admits_of_allJournaled (by decide +kernel) (by decide +kernel)

/-- A journal that loses the first observation of every process. -/
def forgetfulAnswer (world : AttemptWorld) (op : SupervisorOp) :
    SupervisorAnswer op × AttemptWorld :=
  match op with
  | .append (.observation observation) =>
      if observation.kind = .attemptStarted then
        (.failed "the disk is full" .nothing, world)
      else (.synced, world)
  | op => world.answer op

def forgetfulTool : Incarnation where
  configuration := toolConfiguration
  recovered := []
  stopRequested := false
  fuel := 2
  history := ((supervise 2 toolConfiguration ⟨false, []⟩).exec
    forgetfulAnswer ⟨0, [.exited 1 5]⟩).history

theorem forgetfulTool_lived : forgetfulTool.Lived := by
  refine ⟨Program.exec_reaches_all forgetfulAnswer _ _, ?_⟩
  have hstop : (firstStop forgetfulTool.history).getD false = false := by
    decide +kernel
  intro answer hanswer
  rw [hanswer] at hstop
  exact hstop

theorem forgetfulTool_sequences :
    observationSequences (journaled forgetfulTool.history) = [2, 3] := by
  decide +kernel

/-- A reader with cursor zero finds number two. -/
theorem Supervised.attemptStarted_lost :
    ∃ events, Supervised (toolCodec [forgetfulTool]) [forgetfulTool] events ∧
      (∀ event ∈ events, event.RoundTrips (toolCodec [forgetfulTool]) ∧
        ¬ event.Tears (toolCodec [forgetfulTool])) ∧
      ∃ journal bytes, RuntimeJournal.open (toolCodec [forgetfulTool])
          (JournalWorld.initial.run (toolCodec [forgetfulTool]) events).file =
            .ok (journal, bytes) ∧
        observationSequences journal.frames = [2, 3] ∧
        ¬ Gapless journal.frames := by
  have storable : Storable (toolCodec [forgetfulTool]) []
      forgetfulTool.history := by
    refine ⟨?_, ?_, ?_⟩ <;> decide +kernel
  have stored := (Stored.none (toolCodec [forgetfulTool])).next rfl
    forgetfulTool_lived storable
  refine ⟨_, stored.supervised, stored.tame, _, _, stored.holds.open,
    forgetfulTool_sequences, fun gapless => ?_⟩
  obtain ⟨count, hcount⟩ := gapless.numbered
  rw [List.nil_append, forgetfulTool_sequences] at hcount
  cases count with
  | zero => cases hcount
  | succ count => cases hcount

end Susm.Supervisor
