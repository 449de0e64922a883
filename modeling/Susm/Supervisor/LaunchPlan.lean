import Susm.Supervisor.ProcessAttempts

/-!
# The launch plan of an execution

The executable, the working directory and the environment are resolved once.
Every checkpoint behind the resolution carries them and every process is
created with them, also when the supervisor is replaced by another one that
recovers them from the journal.
-/

namespace Susm.Supervisor

open Susm.Foundation
open Susm.Protocol

/-! ## The monitor of the plan -/

/-- Only absolute paths are recovered. -/
structure AbsolutePlan (plan : Preflight) : Prop where
  executable : isAbsolute plan.executable = true
  workingDirectory : isAbsolute plan.workingDirectory = true

def checkpointPlan (checkpoint : Checkpoint) : Preflight where
  executable := checkpoint.resolvedExecutable
  workingDirectory := checkpoint.resolvedWorkingDirectory
  environment := checkpoint.resolvedEnvironment

def unresolvedPlan : Preflight := ⟨"", "", []⟩

def carriedPlan : SupervisorOp → Option Preflight
  | .append (.checkpoint checkpoint) =>
      if checkpointPlan checkpoint = unresolvedPlan then none
      else some (checkpointPlan checkpoint)
  | _ => none

/-- Checkpoints and processes have exactly the values of the plan. -/
def UsesPlan (plan : Preflight) : SupervisorOp → Prop
  | .append (.checkpoint checkpoint) => checkpointPlan checkpoint = plan
  | .spawn preflight _ => preflight = plan
  | _ => True

/-- A write succeeds, and resolved paths are absolute. -/
def planAdmits : (op : SupervisorOp) → SupervisorAnswer op → Prop
  | .append _, answer => answer = .synced
  | .preflightConfiguration _, answer =>
      ∀ plan, answer = .ok plan → AbsolutePlan plan
  | _, _ => True

def planMonitor :
    Program.Monitor SupervisorOp SupervisorAnswer (Option Preflight) where
  admits _ := planAdmits
  permits pinned
    | .append (.checkpoint checkpoint) =>
        checkpointPlan checkpoint =
            (recoveredPreflight checkpoint).getD unresolvedPlan ∧
          ∀ plan, pinned = some plan →
            recoveredPreflight checkpoint = some plan
    | .spawn preflight _ => pinned = some preflight
    | _ => True
  after pinned
    | .append (.checkpoint checkpoint), _ => recoveredPreflight checkpoint
    | _, _ => pinned

/-- The program ends without an error only in such a state. -/
abbrev Pins {Value : Type} (program : Run Value) (pinned : Option Preflight)
    (post : Value → Option Preflight → Prop) : Prop :=
  program.wp planMonitor (Program.onOk post) pinned

/-- The plan of the program is the one in the journal. -/
structure Pinned (preflight pinned : Option Preflight) : Prop where
  same : pinned = preflight
  absolute : ∀ plan, preflight = some plan → AbsolutePlan plan

/-! ## Operations -/

section Operations

variable {Value Result : Type} {pinned preflight : Option Preflight}
  {recorder : RuntimeRecorder}

theorem recoveredPreflight_absolute {checkpoint : Checkpoint}
    {plan : Preflight} (h : recoveredPreflight checkpoint = some plan) :
    AbsolutePlan plan ∧ checkpointPlan checkpoint = plan := by
  unfold recoveredPreflight at h
  split at h
  · rename_i absolute
    cases h
    exact ⟨⟨absolute.1, absolute.2⟩, rfl⟩
  · cases h

theorem recoveredPreflight_record
    (absolute : ∀ plan, preflight = some plan → AbsolutePlan plan)
    (configuration : ExecutionConfiguration) (attempt : Nat)
    (phase : CheckpointPhase) (retryAtUnixMs : Int) :
    recoveredPreflight (recorder.checkpointRecord configuration attempt phase
        retryAtUnixMs preflight) = preflight ∧
      checkpointPlan (recorder.checkpointRecord configuration attempt phase
        retryAtUnixMs preflight) = preflight.getD unresolvedPlan := by
  cases preflight with
  | none => exact ⟨rfl, rfl⟩
  | some plan =>
      obtain ⟨executable, workingDirectory⟩ := absolute plan rfl
      exact ⟨if_pos ⟨executable, workingDirectory⟩, rfl⟩

theorem checkpoint_pins
    (absolute : ∀ plan, preflight = some plan → AbsolutePlan plan)
    (agrees : ∀ plan, pinned = some plan → preflight = some plan)
    (configuration : ExecutionConfiguration) (attempt : Nat)
    (phase : CheckpointPhase) (retryAtUnixMs : Int) :
    Pins (recorder.checkpoint configuration attempt phase retryAtUnixMs
      preflight) pinned fun _ last => Pinned preflight last := by
  obtain ⟨recovered, values⟩ := @recoveredPreflight_record _ recorder absolute
    configuration attempt phase retryAtUnixMs
  refine Program.wp_bind (Program.wp_call ⟨?_, fun plan hplan => ?_⟩ ?_)
  · rw [values, recovered]
  · exact recovered.trans (agrees plan hplan)
  · rintro (_ | ⟨source, left⟩) - <;> exact ⟨recovered, absolute⟩

theorem Pinned.checkpoint (h : Pinned preflight pinned)
    (configuration : ExecutionConfiguration) (attempt : Nat)
    (phase : CheckpointPhase) (retryAtUnixMs : Int) :
    Pins (recorder.checkpoint configuration attempt phase retryAtUnixMs
      preflight) pinned fun _ last => Pinned preflight last :=
  checkpoint_pins h.absolute (fun _ hplan => h.same ▸ hplan) ..

theorem Unmarked.pins {program : Run Value} (unmarked : Unmarked program) :
    Pins program pinned fun _ last => last = pinned := by
  refine unmarked.wp (fun pinned op h => ?_) (fun pinned op answer h => ?_)
    pinned
  · rcases op with _ | _ | _ | _ | _ | ⟨⟨⟩⟩ | _ <;> trivial
  · rcases op with _ | _ | _ | _ | _ | ⟨⟨⟩⟩ | _ <;> first | rfl | cases h

theorem Unmarked.pins_seq {program : Run Value} {next : Value → Run Result}
    {post : Result → Option Preflight → Prop} (unmarked : Unmarked program)
    (rest : ∀ value, Pins (next value) pinned post) :
    Pins (program.bind next) pinned post := by
  refine Program.wp_seq unmarked.pins ?_
  rintro value _ rfl
  exact rest value

theorem observeOrFail_unmarked (facts : ObservationFacts) :
    Unmarked (recorder.observeOrFail facts) :=
  (observe_unmarked facts).bind fun observed =>
    (orFail_unmarked observed.2).bind fun _ => .done _

end Operations

/-! ## An attempt -/

section Attempt

variable {pinned : Option Preflight} {preflight : Preflight}
  {recorder : RuntimeRecorder} {attempt : Nat}

theorem takePolicy_pins {state : LoopState}
    (h : Pinned state.preflight pinned) :
    Pins (takePolicy state) pinned fun next last =>
      Pinned next.preflight last := by
  refine (call_unmarked rfl).pins_seq fun update => ?_
  cases update with
  | none => exact h
  | some update =>
      refine Program.wp_seq (h.checkpoint ..) fun persisted last hlast => ?_
      refine (orFail_unmarked persisted).pins_seq fun _ => ?_
      exact (observeOrFail_unmarked _).pins_seq fun recorder => hlast

theorem updateRunning_pins {state : ProcessState}
    (h : Pinned (some preflight) pinned) (processId : Nat)
    (update : PolicyUpdate) :
    Pins (updateRunning attempt preflight processId update state) pinned
      fun _ last => Pinned (some preflight) last := by
  refine Program.wp_seq (h.checkpoint ..) fun persisted last hlast => ?_
  cases persisted with
  | error error => exact hlast
  | ok persisted =>
      exact (observe_unmarked _).pins_seq fun observed => hlast

theorem processRound_pins {state : ProcessState}
    (h : Pinned (some preflight) pinned) (processId : Nat) :
    Pins (processRound attempt preflight processId state) pinned
      fun _ last => Pinned (some preflight) last := by
  refine (call_unmarked rfl).pins_seq fun event => ?_
  have stopped (deadline : Option Nat) : Pins
      ((stopProcess state.configuration processId deadline).bind fun ended =>
        .done (.ok (Sum.inr (state, ended)))) pinned
      fun (_ : ProcessState ⊕ ProcessState × ProcessEnd) last =>
        Pinned (some preflight) last :=
    (stopProcess_untraced _ _ _).unmarked.pins_seq fun ended => h
  cases event with
  | sessionEnded => exact stopped _
  | exited status => exact h
  | externalChanged stop =>
      cases stop with
      | true => exact sessionDeadline_untraced.unmarked.pins_seq stopped
      | false => exact h
  | stdinStop => exact sessionDeadline_untraced.unmarked.pins_seq stopped
  | externalClosed | stdinClosed =>
      exact (call_unmarked rfl).pins_seq fun status => h
  | policyClosed => exact h
  | policyChanged update =>
      cases update with
      | none => exact h
      | some update =>
          change Pins (ite (state.policyOpen = true) _ _) _ _
          split
          · exact Program.wp_seq (updateRunning_pins h processId update)
              fun next last hlast => hlast
          · exact h

theorem processLoop_pins {state : ProcessState}
    (h : Pinned (some preflight) pinned) (fuel processId : Nat) :
    Pins (Program.iterate (processRound attempt preflight processId) fuel
      state) pinned fun _ last => Pinned (some preflight) last := by
  refine Program.wp_loop (fun (_ : ProcessState) last =>
    Pinned (some preflight) last) (fun state last hstate => ?_) fuel h
  refine Program.wp_mono (processRound_pins hstate processId) ?_
  rintro (error | next | ended) last hround <;> exact hround

theorem failed_pins (h : Pinned (some preflight) pinned)
    (configuration : ExecutionConfiguration) (startedUnixMs : Int)
    (error : String) :
    Pins ((failedResult startedUnixMs error).bind fun result =>
      .done (.ok (Attempted.mk configuration recorder result))) pinned
      fun _ last => Pinned (some preflight) last :=
  (failedResult_untraced _ _).unmarked.pins_seq fun _ => h

theorem superviseProcess_pins (h : Pinned (some preflight) pinned)
    (fuel : Nat) (configuration : ExecutionConfiguration)
    (startedUnixMs : Int) (processId : Nat) :
    Pins (superviseProcess fuel configuration recorder attempt preflight
      startedUnixMs processId) pinned
      fun _ last => Pinned (some preflight) last := by
  refine Program.wp_seq (h.checkpoint ..) fun persisted last running => ?_
  cases persisted with
  | error error =>
      exact (call_unmarked rfl).pins_seq fun _ => failed_pins running ..
  | ok persisted =>
      refine (observe_unmarked _).pins_seq fun ⟨observed, started⟩ => ?_
      cases started with
      | error error =>
          exact (call_unmarked rfl).pins_seq fun _ => failed_pins running ..
      | ok started =>
          refine Program.wp_seq (processLoop_pins running fuel processId) ?_
          rintro ⟨state, status, stopRequested, forced⟩ last hended
          cases status with
          | ok status =>
              exact unixMs_untraced.unmarked.pins_seq fun now => hended
          | error reason => exact failed_pins hended ..

theorem runProcess_pins (h : Pinned (some preflight) pinned) (fuel : Nat)
    (configuration : ExecutionConfiguration) (startedUnixMs : Int) :
    Pins (runProcess fuel configuration recorder attempt preflight
      startedUnixMs) pinned fun _ last => Pinned (some preflight) last := by
  refine (call_unmarked rfl).pins_seq fun job => ?_
  cases job with
  | error reason => exact failed_pins h ..
  | ok job =>
      refine Program.wp_bind (Program.wp_call h.same fun spawned _ => ?_)
      cases spawned with
      | error reason => exact failed_pins h ..
      | ok processId => exact superviseProcess_pins h ..

theorem launch_pins {state : LoopState} (h : Pinned state.preflight pinned)
    (fuel : Nat) (startedUnixMs : Int) :
    Pins (launch fuel state startedUnixMs) pinned fun launched last =>
      Pinned launched.1.preflight last := by
  unfold launch
  cases hplan : state.preflight with
  | some preflight =>
      rw [hplan] at h
      exact Program.wp_seq (runProcess_pins h ..)
        fun attempted last hlast => hlast
  | none =>
      rw [hplan] at h
      refine Program.wp_bind (Program.wp_call trivial fun resolved admitted => ?_)
      cases resolved with
      | ok resolved =>
          have absolute := admitted resolved rfl
          refine Program.wp_seq (@checkpoint_pins _ (some resolved) _
            ?_ ?_ ..) fun persisted last hlast => ?_
          · rintro _ ⟨⟩
            exact absolute
          · intro plan known
            rw [h.same] at known
            cases known
          refine (orFail_unmarked persisted).pins_seq fun _ => ?_
          exact Program.wp_seq (runProcess_pins hlast ..)
            fun attempted last hended => hended
      | error error =>
          refine unixMs_untraced.unmarked.pins_seq fun now => ?_
          refine (call_unmarked rfl).pins_seq fun stop => ?_
          change Pinned state.preflight pinned
          rwa [hplan]

end Attempt

/-! ## A backoff -/

section Backoff

variable {pinned : Option Preflight} {recorder : RuntimeRecorder}

theorem updateBackoff_pins {state : BackoffState} {context : BackoffContext}
    (h : Pinned context.preflight pinned) (update : PolicyUpdate) :
    Pins (updateBackoff context update state) pinned
      fun _ last => Pinned context.preflight last := by
  refine Program.wp_seq (h.checkpoint ..) fun persisted last hlast => ?_
  refine (orFail_unmarked persisted).pins_seq fun _ => ?_
  refine (observeOrFail_unmarked _).pins_seq fun recorder => ?_
  change Pins (ite (shouldRetry _ _ _ = true) _ _) _ _
  split <;> exact hlast

theorem backoffRound_pins {state : BackoffState} {context : BackoffContext}
    (h : Pinned context.preflight pinned) (delayMs : Nat) :
    Pins (backoffRound delayMs context state) pinned
      fun _ last => Pinned context.preflight last := by
  refine (call_unmarked rfl).pins_seq fun event => ?_
  cases event with
  | sessionEnded | externalClosed | stdinClosed | policyClosed | elapsed =>
      exact h
  | externalChanged stop => cases stop <;> exact h
  | stdinStop =>
      change Pins (ite (state.stdinOpen = true) _ _) _ _
      split <;> exact h
  | policyChanged update =>
      cases update with
      | none => exact h
      | some update =>
          change Pins (ite (state.policyOpen = true) _ _) _ _
          split
          · exact updateBackoff_pins h update
          · exact h

theorem waitBackoff_pins {context : BackoffContext}
    (h : Pinned context.preflight pinned) (fuel delayMs : Nat)
    (configuration : ExecutionConfiguration) :
    Pins (waitBackoff fuel delayMs context configuration recorder) pinned
      fun _ last => Pinned context.preflight last := by
  refine Program.wp_loop (fun (_ : BackoffState) last =>
    Pinned context.preflight last) (fun state last hstate => ?_) fuel h
  refine Program.wp_mono (backoffRound_pins hstate delayMs) ?_
  rintro (error | next | ended) last hround <;> exact hround

theorem backOff_pins {state : LoopState} (h : Pinned state.preflight pinned)
    (fuel : Nat) (successful : Bool) (exitCode : Option UInt32)
    (detail : String) :
    Pins (backOff fuel state successful exitCode detail) pinned
      fun waited last => Pinned waited.1.preflight last := by
  refine unixMs_untraced.unmarked.pins_seq fun now => ?_
  refine Program.wp_seq (h.checkpoint ..) fun persisted last hlast => ?_
  refine (orFail_unmarked persisted).pins_seq fun _ => ?_
  refine (observeOrFail_unmarked _).pins_seq fun recorder => ?_
  refine Program.wp_seq (waitBackoff_pins ?_ ..) fun waited last h => h
  exact hlast

end Backoff

/-! ## The run loop -/

section Loop

variable {pinned : Option Preflight} {recorder : RuntimeRecorder}

/-- A loop that goes on keeps the plan; a result ends the run. -/
abbrev PinnedRound (round : RoundResult) (pinned : Option Preflight) : Prop :=
  round.elim (fun next => Pinned next.preflight pinned) fun _ => True

theorem finished_pins {program : Run Unit} (unmarked : Unmarked program)
    (result : AttemptResult) :
    Pins (program.bind fun _ => .done (.ok (.inr result))) pinned
      PinnedRound :=
  unmarked.pins_seq fun _ => trivial

theorem stopped_pins (configuration : ExecutionConfiguration)
    (attempt : Nat) :
    Pins ((finishStopped configuration recorder attempt).bind fun stopped =>
      .done (.ok (.inr stopped))) pinned PinnedRound :=
  (finishStopped_unmarked configuration attempt).pins_seq fun _ => trivial

theorem decideRetry_pins {state : LoopState}
    (h : Pinned state.preflight pinned) (fuel : Nat)
    (result : AttemptResult) :
    Pins (decideRetry fuel state result) pinned PinnedRound := by
  unfold decideRetry
  split
  · exact finished_pins (finishExecutionKind_unmarked _ _ _) result
  dsimp only
  generalize (if resetsRetries state.configuration result = true then 0
    else state.retries) = retries
  split
  · have h : Pinned { state with retries := retries }.preflight pinned := h
    refine Program.wp_seq (backOff_pins h ..) ?_
    rintro ⟨next, outcome⟩ last hlast
    cases outcome with
    | elapsed => exact hlast
    | stopped => exact stopped_pins _ _
    | retryDenied =>
        exact finished_pins (finishExecutionKind_unmarked _ _ _) result
  · exact finished_pins (finishExecutionKind_unmarked _ _ _) result

theorem attemptRound_pins {state : LoopState}
    (h : Pinned state.preflight pinned) (fuel : Nat) :
    Pins (attemptRound fuel state) pinned PinnedRound := by
  refine Program.wp_seq (h.checkpoint ..) fun persisted last hlast => ?_
  refine (orFail_unmarked persisted).pins_seq fun _ => ?_
  refine unixMs_untraced.unmarked.pins_seq fun now => ?_
  refine Program.wp_seq (takePolicy_pins hlast) fun taken last htaken => ?_
  refine Program.wp_seq (launch_pins htaken fuel now) ?_
  rintro ⟨next, result⟩ last hlaunched
  refine (writeAttemptResult_untraced _ _).unmarked.pins_seq fun _ => ?_
  refine (observeOrFail_unmarked _).pins_seq fun recorder => ?_
  have h : Pinned { next with recorder := recorder }.preflight last := hlaunched
  exact decideRetry_pins h fuel result

theorem recoverActive_pins {state : LoopState}
    (h : Pinned state.preflight pinned) (fuel : Nat)
    (phase : CheckpointPhase) :
    Pins (recoverActive fuel phase state) pinned PinnedRound := by
  refine (call_unmarked rfl).pins_seq fun stop => ?_
  split
  · exact stopped_pins _ _
  refine unixMs_untraced.unmarked.pins_seq fun now => ?_
  refine (writeAttemptResult_untraced _ _).unmarked.pins_seq fun _ => ?_
  refine (observeOrFail_unmarked _).pins_seq fun recorder => ?_
  split
  · exact finished_pins (finishExecutionKind_unmarked _ _ _) _
  split
  · have h : Pinned { state with recorder := recorder }.preflight pinned := h
    refine Program.wp_seq (backOff_pins h ..) ?_
    rintro ⟨next, outcome⟩ last hlast
    cases outcome with
    | elapsed => exact hlast
    | stopped => exact stopped_pins _ _
    | retryDenied =>
        exact finished_pins (finishExecutionKind_unmarked _ _ _) _
  · exact finished_pins (finishExecutionKind_unmarked _ _ _) _

theorem recoverBackoff_pins {state : LoopState}
    (h : Pinned state.preflight pinned) (fuel : Nat)
    (checkpoint : Checkpoint) :
    Pins (recoverBackoff fuel checkpoint state) pinned PinnedRound := by
  refine unixMs_untraced.unmarked.pins_seq fun now => ?_
  split
  · refine unixMs_untraced.unmarked.pins_seq fun later => ?_
    refine Program.wp_seq (waitBackoff_pins h ..) ?_
    rintro ⟨waited, outcome⟩ last hlast
    cases outcome with
    | elapsed => exact hlast
    | stopped => exact stopped_pins _ _
    | retryDenied =>
        refine unixMs_untraced.unmarked.pins_seq fun started => ?_
        refine (failedResult_untraced _ _).unmarked.pins_seq fun failed => ?_
        exact finished_pins (finishExecutionKind_unmarked _ _ _) failed
  · exact h

theorem recover_pins {state : LoopState} (h : Pinned state.preflight pinned)
    (fuel : Nat) (checkpoint : Option Checkpoint) :
    Pins (recover fuel checkpoint state) pinned PinnedRound := by
  unfold recover
  cases checkpoint with
  | none => exact h
  | some checkpoint =>
      cases hphase : checkpoint.phase with
      | launching | running =>
          simp only [hphase]
          exact recoverActive_pins h fuel _
      | restartBackoff =>
          simp only [hphase]
          exact recoverBackoff_pins h fuel checkpoint

def recoveredPlan (frames : List RuntimeFrame) : Option Preflight :=
  (RuntimeJournal.mk false frames).recovery.checkpoint.bind recoveredPreflight

theorem run_pins (frames : List RuntimeFrame) (fuel : Nat)
    (configuration : ExecutionConfiguration) (identity : SupervisorIdentity) :
    Pins (run fuel configuration (RuntimeJournal.mk false frames).recovery
      identity) (recoveredPlan frames) fun _ _ => True := by
  have h : Pinned (initialState configuration
      (RuntimeJournal.mk false frames).recovery identity).preflight
      (recoveredPlan frames) := by
    refine ⟨rfl, fun plan hplan => ?_⟩
    obtain ⟨checkpoint, -, recovered⟩ := Option.bind_eq_some_iff.mp hplan
    exact (recoveredPreflight_absolute recovered).1
  unfold run
  extract_lets start rest
  have hrest : Pins (rest ()) (recoveredPlan frames) fun _ _ => True := by
    refine (call_unmarked rfl).pins_seq fun console => ?_
    refine (orFail_unmarked console).pins_seq fun _ => ?_
    refine Program.wp_seq (recover_pins h fuel _) ?_
    rintro (next | result) last hround
    · refine Program.wp_loop (fun (state : LoopState) last =>
        Pinned state.preflight last) (fun state last hstate => ?_) fuel hround
      refine Program.wp_mono (attemptRound_pins hstate fuel) ?_
      rintro (error | next | result) last hround <;> exact hround
    · trivial
  split
  · refine (call_unmarked rfl).pins_seq fun opened => ?_
    exact (orFail_unmarked opened).pins_seq fun _ => hrest
  · exact hrest

theorem supervise_pins (frames : List RuntimeFrame) (fuel : Nat)
    (configuration : ExecutionConfiguration) :
    Pins (supervise fuel configuration ⟨false, frames⟩) (recoveredPlan frames)
      fun _ _ => True := by
  have hrun (identity : SupervisorIdentity) : Pins (do
        let result ← run fuel configuration
          (RuntimeJournal.mk false frames).recovery identity
        let finalized ← call .finalizeJournal
        Program.orFail finalized
        return result) (recoveredPlan frames) fun _ _ => True := by
    refine Program.wp_seq (run_pins frames fuel configuration identity)
      fun result _ _ => ?_
    refine (call_unmarked rfl).pins_seq fun finalized => ?_
    exact (orFail_unmarked finalized).pins_seq fun _ => trivial
  unfold supervise
  dsimp only
  cases (RuntimeJournal.mk false frames).recovery.checkpoint with
  | none => exact Program.wp_bind (Program.wp_call trivial fun id _ => hrun _)
  | some checkpoint => exact hrun _

end Loop

/-! ## Histories -/

section Histories

variable {pinned : Option Preflight} {plan : Preflight} {op : SupervisorOp}
  {answer : SupervisorAnswer op}
  {history : List (Occurrence SupervisorOp SupervisorAnswer)}

def planAfter (pinned : Option Preflight)
    (history : List (Occurrence SupervisorOp SupervisorAnswer)) :
    Option Preflight :=
  history.foldl (fun pinned occurrence =>
    planMonitor.after pinned occurrence.1 occurrence.2) pinned

theorem usesPlan_of_permits (permitted : planMonitor.permits (some plan) op) :
    UsesPlan plan op ∧ planMonitor.after (some plan) op answer = some plan := by
  cases op with
  | append record =>
      cases record with
      | checkpoint checkpoint =>
          have recovered := permitted.2 plan rfl
          exact ⟨(recoveredPreflight_absolute recovered).2, recovered⟩
      | _ => exact ⟨trivial, rfl⟩
  | spawn preflight arguments =>
      exact ⟨(Option.some.inj permitted).symm, rfl⟩
  | _ => exact ⟨trivial, rfl⟩

theorem after_of_carriedPlan (permitted : planMonitor.permits pinned op)
    (carried : carriedPlan op = some plan) :
    planMonitor.after pinned op answer = some plan := by
  cases op with
  | append record =>
      cases record with
      | checkpoint checkpoint =>
          have values := permitted.1
          change (if checkpointPlan checkpoint = unresolvedPlan then none
            else some (checkpointPlan checkpoint)) = some plan at carried
          change recoveredPreflight checkpoint = some plan
          cases h : recoveredPreflight checkpoint with
          | none =>
              rw [h, Option.getD_none] at values
              rw [if_pos values] at carried
              cases carried
          | some recovered =>
              rw [h] at values
              split at carried
              · cases carried
              · cases carried
                exact congrArg some values.symm
      | _ => cases carried
  | _ => cases carried

theorem usesPlan_forever
    (permitted : planMonitor.Permits (some plan) history) :
    (∀ occurrence ∈ history, UsesPlan plan occurrence.1) ∧
      planAfter (some plan) history = some plan := by
  induction history with
  | nil => exact ⟨List.forall_mem_nil _, rfl⟩
  | cons occurrence history ih =>
      obtain ⟨op, answer⟩ := occurrence
      obtain ⟨uses, stays⟩ := @usesPlan_of_permits _ _ answer permitted.1
      have later := permitted.2
      rw [stays] at later
      obtain ⟨laterUses, last⟩ := ih later
      refine ⟨List.forall_mem_cons.mpr ⟨uses, laterUses⟩, ?_⟩
      unfold planAfter at last ⊢
      rw [List.foldl_cons, stays, last]

def FollowsPlan (earlier later : Occurrence SupervisorOp SupervisorAnswer) :
    Prop :=
  ∀ plan, carriedPlan earlier.1 = some plan → UsesPlan plan later.1

theorem followsPlan_of_permits
    (permitted : planMonitor.Permits pinned history) :
    history.Pairwise FollowsPlan ∧
      ∀ occurrence ∈ history, ∀ plan, carriedPlan occurrence.1 = some plan →
        planAfter pinned history = some plan := by
  induction history generalizing pinned with
  | nil => exact ⟨.nil, List.forall_mem_nil _⟩
  | cons occurrence history ih =>
      obtain ⟨op, answer⟩ := occurrence
      obtain ⟨pairs, last⟩ := ih permitted.2
      have behind : ∀ plan, carriedPlan op = some plan →
          (∀ occurrence ∈ history, UsesPlan plan occurrence.1) ∧
            planAfter pinned (⟨op, answer⟩ :: history) = some plan := by
        intro plan carried
        have pins := @after_of_carriedPlan _ _ _ answer permitted.1 carried
        have later := permitted.2
        rw [pins] at later
        obtain ⟨uses, stays⟩ := usesPlan_forever later
        refine ⟨uses, ?_⟩
        rw [← stays, ← pins]
        rfl
      refine ⟨.cons (fun later hlater plan carried =>
        (behind plan carried).1 later hlater) pairs, ?_⟩
      rw [List.forall_mem_cons]
      exact ⟨fun plan carried => (behind plan carried).2, last⟩

theorem planAfter_eq (synced : allSynced history = true) :
    planAfter pinned history =
      ((checkpoints (journaled history)).getLast?.map
        recoveredPreflight).getD pinned := by
  induction history generalizing pinned with
  | nil => rfl
  | cons occurrence history ih =>
      obtain ⟨op, answer⟩ := occurrence
      obtain ⟨hfirst, hrest⟩ := Bool.and_eq_true_iff.mp synced
      have later := @ih (planMonitor.after pinned op answer) hrest
      unfold planAfter at later ⊢
      rw [List.foldl_cons, later, checkpoints_journaled_cons,
        List.getLast?_append]
      cases (checkpoints (journaled history)).getLast? with
      | some checkpoint => rfl
      | none =>
          cases op with
          | append record =>
              have answered : answer = .synced := by simpa using hfirst
              subst answered
              cases record <;> rfl
          | _ => rfl

end Histories

/-! ## All supervisors of an execution -/

def resolvesAbsolute
    (history : List (Occurrence SupervisorOp SupervisorAnswer)) : Bool :=
  history.all fun
    | ⟨.preflightConfiguration _, .ok plan⟩ =>
        isAbsolute plan.executable && isAbsolute plan.workingDirectory
    | _ => true

theorem planMonitor_admits {pinned : Option Preflight}
    {history : List (Occurrence SupervisorOp SupervisorAnswer)}
    (synced : allSynced history = true)
    (absolute : resolvesAbsolute history = true) :
    planMonitor.Admits pinned history := by
  induction history generalizing pinned with
  | nil => trivial
  | cons occurrence history ih =>
      obtain ⟨op, answer⟩ := occurrence
      obtain ⟨hfirst, hrest⟩ := Bool.and_eq_true_iff.mp synced
      obtain ⟨hplan, hplans⟩ := Bool.and_eq_true_iff.mp absolute
      refine ⟨?_, ih hrest hplans⟩
      cases op with
      | append record =>
          have answered : answer = .synced := by simpa using hfirst
          exact answered
      | preflightConfiguration configuration =>
          rintro plan rfl
          obtain ⟨executable, workingDirectory⟩ :=
            Bool.and_eq_true_iff.mp hplan
          exact ⟨executable, workingDirectory⟩
      | _ => trivial

/-- What the supervisors of an execution did, in order. -/
def planHistory (incarnations : List Incarnation) :
    List (Occurrence SupervisorOp SupervisorAnswer) :=
  incarnations.reverse.flatMap Incarnation.history

theorem recoveredPlan_eq (frames : List RuntimeFrame) :
    recoveredPlan frames = (checkpoints frames).getLast?.bind
      recoveredPreflight := by
  rw [recoveredPlan, recovery_checkpoint]

theorem Incarnations.plan {frames : List RuntimeFrame}
    {incarnations : List Incarnation} (run : Incarnations frames incarnations)
    (synced : ∀ incarnation ∈ incarnations,
      allSynced incarnation.history = true)
    (absolute : ∀ incarnation ∈ incarnations,
      resolvesAbsolute incarnation.history = true) :
    (planHistory incarnations).Pairwise FollowsPlan ∧
      ∀ occurrence ∈ planHistory incarnations, ∀ plan,
        carriedPlan occurrence.1 = some plan →
          recoveredPlan frames = some plan := by
  induction run with
  | none => exact ⟨.nil, List.forall_mem_nil _⟩
  | @recover frames earlier incarnation before recovered lived uncut ih =>
      rw [List.forall_mem_cons] at synced absolute
      obtain ⟨pairs, known⟩ := ih synced.2 absolute.2
      obtain ⟨last, steps⟩ := lived.reached
      have permitted := Program.wp_permits
        (supervise_pins incarnation.recovered incarnation.fuel
          incarnation.configuration) steps
        (planMonitor_admits synced.1 absolute.1)
      obtain ⟨ownPairs, ownPlan⟩ := followsPlan_of_permits permitted
      have start : recoveredPlan incarnation.recovered =
          recoveredPlan frames := by
        rw [recoveredPlan_eq, checkpoints_eq_of_recovered recovered,
          recoveredPlan_eq]
      have after : recoveredPlan (incarnation.recovered ++
          journaled incarnation.history) =
            planAfter (recoveredPlan incarnation.recovered)
              incarnation.history := by
        rw [planAfter_eq synced.1, recoveredPlan_eq, checkpoints_append,
          List.getLast?_append, recoveredPlan_eq]
        cases (checkpoints (journaled incarnation.history)).getLast? <;> rfl
      have behind : ∀ occurrence ∈ planHistory earlier, ∀ plan,
          carriedPlan occurrence.1 = some plan →
            (∀ later ∈ incarnation.history, UsesPlan plan later.1) ∧
              recoveredPlan (incarnation.recovered ++
                journaled incarnation.history) = some plan := by
        intro occurrence hmem plan carried
        have pinned := start.trans (known occurrence hmem plan carried)
        rw [pinned] at permitted
        rw [after, pinned]
        exact usesPlan_forever permitted
      unfold planHistory at pairs behind ⊢
      rw [List.reverse_cons, List.flatMap_append, List.flatMap_singleton]
      constructor
      · refine List.pairwise_append.mpr ⟨pairs, ownPairs, ?_⟩
        intro occurrence hmem later hlater plan carried
        exact (behind occurrence hmem plan carried).1 later hlater
      · intro occurrence hmem plan carried
        rcases List.mem_append.mp hmem with hmem | hmem
        · exact (behind occurrence hmem plan carried).2
        · exact after.trans (ownPlan occurrence hmem plan carried)

/-- Behind the first checkpoint with a plan, every checkpoint has the same
plan and every process is created with it. -/
theorem Incarnations.plan_pinned {frames : List RuntimeFrame}
    {incarnations : List Incarnation} (run : Incarnations frames incarnations)
    (synced : ∀ incarnation ∈ incarnations,
      allSynced incarnation.history = true)
    (absolute : ∀ incarnation ∈ incarnations,
      resolvesAbsolute incarnation.history = true) :
    (planHistory incarnations).Pairwise fun earlier later =>
      ∀ plan, carriedPlan earlier.1 = some plan → UsesPlan plan later.1 :=
  (run.plan synced absolute).1

/-- A tool that fails twice, under two supervisors: the second process has the
plan that the first supervisor resolved. -/
theorem Incarnations.plan_pinned_replaced :
    (planHistory [replacedTool retriedConfiguration 1,
        finishedTool retriedConfiguration 1]).countP (fun occurrence =>
          match occurrence.1 with
          | .spawn preflight _ => preflight = AttemptWorld.plan
          | _ => false) = 2 ∧
      (planHistory [replacedTool retriedConfiguration 1,
        finishedTool retriedConfiguration 1]).Pairwise fun earlier later =>
          ∀ plan, carriedPlan earlier.1 = some plan →
            UsesPlan plan later.1 := by
  refine ⟨by decide +kernel, Incarnations.plan_pinned
    (Incarnations.tool retriedConfiguration 1 ?_ ?_) ?_ ?_⟩
  · decide +kernel
  · decide +kernel
  · decide +kernel
  · decide +kernel

end Susm.Supervisor
