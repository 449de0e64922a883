import Susm.Domain.Execution.PhaseDiagram
import Mathlib.Data.List.Range

/-!
# The joint invariant of attempt, retry ordinal, policy and phase

A fresh execution starts at its first attempt with no retry counted.  From
there the count of consecutive retries stays below the attempt number, a
pending retry is one that the current policy and success codes still permit,
and only a graceful plan holds a stop deadline.  The overflow and mismatch
errors of the attempt-end path are unreachable as a consequence.
-/

namespace Susm.Domain

open Susm.Foundation
open Susm.Foundation.EventMachine

namespace ExecutionState

def sample (origin : ExecutionOrigin) (restartPolicy : ExecutionRestartPolicy) :
    ExecutionState where
  id := ⟨0⟩
  workloadId := ⟨"worker"⟩
  origin := origin
  sourceDefinition := ⟨Vector.replicate 32 0⟩
  executionConfig := ⟨Vector.replicate 32 0⟩
  successExitCodes := {⟨0⟩}
  restartPolicy := restartPolicy
  lastRetry := none
  phase := .launching Counter.first

/-- A newly created execution. -/
structure Fresh (state : ExecutionState) : Prop where
  phase : state.phase = .launching Counter.first
  lastRetry : state.lastRetry = none
  kind : state.KindMatches

theorem sample_service_fresh (revision : IntentRevision)
    (policy : ServiceRestartPolicy) :
    (sample (.serviceIntent revision) (.service policy)).Fresh :=
  ⟨rfl, rfl, rfl⟩

theorem sample_job_fresh (origin : JobExecutionOrigin)
    (policy : JobRestartPolicy) :
    (sample (.job origin) (.job policy)).Fresh :=
  ⟨rfl, rfl, rfl⟩

def retryCount (lastRetry : Option RetryOrdinal) : Nat :=
  lastRetry.elim 0 Counter.get

def IsJob (self : ExecutionState) : Prop :=
  ∃ origin, self.origin = .job origin

/-- Fewer retries than attempts; for a job exactly one fewer. -/
def CountedBelow (self : ExecutionState) (attempt : AttemptNumber) : Prop :=
  retryCount self.lastRetry ≤ attempt.get - 1 ∧
    (self.IsJob → retryCount self.lastRetry = attempt.get - 1)

/-- What each phase promises about the counters and the policy in force. -/
def PhaseHolds (self : ExecutionState) : Prop :=
  match self.phase with
  | .launching attempt | .running attempt => self.CountedBelow attempt
  | .stopping attempt stop _ plan =>
      self.CountedBelow attempt ∧
        ∀ deadline, stop.deadline? = some deadline → plan ≠ .kill
  | .restartBackoff previousAttempt previousEnd nextAttempt retry _ =>
      nextAttempt.get = previousAttempt.get + 1 ∧
        self.lastRetry = some retry ∧
        retry.get ≤ previousAttempt.get ∧
        (self.IsJob → retry.get = previousAttempt.get) ∧
        self.policyPermits previousEnd retry = .ok true
  | .terminal _ => True

structure PhaseInvariant (state : ExecutionState) : Prop where
  kind : state.KindMatches
  phase : state.PhaseHolds

section ResetRetries

variable (self : ExecutionState) (attemptEnd : AttemptEnd)

theorem resetRetries_kindMatches (h : self.KindMatches) :
    (self.resetRetries attemptEnd).KindMatches := by
  simpa [KindMatches, validatePolicyKind] using h

theorem resetRetries_countedBelow {attempt : AttemptNumber}
    (h : self.CountedBelow attempt) :
    (self.resetRetries attemptEnd).CountedBelow attempt := by
  rcases self.resetRetries_cases attemptEnd with
    hreset | ⟨hreset, revision, horigin⟩
  · rwa [hreset]
  · rw [hreset]
    refine ⟨Nat.zero_le _, ?_⟩
    rintro ⟨origin, hjob⟩
    change self.origin = .job origin at hjob
    rw [horigin] at hjob
    cases hjob

end ResetRetries

theorem nextRetry_get {lastRetry : Option RetryOrdinal}
    {retry : RetryOrdinal} (h : nextRetry lastRetry = .ok retry) :
    retry.get = retryCount lastRetry + 1 := by
  cases lastRetry with
  | none =>
      cases h
      rfl
  | some previous => exact (Counter.next_eq_some_iff.mp (orError_eq_ok.mp h)).symm

/-! ## The invariant is kept by every move -/

theorem Finish.phaseInvariant {self : ExecutionState}
    {attempt : AttemptNumber} {attemptEnd : AttemptEnd}
    {instant : BootInstant}
    {result : Transition ExecutionState ExecutionEffect}
    (kind : self.KindMatches) (counted : self.CountedBelow attempt)
    (finish : Finish self attempt attemptEnd instant result) :
    result.state.PhaseInvariant := by
  have hpos := attempt.pos
  cases finish with
  | denied ordinal permits => exact ⟨kind, trivial⟩
  | retried ordinal permits successor policy deadline =>
      have hretry := nextRetry_get ordinal
      have hnext := Counter.next_eq_some_iff.mp successor
      refine ⟨kind, hnext.symm, rfl, ?_, ?_, permits⟩
      · have := counted.1
        omega
      · intro hjob
        have := counted.2 hjob
        omega

theorem PhaseInvariant.terminal {self : ExecutionState}
    (kind : self.KindMatches) (outcome : ExecutionOutcome) :
    (self.terminal outcome).state.PhaseInvariant := ⟨kind, trivial⟩

theorem PhaseInvariant.finishStop {self : ExecutionState}
    (kind : self.KindMatches) (cause : StopCause) (forced : Bool) :
    (self.finishStop cause forced).state.PhaseInvariant := by
  rw [finishStop_eq]
  exact .terminal kind _

theorem PhaseInvariant.countedBelow {self : ExecutionState}
    (inv : self.PhaseInvariant) {attempt : AttemptNumber}
    (h : self.phase = .launching attempt ∨ self.phase = .running attempt) :
    self.CountedBelow attempt := by
  have hphase := inv.phase
  unfold PhaseHolds at hphase
  rcases h with h | h <;> simpa [h] using hphase

theorem PhaseInvariant.reconsidered {self next : ExecutionState}
    {result : Transition ExecutionState ExecutionEffect}
    (inv : self.PhaseInvariant) (h : next.reconsiderBackoff = .ok result)
    (kind : next.KindMatches) (origin : next.origin = self.origin)
    (phase : next.phase = self.phase)
    (lastRetry : next.lastRetry = self.lastRetry) :
    result.state.PhaseInvariant := by
  have hholds := inv.phase
  unfold PhaseHolds CountedBelow IsJob at hholds
  rw [← phase, ← lastRetry, ← origin] at hholds
  rcases reconsiderBackoff_cases h with
    ⟨previousAttempt, previousEnd, nextAttempt, retry, retryAt, hphase,
      ⟨hpermits, rfl⟩ | ⟨-, rfl⟩⟩ | ⟨hnot, rfl⟩
  · refine ⟨kind, ?_⟩
    simp only [hphase] at hholds
    simp only [PhaseHolds, IsJob, Transition.withoutEffects, hphase]
    exact ⟨hholds.1, hholds.2.1, hholds.2.2.1, hholds.2.2.2.1, hpermits⟩
  · exact .terminal kind _
  · refine ⟨kind, ?_⟩
    unfold PhaseHolds CountedBelow IsJob Transition.withoutEffects
    cases hphase : next.phase with
    | restartBackoff => exact absurd hphase (hnot _ _ _ _ _)
    | launching | running | stopping | terminal =>
        simp only [hphase] at hholds
        exact hholds

theorem PhaseInvariant.move {self : ExecutionState} {event : ExecutionEvent}
    {result : Transition ExecutionState ExecutionEffect}
    (inv : self.PhaseInvariant) (move : Move self event result) :
    result.state.PhaseInvariant := by
  have hholds := inv.phase
  cases move with
  | launched phase => exact ⟨inv.kind, inv.countedBelow (.inl phase)⟩
  | launchedIntoStop phase signal =>
      simp only [PhaseHolds, phase] at hholds
      exact ⟨inv.kind, hholds.1, fun _ _ => hholds.2 _ rfl⟩
  | launchFailed phase finish =>
      exact finish.phaseInvariant (self.resetRetries_kindMatches _ inv.kind)
        (self.resetRetries_countedBelow _ (inv.countedBelow (.inl phase)))
  | processExited phase finish =>
      exact finish.phaseInvariant (self.resetRetries_kindMatches _ inv.kind)
        (self.resetRetries_countedBelow _ (inv.countedBelow (.inr phase)))
  | serviceLost phase service finish =>
      exact finish.phaseInvariant (self.resetRetries_kindMatches _ inv.kind)
        (self.resetRetries_countedBelow _ (inv.countedBelow phase))
  | jobLost phase job => exact .terminal inv.kind _
  | stopEnded inPhase ended => exact .finishStop inv.kind _ _
  | stopBegan valid allowed due began =>
      refine ⟨inv.kind, ?_, ?_⟩
      · rcases began with ⟨phase, -⟩ | ⟨phase, -⟩
        · exact inv.countedBelow (.inl phase)
        · exact inv.countedBelow (.inr phase)
      · rintro - - rfl
        cases allowed
  | killed valid phase =>
      exact ⟨inv.kind, inv.countedBelow phase, fun _ h => by cases h⟩
  | backoffStopped valid phase => exact .finishStop inv.kind _ _
  | relaunched phase =>
      simp only [PhaseHolds, phase] at hholds
      obtain ⟨hnext, hlast, hle, hjob, -⟩ := hholds
      refine ⟨inv.kind, ?_, ?_⟩
      · simp only [Transition.new, hlast, retryCount, Option.elim_some]
        omega
      · intro isJob
        have := hjob isJob
        simp only [Transition.new, hlast, retryCount, Option.elim_some]
        omega
  | stopExpired phase =>
      rcases phase with phase | phase
      all_goals
        simp only [PhaseHolds, phase] at hholds
        exact ⟨inv.kind, hholds.1, fun _ h => by cases h⟩
  | updated change reconsidered =>
      rcases change with ⟨policy, rfl, valid, rfl⟩ | ⟨codes, rfl, rfl⟩
      · exact inv.reconsidered reconsidered valid rfl rfl rfl
      · exact inv.reconsidered reconsidered inv.kind rfl rfl rfl
  | unchanged phase => exact inv

theorem Fresh.phaseInvariant {self : ExecutionState} (fresh : self.Fresh) :
    self.PhaseInvariant := by
  refine ⟨fresh.kind, ?_⟩
  simp [PhaseHolds, fresh.phase, CountedBelow, fresh.lastRetry, retryCount]

theorem Fresh.run_phaseInvariant {self : ExecutionState} (fresh : self.Fresh)
    (events : List ExecutionEvent) :
    (run transition self events).state.PhaseInvariant :=
  run_invariant (fun _ => True) PhaseInvariant
    (fun _ _ _ inv _ hstep => inv.move (.of_transition hstep))
    fresh.phaseInvariant (fun _ _ => trivial)

/-! ## The errors that the invariant excludes -/

theorem KindMatches.policyPermits {self : ExecutionState}
    (kind : self.KindMatches) (attemptEnd : AttemptEnd)
    (retry : RetryOrdinal) :
    ∃ permitted, self.policyPermits attemptEnd retry = .ok permitted := by
  unfold KindMatches validatePolicyKind at kind
  unfold ExecutionState.policyPermits
  cases horigin : self.origin <;> cases hpolicy : self.restartPolicy <;>
    simp only [horigin, hpolicy, reduceCtorEq] at kind ⊢
  case serviceIntent.service policy =>
    cases policy with
    | never => exact ⟨_, rfl⟩
    | always policy => exact ⟨_, rfl⟩
    | onFailure policy => dsimp only; split <;> exact ⟨_, rfl⟩
  case job.job policy => cases policy <;> exact ⟨_, rfl⟩

theorem backoff_of_policyPermits {self : ExecutionState}
    {attemptEnd : AttemptEnd} {retry : RetryOrdinal}
    (h : self.policyPermits attemptEnd retry = .ok true) :
    ∃ backoff, self.backoff = .ok backoff := by
  unfold policyPermits at h
  unfold ExecutionState.backoff
  cases horigin : self.origin <;> cases hpolicy : self.restartPolicy <;>
    simp only [horigin, hpolicy, reduceCtorEq] at h ⊢
  case serviceIntent.service policy =>
    cases policy with
    | never => cases h
    | onFailure policy | always policy => exact ⟨_, rfl⟩
  case job.job policy =>
    cases policy with
    | never => cases h
    | onFailure policy => exact ⟨_, rfl⟩

theorem CountedBelow.nextRetry {self : ExecutionState}
    {attempt : AttemptNumber} (counted : self.CountedBelow attempt) :
    ∃ retry, nextRetry self.lastRetry = .ok retry := by
  have hcount := counted.1
  have hlt : attempt.get < CounterKind.retry.limit := attempt.lt
  cases hlast : self.lastRetry with
  | none => exact ⟨_, rfl⟩
  | some previous =>
      rw [hlast] at hcount
      change previous.get ≤ attempt.get - 1 at hcount
      cases hnext : previous.next with
      | none =>
          have := Counter.next_eq_none_iff.mp hnext
          have := attempt.pos
          omega
      | some successor => exact ⟨successor, orError_eq_ok.mpr hnext⟩

theorem finishAttempt_error {self : ExecutionState} {attempt : AttemptNumber}
    {attemptEnd : AttemptEnd} {instant : BootInstant}
    {error : ExecutionTransitionError} (kind : self.KindMatches)
    (counted : self.CountedBelow attempt)
    (h : self.finishAttempt attempt attemptEnd instant = .error error) :
    error = .attemptOverflow ∨ error = .deadlineOverflow := by
  obtain ⟨retry, hretry⟩ :=
    (self.resetRetries_countedBelow attemptEnd counted).nextRetry
  obtain ⟨permitted, hpermits⟩ :=
    (self.resetRetries_kindMatches attemptEnd kind).policyPermits
      attemptEnd retry
  rcases bind_eq_error_iff.mp h with hfail | ⟨_, hvalue, h⟩
  · rw [hretry] at hfail
    cases hfail
  rw [hretry] at hvalue
  cases hvalue
  rcases bind_eq_error_iff.mp h with hfail | ⟨_, hvalue, h⟩
  · rw [hpermits] at hfail
    cases hfail
  rw [hpermits] at hvalue
  cases hvalue
  cases permitted with
  | false => cases h
  | true =>
      obtain ⟨backoff, hbackoff⟩ := backoff_of_policyPermits hpermits
      rcases bind_eq_error_iff.mp h with hfail | ⟨_, hnext, h⟩
      · exact .inl (orError_eq_error.mp hfail).2.symm
      rcases bind_eq_error_iff.mp h with hfail | ⟨_, hvalue, h⟩
      · rw [hbackoff] at hfail
        cases hfail
      rcases bind_eq_error_iff.mp h with hfail | ⟨_, hdeadline, h⟩
      · exact .inr (orError_eq_error.mp hfail).2.symm
      cases h

theorem KindMatches.reconsiderBackoff {self : ExecutionState}
    (kind : self.KindMatches) :
    ∃ result, self.reconsiderBackoff = .ok result := by
  unfold ExecutionState.reconsiderBackoff
  split
  case h_1 previousAttempt previousEnd nextAttempt retry retryAt hphase =>
    obtain ⟨permitted, hpermits⟩ := kind.policyPermits previousEnd retry
    rw [hpermits]
    cases permitted <;> exact ⟨_, rfl⟩
  case h_2 => exact ⟨_, rfl⟩

/-- The events that decide whether another attempt follows. -/
def DecidesRetry : ExecutionEvent → Prop
  | .launchFailed .. | .processExited .. | .supervisorLost _
  | .successExitCodesChanged _ => True
  | .launchSucceeded .. | .stopRequested .. | .restartDeadlineReached _
  | .stopDeadlineReached _ | .restartPolicyChanged _ => False

section Errors

variable {self : ExecutionState} {attempt : AttemptNumber}
  {instant : BootInstant} {error : ExecutionTransitionError}

def Expected (error : ExecutionTransitionError) : Prop :=
  error ≠ .retryOverflow ∧ error ≠ .policyKindMismatch

theorem PhaseInvariant.finishAttempt_expected {attemptEnd : AttemptEnd}
    (inv : self.PhaseInvariant)
    (phase : self.phase = .launching attempt ∨ self.phase = .running attempt)
    (h : self.finishAttempt attempt attemptEnd instant = .error error) :
    Expected error := by
  rcases finishAttempt_error inv.kind (inv.countedBelow phase) h with
    rfl | rfl <;> simp [Expected]

theorem PhaseInvariant.launchFailed_expected {failure : LaunchFailure}
    (inv : self.PhaseInvariant)
    (h : self.launchFailed attempt failure instant = .error error) :
    Expected error := by
  unfold launchFailed at h
  split at h
  case h_1 current hphase =>
    split at h
    · rename_i heq
      subst heq
      exact inv.finishAttempt_expected (.inl hphase) h
    · cases h
      simp [Expected]
  case h_2 =>
    split at h <;> cases h
    simp [Expected]
  case h_3 =>
    cases h
    simp [Expected]

theorem PhaseInvariant.processExited_expected {exitCode : ExitCode}
    {ranFor : Duration} (inv : self.PhaseInvariant)
    (h : self.processExited attempt exitCode ranFor instant = .error error) :
    Expected error := by
  unfold processExited at h
  split at h
  case h_1 current hphase =>
    split at h
    · rename_i heq
      subst heq
      exact inv.finishAttempt_expected (.inr hphase) h
    · cases h
      simp [Expected]
  case h_2 =>
    split at h <;> cases h
    simp [Expected]
  case h_3 =>
    cases h
    simp [Expected]

theorem PhaseInvariant.supervisorLost_expected (inv : self.PhaseInvariant)
    (h : self.supervisorLost instant = .error error) : Expected error := by
  unfold supervisorLost at h
  split at h
  case h_1 attempt hphase =>
    split at h
    · cases h
    · exact inv.finishAttempt_expected (.inl hphase) h
  case h_2 attempt hphase =>
    split at h
    · cases h
    · exact inv.finishAttempt_expected (.inr hphase) h
  case h_3 => cases h
  case h_4 =>
    cases h
    simp [Expected]
  case h_5 => cases h

theorem PhaseInvariant.expected {event : ExecutionEvent}
    (inv : self.PhaseInvariant) (decides : DecidesRetry event)
    (h : self.transition event = .error error) : Expected error := by
  cases event with
  | launchSucceeded | stopRequested | restartDeadlineReached
  | stopDeadlineReached | restartPolicyChanged => exact decides.elim
  | launchFailed => exact inv.launchFailed_expected h
  | processExited => exact inv.processExited_expected h
  | supervisorLost => exact inv.supervisorLost_expected h
  | successExitCodesChanged codes =>
      have kind : { self with successExitCodes := codes }.KindMatches :=
        inv.kind
      obtain ⟨result, hresult⟩ := kind.reconsiderBackoff
      change ExecutionState.reconsiderBackoff _ = _ at h
      rw [hresult] at h
      cases h

end Errors

/-! ## The attempts a job is granted -/

def launchAttempts (effects : List ExecutionEffect) : List Nat :=
  effects.filterMap fun
    | .launchAttempt attempt => some attempt.get
    | _ => none

theorem launchAttempts_append (first second : List ExecutionEffect) :
    launchAttempts (first ++ second) =
      launchAttempts first ++ launchAttempts second :=
  List.filterMap_append

def currentAttempt : ExecutionPhase → Option AttemptNumber
  | .launching attempt | .running attempt | .stopping attempt ..
  | .restartBackoff attempt .. => some attempt
  | .terminal _ => none

theorem launchAttempts_of_phaseStep {before after : ExecutionPhase}
    {effects : List ExecutionEffect} (step : PhaseStep before effects after) :
    (launchAttempts effects = [] ∧
        ∀ attempt, currentAttempt after = some attempt →
          currentAttempt before = some attempt) ∨
      ∃ previousAttempt previousEnd nextAttempt retry retryAt,
        before = .restartBackoff previousAttempt previousEnd nextAttempt
            retry retryAt ∧
          effects = [.launchAttempt nextAttempt] ∧
          after = .launching nextAttempt := by
  cases step with
  | relaunched => exact .inr ⟨_, _, _, _, _, rfl, rfl, rfl⟩
  | backedOff active => rcases active with rfl | rfl <;> exact .inl ⟨rfl, fun _ h => h⟩
  | stopKilled active => rcases active with rfl | rfl <;> exact .inl ⟨rfl, fun _ h => h⟩
  | stopSignalled signal | launchedIntoStop signal =>
      rcases StopPlan.signal_eq_some signal with rfl | rfl <;>
        exact .inl ⟨rfl, fun _ h => h⟩
  | attemptFinished | backoffFinished | stopFinished =>
      exact .inl ⟨rfl, fun _ h => by cases h⟩
  | stay | launched | stopAwaitingLaunch | stopExpired =>
      exact .inl ⟨rfl, fun _ h => h⟩

/-- A job under a fixed retry policy, related to the attempts launched. -/
structure JobProgress (policy : JobRetryPolicy) (state : ExecutionState)
    (emitted : List ExecutionEffect) : Prop where
  inv : state.PhaseInvariant
  isJob : state.IsJob
  policy_eq : state.restartPolicy = .job (.onFailure policy)
  numbered : ∃ count, count ≤ policy.maxRestarts.get ∧
    launchAttempts emitted = List.range' 2 count ∧
    ∀ attempt, currentAttempt state.phase = some attempt →
      attempt.get = count + 1

theorem JobProgress.move {policy : JobRetryPolicy} {self : ExecutionState}
    {emitted : List ExecutionEffect} {event : ExecutionEvent}
    {result : Transition ExecutionState ExecutionEffect}
    (progress : JobProgress policy self emitted)
    (unchanged : ∀ changed, event = .restartPolicyChanged (.job changed) →
      changed = .onFailure policy)
    (move : Move self event result) :
    JobProgress policy result.state (emitted ++ result.effects) := by
  obtain ⟨inv, ⟨origin, hjob⟩, hpolicy, count, hle, hlaunched, hattempt⟩ :=
    progress
  refine ⟨inv.move move, ⟨origin, move.origin.trans hjob⟩, ?_, ?_⟩
  · rcases move.restartPolicy with h | ⟨changed, hevent, hvalid, h⟩
    · exact h.trans hpolicy
    · unfold validatePolicyKind at hvalid
      cases changed with
      | service => simp [hjob] at hvalid
      | job changed => rw [h, unchanged changed hevent]
  rw [launchAttempts_append]
  rcases launchAttempts_of_phaseStep move.phaseStep with
    ⟨hnone, hkeeps⟩ |
    ⟨previousAttempt, previousEnd, nextAttempt, retry, retryAt, hphase,
      heffects, hnext⟩
  · refine ⟨count, hle, by rw [hnone, List.append_nil, hlaunched], ?_⟩
    intro attempt hcurrent
    exact hattempt attempt (hkeeps attempt hcurrent)
  · have hholds := inv.phase
    simp only [PhaseHolds, hphase] at hholds
    obtain ⟨hsuccessor, -, -, hretry, hpermits⟩ := hholds
    have hcount := hattempt previousAttempt (by rw [hphase]; rfl)
    have hordinal := hretry ⟨origin, hjob⟩
    have hmaximum : retry.get ≤ policy.maxRestarts.get := by
      simp only [policyPermits, hjob, hpolicy, Except.ok.injEq,
        Bool.and_eq_true, decide_eq_true_eq] at hpermits
      exact hpermits.2
    refine ⟨count + 1, by omega, ?_, ?_⟩
    · rw [heffects, hlaunched, List.range'_concat]
      change _ ++ [nextAttempt.get] = _
      congr 2
      omega
    · intro attempt hcurrent
      rw [hnext] at hcurrent
      cases hcurrent
      omega

theorem Fresh.jobProgress {policy : JobRetryPolicy} {self : ExecutionState}
    (fresh : self.Fresh)
    (hpolicy : self.restartPolicy = .job (.onFailure policy)) :
    JobProgress policy self [] := by
  have hkind := fresh.kind
  refine ⟨fresh.phaseInvariant, ?_, hpolicy, 0, Nat.zero_le _, rfl, ?_⟩
  · cases horigin : self.origin with
    | job origin => exact ⟨origin, horigin⟩
    | serviceIntent revision =>
        simp [KindMatches, validatePolicyKind, horigin, hpolicy] at hkind
  · intro attempt hcurrent
    rw [fresh.phase] at hcurrent
    cases hcurrent
    rfl

theorem Fresh.run_jobProgress {policy : JobRetryPolicy}
    {self : ExecutionState} (fresh : self.Fresh)
    (hpolicy : self.restartPolicy = .job (.onFailure policy))
    {events : List ExecutionEvent}
    (unchanged : ∀ changed,
      .restartPolicyChanged (.job changed) ∈ events →
        changed = .onFailure policy) :
    JobProgress policy (run transition self events).state
      (run transition self events).effects := by
  refine run_history
    (fun event => ∀ changed, event = .restartPolicyChanged (.job changed) →
      changed = .onFailure policy)
    (JobProgress policy) ?_ [] (fresh.jobProgress hpolicy) ?_
  · intro state emitted event result progress admitted hstep
    exact progress.move admitted (.of_transition hstep)
  · rintro event hmem changed rfl
    exact unchanged changed hmem

/--
Every state reached from a fresh execution satisfies the phase invariant; the
attempt-end and success-code events never report a retry overflow or a policy
of the wrong kind there; and a job whose retry policy stays what it was is
launched again at most `maxRestarts` times, with consecutive attempt numbers.
-/
theorem Fresh.run_wellFormed {self : ExecutionState} (fresh : self.Fresh)
    (events : List ExecutionEvent) :
    (run transition self events).state.PhaseInvariant ∧
      (∀ event error, DecidesRetry event →
        (run transition self events).state.transition event = .error error →
        error ≠ .retryOverflow ∧ error ≠ .policyKindMismatch) ∧
      ∀ policy, self.restartPolicy = .job (.onFailure policy) →
        (∀ changed, .restartPolicyChanged (.job changed) ∈ events →
          changed = .onFailure policy) →
        ∃ count, count ≤ policy.maxRestarts.get ∧
          launchAttempts (run transition self events).effects =
            List.range' 2 count := by
  have inv := fresh.run_phaseInvariant events
  refine ⟨inv, fun event error => inv.expected, ?_⟩
  intro policy hpolicy unchanged
  obtain ⟨count, hle, hlaunched, -⟩ :=
    (fresh.run_jobProgress hpolicy unchanged).numbered
  exact ⟨count, hle, hlaunched⟩

def samplePolicy (maxRestarts : NonZeroU32) : JobRetryPolicy where
  maxRestarts := maxRestarts
  backoff :=
    { initial := ⟨⟨100_000_000, by decide⟩, by decide⟩
      multiplier := .two
      maximum := ⟨.second, by decide⟩
      initial_le_maximum := by decide }

theorem run_wellFormed_sample :
    ∃ count, count ≤ 1 ∧
      launchAttempts
          (run transition
            (sample (.job .manual)
              (.job (.onFailure (samplePolicy ⟨1, by decide, by decide⟩))))
            [.launchFailed Counter.first (.preflight .executableNotFound)
                ⟨5, by decide⟩,
              .restartDeadlineReached ⟨⟨1_000_005, by decide⟩⟩]).effects =
        List.range' 2 count :=
  (Fresh.run_wellFormed (sample_job_fresh _ _) _).2.2
    (samplePolicy ⟨1, by decide, by decide⟩) rfl (by simp)

end ExecutionState

end Susm.Domain
