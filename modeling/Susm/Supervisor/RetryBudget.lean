import Susm.Supervisor.RestartSimulation

/-!
# The retry budget across a supervisor loss

A replacement supervisor rebuilds the count of consecutive retries from the
attempt number of the last checkpoint.  The rebuilt count is the one of the
lost supervisor exactly as long as no retried attempt has cleared the count.
-/

namespace Susm.Supervisor

open Susm.Foundation
open Susm.Domain
open Susm.Protocol
open Susm.Controller

/-! ## Where a supervisor can be lost -/

def afterRound (fuel : Nat) (point : LoopState × AttemptWorld) :
    Option (LoopState × AttemptWorld) :=
  let round := (attemptRound fuel point.1).exec AttemptWorld.answer point.2
  match round.result with
  | some (.ok (.inl next)) => some (next, round.state)
  | _ => none

def afterRounds (fuel : Nat) (point : LoopState × AttemptWorld) :
    Nat → Option (LoopState × AttemptWorld)
  | 0 => some point
  | count + 1 => (afterRounds fuel point count).bind (afterRound fuel)

def afterAttempt (self : ExecutionState) (report : AttemptReport) :
    Option ExecutionState :=
  match self.phase with
  | .launching attempt =>
      match deliverAll self (report.events attempt) with
      | .ok ended =>
          match ended.phase with
          | .restartBackoff _ _ _ _ retryAt =>
              (deliverAll ended [.restartDeadlineReached retryAt]).toOption
          | _ => none
      | .error _ => none
  | _ => none

def afterAttempts (self : ExecutionState) (reports : List AttemptReport) :
    Option ExecutionState :=
  reports.foldlM afterAttempt self

/-- The attempt ran long enough to clear the count of retries. -/
def AttemptFact.Resets (configuration : ExecutionConfiguration) :
    AttemptFact → Prop
  | .launchFailed _ => False
  | .exited _ millis => 0 < configuration.restartResetAfterMs ∧
      configuration.restartResetAfterMs ≤ millis

instance (configuration : ExecutionConfiguration) :
    DecidablePred (AttemptFact.Resets configuration)
  | .launchFailed _ => inferInstanceAs (Decidable False)
  | .exited _ _ => inferInstanceAs (Decidable (_ ∧ _))

section Rounds

variable {state next after : LoopState} {world last : AttemptWorld}
variable {fact : AttemptFact} {facts : List AttemptFact} {fuel : Nat}

theorem afterRound_of_decides {value : RoundResult}
    {decisions : List Decision}
    (h : Decides (attemptRound fuel state) world value decisions last) :
    afterRound fuel (state, world) =
      value.getLeft?.map fun next => (next, last) := by
  unfold afterRound
  dsimp only
  rw [h.result, h.last]
  cases value <;> rfl

theorem afterRound_eq_some (h : world.facts = fact :: facts)
    (hround : afterRound (fuel + 1) (state, world) = some (after, last)) :
    ∃ next result,
      { state with configuration :=
        { state.configuration with attempt := state.attempt } }.SameCounts
          next ∧
      fact.Shown world.now result ∧
      after = (next.counted result).retried ∧ last.facts = facts := by
  obtain ⟨next, result, hsame, hshown, hdecides⟩ :=
    attemptRound_decides fuel state h
  refine ⟨next, result, hsame, hshown, ?_⟩
  cases hretry : shouldRetry next.configuration
      (isSuccessful next.configuration result.exitCode)
      (next.counted result).retries with
  | true =>
      rw [afterRound_of_decides (hdecides _ _ _
        (decideRetry_decides_retry fuel hshown.1 hretry))] at hround
      cases hround
      exact ⟨rfl, AttemptWorld.after_facts h⟩
  | false =>
      rw [afterRound_of_decides (hdecides _ _ _
        (decideRetry_decides_finish _ hshown.1 hretry))] at hround
      cases hround

theorem resetsRetries_iff {configuration : ExecutionConfiguration}
    {result : AttemptResult} {now : Int} (timed : fact.Timed now)
    (shown : fact.Shown now result) :
    resetsRetries configuration result = true ↔ fact.Resets configuration := by
  cases fact with
  | launchFailed step =>
      simp [resetsRetries, shown.2.1, AttemptFact.Resets]
  | exited code millis =>
      obtain ⟨-, hlaunched, -, hstarted, hended⟩ := shown
      obtain ⟨hlow, hhigh⟩ := timed
      simp only [AttemptFact.millis] at hhigh
      rw [AttemptWorld.reading_of_mem hlow (by omega)] at hstarted
      rw [AttemptWorld.reading_of_mem (by omega) hhigh.le] at hended
      have helapsed : result.endedUnixMs - result.startedUnixMs = millis := by
        omega
      unfold resetsRetries AttemptFact.Resets
      rw [decide_eq_true_eq, helapsed,
        reachesReset_iff (.inr (by omega)), hlaunched]
      simp only [true_and]
      omega

theorem afterRound_counts (timed : fact.Timed world.now)
    (h : world.facts = fact :: facts)
    (hround : afterRound (fuel + 1) (state, world) = some (after, last)) :
    after.configuration =
        { state.configuration with attempt := state.attempt } ∧
      after.attempt = saturatingAdd (2 ^ 32) state.attempt 1 ∧
      after.retries = saturatingAdd (2 ^ 32)
        (if fact.Resets state.configuration then 0 else state.retries) 1 ∧
      last.facts = facts := by
  obtain ⟨next, result, ⟨hconfiguration, hattempt, hretries⟩, hshown, rfl,
    hfacts⟩ := afterRound_eq_some h hround
  have hresets : resetsRetries next.configuration result = true ↔
      fact.Resets state.configuration := by
    rw [resetsRetries_iff timed hshown, hconfiguration]
    cases fact <;> rfl
  refine ⟨hconfiguration, ?_, ?_, hfacts⟩
  · exact congrArg (saturatingAdd (2 ^ 32) · 1) hattempt
  · refine congrArg (saturatingAdd (2 ^ 32) · 1) ?_
    change (if resetsRetries next.configuration result then 0
      else next.retries) = _
    rw [hretries]
    simp only [hresets]

theorem afterRound_nil (h : world.facts = []) :
    afterRound fuel (state, world) = none := by
  have hwaits := attemptRound_waits fuel state h
  unfold afterRound
  dsimp only
  rw [hwaits.result]

end Rounds

/-! ## The replacement -/

section Replacement

variable {configuration : ExecutionConfiguration}
variable {recovery : RuntimeRecovery} {identity : SupervisorIdentity}
variable {state : LoopState} {world : AttemptWorld} {fuel : Nat}

def LoopState.observed (state : LoopState) : LoopState :=
  { state with recorder := state.recorder.advanced }

theorem recoverActive_decides_retry (world : AttemptWorld)
    (state : LoopState) (fuel : Nat) (phase : CheckpointPhase)
    (service : state.configuration.kind = .service)
    (retry : shouldRetry state.configuration false state.retries = true) :
    Decides (recoverActive (fuel + 1) phase state) world
      (.inl state.observed.retried)
      [.next state.retried.attempt, .wait (state.delay * 10_000)]
      { world with now := world.now + state.delay } := by
  have hbackoff := backOff_decides world fuel state.observed false
    none "recovering from supervisor loss"
  refine Program.Yields.silent_bind (.call rfl rfl) ?_
  refine unixMs_decides.silent_bind ?_
  refine (writeAttemptResult_decides _ _).silent_bind ?_
  refine (observeOrFail_decides state.recorder _).silent_bind ?_
  rw [if_neg (by simp [service]), if_pos retry]
  exact hbackoff.bind_silent (.done _ _)

theorem recoverActive_decides_finish (world : AttemptWorld)
    (state : LoopState) (fuel : Nat) (phase : CheckpointPhase)
    (service : state.configuration.kind = .service)
    (denied : shouldRetry state.configuration false state.retries = false) :
    ∃ result, Decides (recoverActive fuel phase state) world (.inr result)
      [.finish state.attempt .failed] world := by
  have hfinish := finishExecution_decides world
    state.configuration state.recorder.advanced state.attempt
    (lostResult phase (AttemptWorld.reading world.now))
  refine ⟨lostResult phase (AttemptWorld.reading world.now), ?_⟩
  refine Program.Yields.silent_bind (.call rfl rfl) ?_
  refine unixMs_decides.silent_bind ?_
  refine (writeAttemptResult_decides _ _).silent_bind ?_
  refine (observeOrFail_decides state.recorder _).silent_bind ?_
  rw [if_neg (by simp [service]), if_neg (by simp [denied])]
  exact hfinish.bind_silent (.done _ _)

theorem recoverBackoff_decides (world : AttemptWorld) (state : LoopState)
    (fuel : Nat) (checkpoint : Checkpoint) :
    ∃ next decisions last,
      Decides (recoverBackoff (fuel + 1) checkpoint state) world (.inl next)
        decisions last ∧
      next.retries = state.retries := by
  by_cases hlater : checkpoint.retryAtUnixMs > AttemptWorld.reading world.now
  · obtain ⟨decisions, last, hwait⟩ : ∃ decisions last,
        Decides (waitBackoff (fuel + 1)
          (remainingMillis checkpoint.retryAtUnixMs
            (AttemptWorld.reading world.now))
          { attempt := state.attempt
            retryAtUnixMs := checkpoint.retryAtUnixMs
            preflight := state.preflight
            successful := false
            decisionRetries := state.attempt - 2 }
          state.configuration state.recorder) world
          (⟨state.configuration, state.recorder, true, true⟩, .elapsed)
          decisions last := ⟨_, _, waitBackoff_decides ..⟩
    refine ⟨state, decisions, last, unixMs_decides.silent_bind ?_, rfl⟩
    rw [if_pos hlater]
    refine unixMs_decides.silent_bind ?_
    exact hwait.bind_silent (.done _ _)
  · refine ⟨state, [], world, unixMs_decides.silent_bind ?_, rfl⟩
    rw [if_neg hlater]
    exact .done _ _

end Replacement

/-! ## Agreement about a loss -/

def lostIn (machine : ExecutionState) (attempt : AttemptNumber) :
    CheckpointPhase → ExecutionState
  | .running => { machine with phase := .running attempt }
  | .launching | .restartBackoff => machine

def lossDecisions (attempt : AttemptNumber) (instant : BootInstant)
    (ended : ExecutionState) : List Decision :=
  match ended.phase with
  | .restartBackoff _ _ nextAttempt _ retryAt =>
      [.next nextAttempt.get,
        .wait (retryAt.instant.ticks - instant.ticks)]
  | .terminal outcome => [.finish attempt.get (outcomeKind outcome)]
  | _ => []

/-- The replacement does what the machine prescribes, if it prescribes
anything. -/
def LossAgrees (fuel : Nat) (configuration : ExecutionConfiguration)
    (state : LoopState) (machine : ExecutionState) : Prop :=
  ∀ attempt, machine.phase = .launching attempt →
  ∀ recovery checkpoint, recovery.checkpoint = some checkpoint →
  checkpoint.phase ≠ .restartBackoff → checkpoint.attempt = state.attempt →
  ∀ instant reaction,
    (lostIn machine attempt checkpoint.phase).transition
      (.supervisorLost instant) = .ok reaction →
  ∀ identity world,
    (recover fuel (some checkpoint)
      (initialState configuration recovery identity)).trace
      AttemptWorld.answer decision? world =
        lossDecisions attempt instant reaction.state

/-- The replacement goes on with the count of the lost supervisor. -/
def BackoffAgrees (fuel : Nat) (configuration : ExecutionConfiguration)
    (state : LoopState) : Prop :=
  ∀ recovery checkpoint, recovery.checkpoint = some checkpoint →
  checkpoint.phase = .restartBackoff → checkpoint.attempt = state.attempt →
  ∀ identity world, ∃ next decisions last,
    Decides (recover fuel (some checkpoint)
      (initialState configuration recovery identity)) world (.inl next)
      decisions last ∧
    next.retries = state.retries

section Agreement

variable {configuration : ExecutionConfiguration} {state : LoopState}
variable {machine : ExecutionState} {fuel : Nat}

theorem recover_backoff {checkpoint : Checkpoint}
    (h : checkpoint.phase = .restartBackoff) (state : LoopState) :
    recover fuel (some checkpoint) state =
      recoverBackoff fuel checkpoint state := by
  simp only [recover, h]

theorem recover_active {checkpoint : Checkpoint}
    (h : checkpoint.phase ≠ .restartBackoff) (state : LoopState) :
    recover fuel (some checkpoint) state =
      recoverActive fuel checkpoint.phase state := by
  cases hphase : checkpoint.phase with
  | launching | running => simp only [recover, hphase]
  | restartBackoff => exact absurd hphase h

theorem initialState_attempt {recovery : RuntimeRecovery}
    {checkpoint : Checkpoint} (h : recovery.checkpoint = some checkpoint)
    (identity : SupervisorIdentity) :
    (initialState configuration recovery identity).attempt =
      max checkpoint.attempt 1 := by
  simp [initialState, h]

theorem initialState_retries {recovery : RuntimeRecovery}
    {checkpoint : Checkpoint} (h : recovery.checkpoint = some checkpoint)
    (identity : SupervisorIdentity) :
    (initialState configuration recovery identity).retries =
      checkpoint.attempt - 1 := by
  simp only [initialState, h]
  omega

theorem backoffAgrees_iff :
    BackoffAgrees (fuel + 1) configuration state ↔
      state.retries = state.attempt - 1 := by
  constructor
  · intro agrees
    let checkpoint := RuntimeRecorder.checkpointRecord ⟨"", ⟨"", 0⟩, 0, 0⟩
      configuration state.attempt .restartBackoff 0 none
    obtain ⟨next, decisions, last, hdecides, hretries⟩ :=
      agrees ⟨some checkpoint, 0, 0⟩ checkpoint rfl rfl rfl ⟨"", 0⟩ ⟨0, []⟩
    obtain ⟨same, _, _, hsame, hkept⟩ := recoverBackoff_decides ⟨0, []⟩
      (initialState configuration ⟨some checkpoint, 0, 0⟩ ⟨"", 0⟩) fuel
      checkpoint
    have heq : next = same := by
      have hresult := hdecides.result.symm.trans hsame.result
      injections
    rw [← hretries, heq, hkept, initialState_retries rfl]
    rfl
  · intro hretries recovery checkpoint hcheckpoint hphase hattempt identity
      world
    obtain ⟨next, decisions, last, hdecides, hkept⟩ := recoverBackoff_decides
      world (initialState configuration recovery identity) fuel checkpoint
    refine ⟨next, decisions, last, ?_, ?_⟩
    · rw [recover_backoff hphase]
      exact hdecides
    · rw [hkept, initialState_retries hcheckpoint, hattempt, hretries]

theorem Carries.lostIn (carries : Carries configuration machine)
    (attempt : AttemptNumber) (phase : CheckpointPhase) :
    Carries configuration (lostIn machine attempt phase) := by
  cases phase <;> exact ⟨carries.1, carries.2, carries.3, carries.4, carries.5⟩

theorem supervisorLost_eq {attempt : AttemptNumber}
    {revision : IntentRevision} (launching : machine.phase = .launching attempt)
    (horigin : machine.origin = .serviceIntent revision)
    {phase : CheckpointPhase} (instant : BootInstant) :
    (lostIn machine attempt phase).transition (.supervisorLost instant) =
      (lostIn machine attempt phase).finishAttempt attempt .supervisorLost
        instant := by
  cases phase <;>
    simp [ExecutionState.transition, ExecutionState.supervisorLost, lostIn,
      launching, horigin]

/-- A loss is decided alike as long as the counts are the same. -/
theorem Aligned.lossAgrees {attempt : AttemptNumber}
    (aligned : Aligned state attempt machine)
    (carries : Carries configuration machine)
    (service : configuration.kind = .service)
    (launching : machine.phase = .launching attempt)
    (hretries : state.retries = state.attempt - 1) :
    LossAgrees (fuel + 1) configuration state machine := by
  intro current hcurrent recovery checkpoint hcheckpoint hphase hattempt
    instant reaction hlost identity world
  cases launching.symm.trans hcurrent
  have hpos := attempt.pos
  have hrebuilt : (initialState configuration recovery identity).retries =
      ExecutionState.retryCount machine.lastRetry := by
    rw [initialState_retries hcheckpoint, hattempt, ← hretries,
      aligned.retries]
  have hordinal : (initialState configuration recovery identity).attempt =
      attempt.get := by
    rw [initialState_attempt hcheckpoint, hattempt, aligned.ordinal]
    omega
  obtain ⟨revision, horigin⟩ : ∃ revision,
      machine.origin = .serviceIntent revision := by
    cases horigin : machine.origin with
    | serviceIntent revision => exact ⟨revision, rfl⟩
    | job origin =>
        have hjob := carries.origin.mpr ⟨origin, horigin⟩
        rw [service] at hjob
        cases hjob
  have hcarries := carries.lostIn attempt checkpoint.phase
  have hretry : ExecutionState.retryCount
      (lostIn machine attempt checkpoint.phase).lastRetry =
        (initialState configuration recovery identity).retries := by
    rw [hrebuilt]
    cases checkpoint.phase <;> rfl
  rw [supervisorLost_eq launching horigin] at hlost
  have hkept : (lostIn machine attempt checkpoint.phase).resetRetries
      .supervisorLost = lostIn machine attempt checkpoint.phase := by
    unfold ExecutionState.resetRetries
    split
    case h_1 hend _ => cases hend
    case h_2 hend _ => cases hend
    case h_3 => rfl
  have hfinish := ExecutionState.Finish.of_finishAttempt hlost
  rw [hkept] at hfinish
  have hpermits (retry : RetryOrdinal) (ordinal : ExecutionState.nextRetry
      (lostIn machine attempt checkpoint.phase).lastRetry = .ok retry) :
      (lostIn machine attempt checkpoint.phase).policyPermits .supervisorLost
        retry = .ok (shouldRetry configuration false
          (initialState configuration recovery identity).retries) := by
    have hpolicy := hcarries.policyPermits .supervisorLost retry
    rw [ExecutionState.nextRetry_get ordinal, hretry,
      Nat.add_sub_cancel] at hpolicy
    exact hpolicy
  rw [recover_active hphase]
  cases hfinish with
  | @denied retry ordinal permits =>
      have hdenied := Except.ok.inj ((hpermits retry ordinal).symm.trans permits)
      obtain ⟨result, hdecides⟩ := recoverActive_decides_finish world
        (initialState configuration recovery identity) (fuel + 1)
        checkpoint.phase service hdenied
      rw [hdecides.outputs, hordinal]
      rfl
  | @retried retry nextAttempt backoff retryAt ordinal permits successor policy
      deadline =>
      have hpermitted :=
        Except.ok.inj ((hpermits retry ordinal).symm.trans permits)
      have hdecides := recoverActive_decides_retry world
        (initialState configuration recovery identity) fuel checkpoint.phase
        service hpermitted
      have hsuccessor : attempt.get + 1 = nextAttempt.get :=
        Counter.next_eq_some_iff.mp successor
      have hlt : nextAttempt.get < 2 ^ 32 := nextAttempt.lt
      have hnext : (initialState configuration recovery
          identity).retried.attempt = nextAttempt.get := by
        have hroom : (initialState configuration recovery identity).attempt +
            1 < 2 ^ 32 := by rwa [hordinal, hsuccessor]
        rw [LoopState.retried, saturatingAdd_of_lt hroom, hordinal, hsuccessor]
      have hcount : (initialState configuration recovery
          identity).retried.retries = retry.get := by
        have hroom : (initialState configuration recovery identity).retries +
            1 < 2 ^ 32 := by
          rw [initialState_retries hcheckpoint, hattempt, aligned.ordinal,
            Nat.sub_add_cancel hpos]
          exact attempt.lt
        rw [ExecutionState.nextRetry_get ordinal, hretry, LoopState.retried,
          saturatingAdd_of_lt hroom]
      have hticks := BootInstant.checkedAdd_eq_some_iff.mp deadline
      rw [hcarries.ticksOf_delayFor policy, ← hcount] at hticks
      rw [hdecides.outputs, hnext]
      change _ = [.next nextAttempt.get,
        Decision.wait (retryAt.instant.ticks - instant.ticks)]
      rw [← hticks, Nat.add_sub_cancel_left]
      rfl

end Agreement

/-! ## Whole histories -/

/-- The wall clock can be read until the end of every attempt. -/
def Clocked (fuel : Nat) (point : LoopState × AttemptWorld) : Prop :=
  ∀ count state last, afterRounds fuel point count = some (state, last) →
    ∀ fact ∈ last.facts.head?, fact.Timed last.now

section History

variable {configuration : ExecutionConfiguration} {self : ExecutionState}
variable {start state next : LoopState} {world last : AttemptWorld}
variable {fuel count : Nat}

theorem afterRounds_succ
    (h : afterRounds (fuel + 1) (start, world) (count + 1) =
      some (next, last)) :
    ∃ state middle, afterRounds (fuel + 1) (start, world) count =
        some (state, middle) ∧
      afterRound (fuel + 1) (state, middle) = some (next, last) := by
  obtain ⟨⟨state, middle⟩, hbefore, hround⟩ := Option.bind_eq_some_iff.mp h
  exact ⟨state, middle, hbefore, hround⟩

theorem afterRounds_facts
    (h : afterRounds (fuel + 1) (start, world) count = some (state, last)) :
    count ≤ world.facts.length ∧ last.facts = world.facts.drop count := by
  induction count generalizing state last with
  | zero =>
      cases h
      exact ⟨Nat.zero_le _, rfl⟩
  | succ count ih =>
      obtain ⟨before, middle, hbefore, hround⟩ := afterRounds_succ h
      obtain ⟨hle, hfacts⟩ := ih hbefore
      cases hmiddle : middle.facts with
      | nil =>
          rw [afterRound_nil hmiddle] at hround
          cases hround
      | cons fact facts =>
          obtain ⟨-, -, -, -, -, hlast⟩ := afterRound_eq_some hmiddle hround
          have hdrop := hfacts.symm.trans hmiddle
          have hlength := congrArg List.length hdrop
          rw [List.length_drop, List.length_cons] at hlength
          refine ⟨by omega, ?_⟩
          rw [hlast, ← List.drop_drop, hdrop]
          rfl

theorem afterRounds_counts (clocked : Clocked (fuel + 1) (start, world))
    (h : afterRounds (fuel + 1) (start, world) (count + 1) =
      some (next, last)) :
    ∃ state middle fact, afterRounds (fuel + 1) (start, world) count =
        some (state, middle) ∧
      world.facts[count]? = some fact ∧
      next.configuration =
        { state.configuration with attempt := state.attempt } ∧
      next.attempt = saturatingAdd (2 ^ 32) state.attempt 1 ∧
      next.retries = saturatingAdd (2 ^ 32)
        (if fact.Resets state.configuration then 0 else state.retries) 1 := by
  obtain ⟨state, middle, hbefore, hround⟩ := afterRounds_succ h
  obtain ⟨-, hfacts⟩ := afterRounds_facts hbefore
  cases hmiddle : middle.facts with
  | nil =>
      rw [afterRound_nil hmiddle] at hround
      cases hround
  | cons fact facts =>
      have htimed := clocked count state middle hbefore fact (by
        rw [hmiddle]
        rfl)
      obtain ⟨hconfiguration, hattempt, hretries, -⟩ :=
        afterRound_counts htimed hmiddle hround
      refine ⟨state, middle, fact, hbefore, ?_, hconfiguration, hattempt,
        hretries⟩
      rw [← List.head?_drop, ← hfacts, hmiddle]
      rfl

theorem afterRounds_configuration
    (clocked : Clocked (fuel + 1) (start, world))
    (h : afterRounds (fuel + 1) (start, world) count = some (state, last)) :
    ∃ attempt, state.configuration =
      { start.configuration with attempt := attempt } := by
  induction count generalizing state last with
  | zero =>
      cases h
      exact ⟨_, rfl⟩
  | succ count ih =>
      obtain ⟨before, middle, fact, hbefore, -, hconfiguration, -⟩ :=
        afterRounds_counts clocked h
      obtain ⟨attempt, hattempt⟩ := ih hbefore
      exact ⟨before.attempt, by rw [hconfiguration, hattempt]⟩

theorem afterRounds_attempt (clocked : Clocked (fuel + 1) (start, world))
    (first : start.attempt = 1)
    (h : afterRounds (fuel + 1) (start, world) count = some (state, last)) :
    state.attempt = min (count + 1) (2 ^ 32 - 1) := by
  induction count generalizing state last with
  | zero =>
      cases h
      exact first
  | succ count ih =>
      obtain ⟨before, middle, fact, hbefore, -, -, hattempt, -⟩ :=
        afterRounds_counts clocked h
      rw [hattempt, ih hbefore, saturatingAdd]
      omega

theorem AttemptFact.resets_withAttempt {fact : AttemptFact} (attempt : Nat) :
    fact.Resets { configuration with attempt := attempt } ↔
      fact.Resets configuration := by
  cases fact <;> rfl

theorem afterRounds_retries (clocked : Clocked (fuel + 1) (start, world))
    (unretried : start.retries = 0)
    (kept : ∀ index fact, 0 < index → index < count →
      world.facts[index]? = some fact → ¬ fact.Resets start.configuration)
    (h : afterRounds (fuel + 1) (start, world) count = some (state, last)) :
    state.retries = min count (2 ^ 32 - 1) := by
  induction count generalizing state last with
  | zero =>
      cases h
      simpa using unretried
  | succ count ih =>
      obtain ⟨before, middle, fact, hbefore, hfact, -, -, hretries⟩ :=
        afterRounds_counts clocked h
      obtain ⟨attempt, hconfiguration⟩ :=
        afterRounds_configuration clocked hbefore
      have hcount := ih (fun index other hpos hlt =>
        kept index other hpos (by omega)) hbefore
      rw [hretries, hconfiguration]
      simp only [AttemptFact.resets_withAttempt]
      cases count with
      | zero =>
          rw [hcount]
          simp [saturatingAdd]
      | succ count =>
          rw [if_neg (kept _ fact (Nat.succ_pos _) (Nat.lt_succ_self _) hfact),
            hcount, saturatingAdd]
          omega

theorem afterRounds_reset (clocked : Clocked (fuel + 1) (start, world))
    {fact : AttemptFact} (hfact : world.facts[count]? = some fact)
    (resets : fact.Resets start.configuration)
    (h : afterRounds (fuel + 1) (start, world) (count + 1) =
      some (next, last)) :
    next.retries = 1 := by
  obtain ⟨before, middle, other, hbefore, hother, -, -, hretries⟩ :=
    afterRounds_counts clocked h
  obtain ⟨attempt, hconfiguration⟩ := afterRounds_configuration clocked hbefore
  cases hfact.symm.trans hother
  rw [hretries, hconfiguration]
  simp only [AttemptFact.resets_withAttempt]
  rw [if_pos resets]
  rfl

theorem afterAttempt_eq_some {attempt : AttemptNumber}
    {machine after : ExecutionState} {report : AttemptReport}
    (launching : machine.phase = .launching attempt)
    (carries : Carries configuration machine)
    (counted : machine.CountedBelow attempt)
    (room : attempt.get + 1 < 2 ^ 32)
    (h : afterAttempt machine report = some after) :
    ∃ nextAttempt retry,
      nextAttempt.get = attempt.get + 1 ∧
      retry.get = ExecutionState.retryCount ((report.active machine
        attempt).resetRetries report.attemptEnd).lastRetry + 1 ∧
      after =
        { (report.active machine attempt).resetRetries report.attemptEnd with
          lastRetry := some retry
          phase := .launching nextAttempt } := by
  have hcounted : (report.active machine attempt).CountedBelow attempt := by
    cases report <;> exact counted
  have hdecided := (carries.active attempt report).decided hcounted room
    report.attemptEnd report.instant
  unfold afterAttempt at h
  rw [launching] at h
  dsimp only at h
  rw [deliverAll_events launching] at h
  generalize (report.active machine attempt).finishAttempt attempt
    report.attemptEnd report.instant = ended at h hdecided
  cases hdecided with
  | finished denied => cases h
  | overflow permitted late => cases h
  | @retried nextAttempt retry retryAt permitted successor ordinal deadline =>
      refine ⟨nextAttempt, retry, successor, ordinal, ?_⟩
      simpa [Except.map, Transition.new, ExecutionState.backoffState,
        deliverAll_singleton, ExecutionState.transition,
        ExecutionState.restartDeadlineReached, Except.toOption] using h.symm

theorem afterAttempts_succ {machine : ExecutionState}
    {reports : List AttemptReport} {report : AttemptReport}
    (hreport : reports[count]? = some report)
    (h : afterAttempts self (reports.take (count + 1)) = some machine) :
    ∃ before, afterAttempts self (reports.take count) = some before ∧
      afterAttempt before report = some machine := by
  rw [List.take_add_one, hreport, Option.toList_some, afterAttempts,
    List.foldlM_append] at h
  obtain ⟨before, hbefore, hlast⟩ := Option.bind_eq_some_iff.mp h
  refine ⟨before, hbefore, ?_⟩
  simpa using hlast

theorem reported_get {facts : List AttemptFact}
    {reports : List AttemptReport} {fact : AttemptFact}
    (reported : List.Forall₂ Reports facts reports)
    (h : facts[count]? = some fact) :
    ∃ report, reports[count]? = some report ∧ Reports fact report := by
  obtain ⟨hlength, hget⟩ := List.forall₂_iff_get.mp reported
  obtain ⟨hlt, rfl⟩ := List.getElem?_eq_some_iff.mp h
  exact ⟨_, List.getElem?_eq_getElem (hlength ▸ hlt), hget count hlt _⟩

theorem afterRounds_aligned {machine : ExecutionState}
    {reports : List AttemptReport} {identity : SupervisorIdentity}
    (fresh : self.Fresh) (carries : Carries configuration self)
    (first : configuration.attempt ≤ 1)
    (reported : List.Forall₂ Reports world.facts reports)
    (clocked : Clocked (fuel + 1)
      (initialState configuration ⟨none, 0, 0⟩ identity, world))
    (h : afterRounds (fuel + 1)
      (initialState configuration ⟨none, 0, 0⟩ identity, world) count =
        some (state, last))
    (hmachine : afterAttempts self (reports.take count) = some machine)
    (room : count + 1 < 2 ^ 32) :
    ∃ attempt, Aligned state attempt machine ∧
      machine.phase = .launching attempt ∧ attempt.get = count + 1 := by
  induction count generalizing state last machine with
  | zero =>
      cases h
      cases hmachine
      exact ⟨Counter.first, initialState_aligned fresh carries first identity,
        fresh.phase, rfl⟩
  | succ count ih =>
      obtain ⟨before, middle, hbefore, hround⟩ := afterRounds_succ h
      obtain ⟨-, hfacts⟩ := afterRounds_facts hbefore
      cases hmiddle : middle.facts with
      | nil =>
          rw [afterRound_nil hmiddle] at hround
          cases hround
      | cons fact facts =>
          have hfact : world.facts[count]? = some fact := by
            rw [← List.head?_drop, ← hfacts, hmiddle]
            rfl
          obtain ⟨report, hreport, hmatch⟩ := reported_get reported hfact
          obtain ⟨previous, hprevious, hafter⟩ :=
            afterAttempts_succ hreport hmachine
          obtain ⟨attempt, haligned, hlaunching, hattempt⟩ :=
            ih hbefore hprevious (by omega)
          have htimed := clocked count before middle hbefore fact (by
            rw [hmiddle]
            rfl)
          obtain ⟨next, result, ⟨hconfiguration, hordinal, hretries⟩, hshown,
            rfl, -⟩ := afterRound_eq_some hmiddle hround
          have hactive : Aligned next attempt
              (report.active previous attempt) := by
            refine Aligned.active ⟨?_, hordinal.trans haligned.ordinal,
              hretries.trans haligned.retries, haligned.counted⟩ report
            rw [hconfiguration]
            exact haligned.carries.withAttempt before.attempt
          obtain ⟨nextAttempt, retry, hnext, hretry, rfl⟩ :=
            afterAttempt_eq_some hlaunching haligned.carries haligned.counted
              (by omega) hafter
          exact ⟨nextAttempt, hactive.retried
            (hactive.retries_counted hmatch htimed hshown) (by omega) hnext
            hretry, rfl, by omega⟩

theorem afterRounds_le {more : Nat} {point : LoopState × AttemptWorld}
    (h : afterRounds fuel point (count + more) ≠ none) :
    afterRounds fuel point count ≠ none := by
  induction more with
  | zero => exact h
  | succ more ih =>
      refine ih fun hnone => h ?_
      rw [← Nat.add_assoc, afterRounds, hnone]
      rfl

end History

/-- Wherever the supervisor is lost, its replacement decides and counts like
the machine. -/
def BudgetSurvives (fuel : Nat) (configuration : ExecutionConfiguration)
    (self : ExecutionState) (reports : List AttemptReport)
    (point : LoopState × AttemptWorld) : Prop :=
  ∀ count state last, afterRounds fuel point count = some (state, last) →
    (∀ machine, afterAttempts self (reports.take count) = some machine →
      LossAgrees fuel configuration state machine) ∧
    (0 < count → BackoffAgrees fuel configuration state)

/-- The budget survives exactly the histories that never clear the count. -/
theorem budgetSurvives_iff {configuration : ExecutionConfiguration}
    {self : ExecutionState} {reports : List AttemptReport}
    {world : AttemptWorld} {fuel : Nat} {identity : SupervisorIdentity}
    (fresh : self.Fresh) (carries : Carries configuration self)
    (first : configuration.attempt ≤ 1)
    (service : configuration.kind = .service)
    (reported : List.Forall₂ Reports world.facts reports)
    (clocked : Clocked (fuel + 1)
      (initialState configuration ⟨none, 0, 0⟩ identity, world))
    (retried : afterRounds (fuel + 1)
      (initialState configuration ⟨none, 0, 0⟩ identity, world)
      world.facts.length ≠ none) :
    BudgetSurvives (fuel + 1) configuration self reports
        (initialState configuration ⟨none, 0, 0⟩ identity, world) ↔
      world.facts.length + 1 < 2 ^ 32 ∧
        ∀ fact ∈ world.facts.tail, ¬ fact.Resets configuration := by
  have hattempt : (initialState configuration ⟨none, 0, 0⟩ identity).attempt =
      1 := Nat.max_eq_right first
  have hretries : (initialState configuration ⟨none, 0, 0⟩ identity).retries =
      0 := Nat.sub_eq_zero_of_le hattempt.le
  constructor
  · intro survives
    have hcounts (count : Nat) (hlt : count < world.facts.length) :
        ∃ state last, afterRounds (fuel + 1)
          (initialState configuration ⟨none, 0, 0⟩ identity, world)
          (count + 1) = some (state, last) ∧
          state.retries = state.attempt - 1 := by
      obtain ⟨more, hmore⟩ := Nat.exists_eq_add_of_lt hlt
      have hsome : afterRounds (fuel + 1)
          (initialState configuration ⟨none, 0, 0⟩ identity, world)
          (count + 1) ≠ none :=
        afterRounds_le (by rwa [Nat.add_right_comm, ← hmore])
      obtain ⟨⟨state, last⟩, hrounds⟩ := Option.ne_none_iff_exists'.mp hsome
      exact ⟨state, last, hrounds, backoffAgrees_iff.mp
        ((survives _ _ _ hrounds).2 (Nat.succ_pos _))⟩
    have hkept : ∀ index fact, 0 < index →
        world.facts[index]? = some fact → ¬ fact.Resets configuration := by
      intro index fact hpos hfact hresets
      obtain ⟨hlt, -⟩ := List.getElem?_eq_some_iff.mp hfact
      obtain ⟨state, last, hrounds, hcount⟩ := hcounts index hlt
      have hcleared := afterRounds_reset clocked hfact hresets hrounds
      have hnumber := afterRounds_attempt clocked hattempt hrounds
      omega
    constructor
    · by_contra hlong
      obtain ⟨state, last, hrounds, hcount⟩ :=
        hcounts (2 ^ 32 - 2) (by omega)
      have hnumber := afterRounds_attempt clocked hattempt hrounds
      have hall := afterRounds_retries clocked hretries
        (fun index fact hpos _ => hkept index fact hpos) hrounds
      omega
    · intro fact hfact
      obtain ⟨index, hindex⟩ := List.mem_iff_getElem?.mp hfact
      rw [List.getElem?_tail] at hindex
      exact hkept (index + 1) fact (Nat.succ_pos _) hindex
  · rintro ⟨hroom, hkept⟩ count state last hrounds
    obtain ⟨hle, -⟩ := afterRounds_facts hrounds
    have hnumber := afterRounds_attempt clocked hattempt hrounds
    have hall := afterRounds_retries clocked hretries
      (fun index fact hpos _ hfact => by
        obtain ⟨index, rfl⟩ := Nat.exists_eq_succ_of_ne_zero hpos.ne'
        refine hkept fact (List.mem_iff_getElem?.mpr ⟨index, ?_⟩)
        rwa [List.getElem?_tail]) hrounds
    have hcount : state.retries = state.attempt - 1 := by omega
    refine ⟨fun machine hmachine => ?_, fun _ => backoffAgrees_iff.mpr hcount⟩
    obtain ⟨attempt, haligned, hlaunching, -⟩ := afterRounds_aligned fresh
      carries first reported clocked hrounds hmachine (by omega)
    obtain ⟨number, hconfiguration⟩ :=
      afterRounds_configuration clocked hrounds
    have hcarries : Carries configuration machine := by
      have hback := haligned.carries.withAttempt configuration.attempt
      rw [hconfiguration] at hback
      exact hback
    exact haligned.lossAgrees hcarries service hlaunching hcount

def twicePolicy : ServiceRestartPolicy :=
  .always (steadyRetry .two 1000 100 (by decide)
    (by decide))

def twiceConfiguration : ExecutionConfiguration :=
  applyRestart toolConfiguration (.service twicePolicy)

def twiceMachine : ExecutionState :=
  .sample (.serviceIntent Counter.first) (.service twicePolicy)

def twiceStart (facts : List AttemptFact) : LoopState × AttemptWorld :=
  (initialState twiceConfiguration ⟨none, 0, 0⟩ ⟨"supervisor", 1⟩, ⟨0, facts⟩)

/-- Two attempts that end at once. -/
def shortFacts : List AttemptFact := [.exited 1 0, .exited 1 0]

def shortReports : List AttemptReport :=
  [.exited ⟨1⟩ (.fromMillis 0 (by decide)) ⟨0, by decide⟩ ⟨0, by decide⟩,
    .exited ⟨1⟩ (.fromMillis 0 (by decide)) ⟨0, by decide⟩ ⟨0, by decide⟩]

theorem shortFacts_clocked : Clocked 1 (twiceStart shortFacts) := by
  intro count state last hrounds fact hfact
  obtain ⟨-, hfacts⟩ := afterRounds_facts hrounds
  have timed : ∀ count < 2, ∀ point ∈ afterRounds 1 (twiceStart shortFacts)
      count, ∀ fact ∈ point.2.facts.head?, fact.Timed point.2.now := by
    decide +kernel
  rcases Nat.lt_or_ge count 2 with early | late
  · exact timed count early (state, last) hrounds fact hfact
  · rw [hfacts, List.drop_eq_nil_of_le late] at hfact
    cases hfact

/-- Both attempts are retried, and neither is forgotten. -/
theorem budgetSurvives_short :
    BudgetSurvives 1 twiceConfiguration twiceMachine shortReports
        (twiceStart shortFacts) ↔
      2 + 1 < 2 ^ 32 ∧
        ∀ fact ∈ [AttemptFact.exited 1 0], ¬ fact.Resets twiceConfiguration :=
  budgetSurvives_iff (ExecutionState.sample_service_fresh _ _)
    (toolConfiguration_carries _ _ (steadyRetry_onWire _ 1000 100 _ _))
    (by decide) (by decide)
    (.cons (.exited 1 _ _ rfl) (.cons (.exited 1 _ _ rfl) .nil))
    shortFacts_clocked (by decide +kernel)

/-- After two failures and a long third attempt the supervisor is lost. -/
def twiceFacts : List AttemptFact :=
  [.exited 1 0, .exited 1 0, .exited 1 1000]

def twiceReports : List AttemptReport :=
  [.exited ⟨1⟩ (.fromMillis 0 (by decide)) ⟨0, by decide⟩ ⟨0, by decide⟩,
    .exited ⟨1⟩ (.fromMillis 0 (by decide)) ⟨0, by decide⟩ ⟨0, by decide⟩,
    .exited ⟨1⟩ (.fromMillis 1000 (by decide)) ⟨0, by decide⟩ ⟨0, by decide⟩]

def fourthCheckpoint : Checkpoint :=
  RuntimeRecorder.checkpointRecord ⟨"", ⟨"supervisor", 1⟩, 0, 0⟩
    twiceConfiguration 4 .running 0 none

/-- The machine retries the lost attempt, the replacement gives up. -/
theorem budget_lost :
    ¬ BudgetSurvives 1 twiceConfiguration twiceMachine twiceReports
        (twiceStart twiceFacts) ∧
      ((afterAttempts twiceMachine twiceReports).bind fun machine =>
        (machine.transition (.supervisorLost ⟨0, by decide⟩)).toOption.map
          fun reaction => lossDecisions ⟨4, by decide, by decide⟩
            ⟨0, by decide⟩ reaction.state) =
        some [.next 5, .wait 1_000_000] ∧
      (recover 1 (some fourthCheckpoint) (initialState twiceConfiguration
        ⟨some fourthCheckpoint, 0, 0⟩ ⟨"supervisor", 2⟩)).trace
        AttemptWorld.answer decision? ⟨0, []⟩ = [.finish 4 .failed] := by
  refine ⟨?_, by decide +kernel, by decide +kernel⟩
  intro survives
  have hcounts : (afterRounds 1 (twiceStart twiceFacts) 3).map
      (fun point => (point.1.retries, point.1.attempt)) = some (1, 4) := by
    decide +kernel
  obtain ⟨⟨state, last⟩, hrounds, hpoint⟩ := Option.map_eq_some_iff.mp hcounts
  have hbackoff := backoffAgrees_iff.mp
    ((survives 3 state last hrounds).2 (by decide))
  simp only [Prod.mk.injEq] at hpoint
  omega

end Susm.Supervisor
