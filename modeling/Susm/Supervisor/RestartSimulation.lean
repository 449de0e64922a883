import Susm.Supervisor.RestartRuns

/-!
# The run loop follows the execution state machine

The execution state machine is told how each attempt ended, and the retry
deadlines it schedules are reached.  In a world where the attempts end alike,
the run loop of the supervisor takes the same decisions.
-/

namespace Susm.Supervisor

open Susm.Foundation
open Susm.Domain
open Susm.Protocol
open Susm.Controller

/-! ## The decisions of the machine -/

/-- How the machine learns the fate of an attempt. -/
inductive AttemptReport where
  | launchFailed (failure : LaunchFailure) (instant : BootInstant)
  | exited (exitCode : ExitCode) (ranFor : Duration)
      (launched ended : BootInstant)
  deriving DecidableEq

namespace AttemptReport

def events (attempt : AttemptNumber) : AttemptReport → List ExecutionEvent
  | .launchFailed failure instant => [.launchFailed attempt failure instant]
  | .exited exitCode ranFor launched ended =>
      [.launchSucceeded attempt launched,
        .processExited attempt exitCode ranFor ended]

def attemptEnd : AttemptReport → AttemptEnd
  | .launchFailed failure _ => .launchFailed failure
  | .exited exitCode ranFor _ _ => .exited exitCode ranFor

def instant : AttemptReport → BootInstant
  | .launchFailed _ instant => instant
  | .exited _ _ _ ended => ended

/-- The state in which the machine learns the end of the attempt. -/
def active (self : ExecutionState) (attempt : AttemptNumber) :
    AttemptReport → ExecutionState
  | .launchFailed _ _ => self
  | .exited _ _ _ _ => { self with phase := .running attempt }

end AttemptReport

def outcomeKind : ExecutionOutcome → ObservationKind
  | .completed _ => .completed
  | .failed _ => .failed
  | .outcomeUnknown _ => .outcomeUnknown
  | .stopped _ _ => .stopped
  | .cancelled _ _ => .cancelled

def deliverAll (self : ExecutionState) :
    List ExecutionEvent → Except ExecutionTransitionError ExecutionState
  | [] => .ok self
  | event :: events =>
      match self.transition event with
      | .ok reaction => deliverAll reaction.state events
      | .error error => .error error

def machineDecisions (self : ExecutionState) :
    List AttemptReport → List Decision × Option ExecutionTransitionError
  | [] => ([], none)
  | report :: reports =>
      match self.phase with
      | .launching attempt =>
          match deliverAll self (report.events attempt) with
          | .error error => ([], some error)
          | .ok ended =>
              match ended.phase with
              | .terminal outcome =>
                  ([.finish attempt.get (outcomeKind outcome)], none)
              | .restartBackoff _ _ nextAttempt _ retryAt =>
                  match deliverAll ended [.restartDeadlineReached retryAt] with
                  | .error error => ([], some error)
                  | .ok next =>
                      let rest := machineDecisions next reports
                      (.next nextAttempt.get ::
                        .wait (retryAt.instant.ticks - report.instant.ticks) ::
                        rest.1, rest.2)
              | _ => ([], none)
      | _ => ([], none)

section Machine

variable {self : ExecutionState} {attempt : AttemptNumber}

theorem deliverAll_cons_ok {event : ExecutionEvent}
    {reaction : Transition ExecutionState ExecutionEffect}
    (h : self.transition event = .ok reaction)
    (events : List ExecutionEvent) :
    deliverAll self (event :: events) = deliverAll reaction.state events := by
  rw [deliverAll, h]

theorem deliverAll_singleton (event : ExecutionEvent) :
    deliverAll self [event] =
      (self.transition event).map Reaction.state := by
  rw [deliverAll]
  cases self.transition event <;> rfl

/-- An active attempt ends as `finish_attempt` says. -/
theorem deliverAll_events (h : self.phase = .launching attempt)
    (report : AttemptReport) :
    deliverAll self (report.events attempt) =
      ((report.active self attempt).finishAttempt attempt report.attemptEnd
        report.instant).map Reaction.state := by
  cases report with
  | launchFailed failure instant =>
      have hfailed : self.transition (.launchFailed attempt failure instant) =
          self.finishAttempt attempt (.launchFailed failure) instant := by
        simp [ExecutionState.transition, ExecutionState.launchFailed, h]
      rw [AttemptReport.events, deliverAll_singleton, hfailed]
      rfl
  | exited exitCode ranFor launched ended =>
      have hlaunched : self.transition (.launchSucceeded attempt launched) =
          .ok (.withoutEffects { self with phase := .running attempt }) := by
        simp [ExecutionState.transition, ExecutionState.launchSucceeded, h]
      have hexited : ({ self with phase := .running attempt }).transition
          (.processExited attempt exitCode ranFor ended) =
            ({ self with phase := .running attempt }).finishAttempt attempt
              (.exited exitCode ranFor) ended := by
        simp [ExecutionState.transition, ExecutionState.processExited]
      rw [AttemptReport.events, deliverAll_cons_ok hlaunched,
        deliverAll_singleton]
      exact congrArg _ hexited

theorem machineDecisions_finished {report : AttemptReport}
    (h : self.phase = .launching attempt) {finished : ExecutionState}
    (outcome : ExecutionOutcome)
    (ended : (report.active self attempt).finishAttempt attempt
      report.attemptEnd report.instant = .ok (finished.terminal outcome))
    (reports : List AttemptReport) :
    machineDecisions self (report :: reports) =
      ([.finish attempt.get (outcomeKind outcome)], none) := by
  have hended : deliverAll self (report.events attempt) =
      .ok (finished.terminal outcome).state := by
    rw [deliverAll_events h, ended]
    rfl
  rw [machineDecisions, h]
  dsimp only
  rw [hended]
  rfl

theorem machineDecisions_rejected {report : AttemptReport}
    (h : self.phase = .launching attempt) {error : ExecutionTransitionError}
    (ended : (report.active self attempt).finishAttempt attempt
      report.attemptEnd report.instant = .error error)
    (reports : List AttemptReport) :
    machineDecisions self (report :: reports) = ([], some error) := by
  have hended : deliverAll self (report.events attempt) = .error error := by
    rw [deliverAll_events h, ended]
    rfl
  rw [machineDecisions, h]
  dsimp only
  rw [hended]

theorem machineDecisions_retried {report : AttemptReport}
    (h : self.phase = .launching attempt) {waiting : ExecutionState}
    {attemptEnd : AttemptEnd} {nextAttempt : AttemptNumber}
    {retry : RetryOrdinal} {retryAt : RetryDeadline}
    {effects : List ExecutionEffect}
    (ended : (report.active self attempt).finishAttempt attempt
      report.attemptEnd report.instant = .ok (.new
        (waiting.backoffState attempt attemptEnd nextAttempt retry retryAt)
        effects))
    (reports : List AttemptReport) :
    machineDecisions self (report :: reports) =
      let rest := machineDecisions
        { waiting with
          lastRetry := some retry
          phase := .launching nextAttempt } reports
      (.next nextAttempt.get ::
        .wait (retryAt.instant.ticks - report.instant.ticks) :: rest.1,
        rest.2) := by
  have hended : deliverAll self (report.events attempt) = .ok
      (waiting.backoffState attempt attemptEnd nextAttempt retry retryAt) := by
    rw [deliverAll_events h, ended]
    rfl
  have hreached : deliverAll
      (waiting.backoffState attempt attemptEnd nextAttempt retry retryAt)
      [.restartDeadlineReached retryAt] = .ok
        { waiting with
          lastRetry := some retry
          phase := .launching nextAttempt } := by
    simp [deliverAll_singleton, ExecutionState.transition,
      ExecutionState.restartDeadlineReached, ExecutionState.backoffState,
      Transition.new, Except.map]
  rw [machineDecisions, h]
  dsimp only
  rw [hended]
  simp only [ExecutionState.backoffState] at hreached ⊢
  rw [hreached]

end Machine

/-! ## The two sides of an attempt -/

/-- The machine is told what happened in the world. -/
inductive Reports : AttemptFact → AttemptReport → Prop
  | launchFailed (step : LaunchStep) (failure : LaunchFailure)
      (instant : BootInstant) :
      Reports (.launchFailed step) (.launchFailed failure instant)
  | exited (code : UInt32) {millis : Nat} {ranFor : Duration}
      (launched ended : BootInstant) (h : ranFor.nanos = millis * 10 ^ 6) :
      Reports (.exited code millis) (.exited ⟨code⟩ ranFor launched ended)

def AttemptFact.millis : AttemptFact → Nat
  | .launchFailed _ => 0
  | .exited _ millis => millis

/-- The wall clock can be read until the end of the attempt. -/
def AttemptFact.Timed (fact : AttemptFact) (now : Int) : Prop :=
  0 ≤ now ∧ now + fact.millis < maxI64

structure Aligned (state : LoopState) (attempt : AttemptNumber)
    (machine : ExecutionState) : Prop where
  carries : Carries state.configuration machine
  ordinal : state.attempt = attempt.get
  retries : state.retries = ExecutionState.retryCount machine.lastRetry
  counted : machine.CountedBelow attempt

section Attempt

variable {configuration : ExecutionConfiguration} {self : ExecutionState}
variable {state : LoopState} {attempt : AttemptNumber}
variable {fact : AttemptFact} {report : AttemptReport}
variable {result : AttemptResult}

theorem Carries.active (carries : Carries configuration self)
    (attempt : AttemptNumber) (report : AttemptReport) :
    Carries configuration (report.active self attempt) := by
  cases report <;> exact ⟨carries.1, carries.2, carries.3, carries.4, carries.5⟩

theorem Aligned.active (aligned : Aligned state attempt self)
    (report : AttemptReport) :
    Aligned state attempt (report.active self attempt) := by
  refine ⟨aligned.carries.active attempt report, aligned.ordinal, ?_, ?_⟩
  · cases report <;> exact aligned.retries
  · cases report <;> exact aligned.counted

theorem Carries.isSuccessful (carries : Carries configuration self)
    (reports : Reports fact report) {now : Int}
    (shown : fact.Shown now result) :
    isSuccessful configuration result.exitCode =
      !self.attemptFailed report.attemptEnd := by
  cases reports with
  | launchFailed step failure instant =>
      rw [shown.2.2]
      rfl
  | exited code launched ended h =>
      rw [shown.2.2.1]
      simp [Supervisor.isSuccessful, AttemptReport.attemptEnd,
        ExecutionState.attemptFailed, carries.codes]

theorem Aligned.retries_counted (aligned : Aligned state attempt self)
    (reports : Reports fact report) {now : Int} (timed : fact.Timed now)
    (shown : fact.Shown now result) :
    (state.counted result).retries = ExecutionState.retryCount
      (self.resetRetries report.attemptEnd).lastRetry := by
  cases reports with
  | launchFailed step failure instant =>
      have hkept : resetsRetries state.configuration result = false := by
        simp [resetsRetries, shown.2.1]
      have hself : self.resetRetries (.launchFailed failure) = self := by
        unfold ExecutionState.resetRetries
        split
        case h_1 hend _ => cases hend
        case h_2 hend _ => cases hend
        case h_3 => rfl
      simp [LoopState.counted, hkept, AttemptReport.attemptEnd, hself,
        aligned.retries]
  | @exited code millis ranFor launched ended h =>
      obtain ⟨-, hlaunched, -, hstarted, hended⟩ := shown
      obtain ⟨hlow, hhigh⟩ := timed
      simp only [AttemptFact.millis] at hhigh
      have hmillis : (millis : Int) < maxI64 := by omega
      rw [AttemptWorld.reading_of_mem hlow (by omega)] at hstarted
      rw [AttemptWorld.reading_of_mem (by omega) hhigh.le] at hended
      have hreset := aligned.carries.resetRetries (.inr hmillis) hlaunched
        (by
          rw [hstarted, hended]
          omega) h ⟨code⟩
      rw [AttemptReport.attemptEnd, hreset, LoopState.counted,
        aligned.retries]

theorem LoopState.delay_counted (state : LoopState) (result : AttemptResult)
    (room : (state.counted result).retries + 1 < 2 ^ 32) :
    (state.counted result).delay = retryDelay state.configuration
      ((state.counted result).retries + 1) := by
  unfold LoopState.delay
  rw [LoopState.retried, saturatingAdd_of_lt room]
  rfl

theorem Aligned.retried {attemptEnd : AttemptEnd}
    {nextAttempt : AttemptNumber} {retry : RetryOrdinal}
    (aligned : Aligned state attempt self)
    (counts : (state.counted result).retries =
      ExecutionState.retryCount (self.resetRetries attemptEnd).lastRetry)
    (room : attempt.get + 1 < 2 ^ 32)
    (successor : nextAttempt.get = attempt.get + 1)
    (ordinal : retry.get =
      ExecutionState.retryCount (self.resetRetries attemptEnd).lastRetry + 1) :
    Aligned (state.counted result).retried nextAttempt
      { self.resetRetries attemptEnd with
        lastRetry := some retry
        phase := .launching nextAttempt } := by
  have hcounted := self.resetRetries_countedBelow attemptEnd aligned.counted
  have hpos := attempt.pos
  have hcarries := aligned.carries.reset attemptEnd
  refine ⟨⟨hcarries.1, hcarries.2, hcarries.3, hcarries.4, hcarries.5⟩, ?_,
    ?_, ?_, fun hjob => ?_⟩
  · have hattempt : (state.counted result).attempt = attempt.get :=
      aligned.ordinal
    simp only [LoopState.retried, saturatingAdd, hattempt, successor]
    omega
  · have hbelow := hcounted.1
    simp only [LoopState.retried, saturatingAdd, counts,
      ExecutionState.retryCount, Option.elim_some, ordinal] at hbelow ⊢
    omega
  · have hbelow := hcounted.1
    simp only [ExecutionState.retryCount, Option.elim_some, ordinal] at hbelow ⊢
    omega
  · have hequal := hcounted.2 hjob
    simp only [ExecutionState.retryCount, Option.elim_some, ordinal] at hequal ⊢
    omega

end Attempt

theorem outcomeKind_attemptOutcome (self : ExecutionState)
    (attempt : AttemptNumber) (attemptEnd : AttemptEnd) :
    outcomeKind (self.attemptOutcome attempt attemptEnd) =
      if !self.attemptFailed attemptEnd then .completed else .failed := by
  cases attemptEnd with
  | exited exitCode ranFor =>
      by_cases hcode : exitCode ∈ self.successExitCodes <;>
        simp [ExecutionState.attemptOutcome, ExecutionState.attemptFailed,
          hcode, outcomeKind]
  | launchFailed failure => rfl
  | killed => rfl
  | supervisorLost => rfl

/-! ## Whole runs -/

instance (fact : AttemptFact) (now : Int) : Decidable (fact.Timed now) :=
  inferInstanceAs (Decidable (_ ∧ _))

def ClockHolds : Int → List AttemptFact → List Decision → Prop
  | _, [], _ => True
  | now, fact :: facts, .next _ :: .wait ticks :: rest =>
      fact.Timed now ∧
        ClockHolds (now + fact.millis + (ticks / 10_000 : Nat)) facts rest
  | now, fact :: _, _ => fact.Timed now

instance decidableClockHolds (now : Int) (facts : List AttemptFact)
    (decisions : List Decision) : Decidable (ClockHolds now facts decisions) :=
  match facts, decisions with
  | [], _ => .isTrue trivial
  | fact :: facts, .next _ :: .wait ticks :: rest =>
      have := decidableClockHolds
        (now + fact.millis + (ticks / 10_000 : Nat)) facts rest
      inferInstanceAs (Decidable (_ ∧ _))
  | fact :: _, [] | fact :: _, .wait _ :: _ | fact :: _, .finish _ _ :: _
  | fact :: _, [.next _] | fact :: _, .next _ :: .next _ :: _
  | fact :: _, .next _ :: .finish _ _ :: _ =>
      inferInstanceAs (Decidable (fact.Timed now))

theorem ClockHolds.timed {now : Int} {fact : AttemptFact}
    {facts : List AttemptFact} {decisions : List Decision}
    (h : ClockHolds now (fact :: facts) decisions) : fact.Timed now := by
  rcases decisions with _ | ⟨_ | _ | _, _ | ⟨_ | _ | _, _⟩⟩ <;>
    first
    | exact h.1
    | exact h

/-- The same decisions, up to a deadline the boot clock cannot represent. -/
def Agree (reports : List AttemptReport)
    (machine : List Decision × Option ExecutionTransitionError)
    (decisions : List Decision) : Prop :=
  match machine.2 with
  | none => decisions = machine.1
  | some error => error = .deadlineOverflow ∧
      ∃ report ∈ reports, ∃ attempt ticks rest,
        decisions = machine.1 ++ .next attempt :: .wait ticks :: rest ∧
          tickLimit ≤ report.instant.ticks + ticks

theorem Agree.cons {reports : List AttemptReport}
    {machine : List Decision × Option ExecutionTransitionError}
    {decisions : List Decision} (agree : Agree reports machine decisions)
    (report : AttemptReport) (first : List Decision) :
    Agree (report :: reports) (first ++ machine.1, machine.2)
      (first ++ decisions) := by
  unfold Agree at *
  split at agree
  next hnone =>
    simp only [hnone, agree]
  next error hsome =>
    obtain ⟨rfl, late, hlate, attempt, ticks, rest, rfl, hlimit⟩ := agree
    simp only [hsome, true_and]
    exact ⟨late, List.mem_cons_of_mem report hlate, attempt, ticks, rest,
      (List.append_assoc ..).symm, hlimit⟩

theorem AttemptWorld.after_facts {world : AttemptWorld} {fact : AttemptFact}
    {facts : List AttemptFact} (h : world.facts = fact :: facts) :
    (world.after fact).facts = facts := by
  cases fact <;> simp [AttemptWorld.after, AttemptWorld.next, h]

theorem AttemptWorld.after_now (world : AttemptWorld) (fact : AttemptFact) :
    (world.after fact).now = world.now + fact.millis := by
  cases fact <;> simp [AttemptWorld.after, AttemptWorld.next,
    AttemptFact.millis]

theorem Aligned.agree {state : LoopState} {attempt : AttemptNumber}
    {self : ExecutionState} {facts : List AttemptFact}
    {reports : List AttemptReport} {world : AttemptWorld} {fuel count : Nat}
    (aligned : Aligned state attempt self)
    (launching : self.phase = .launching attempt)
    (reported : List.Forall₂ Reports facts reports)
    (hfacts : world.facts = facts)
    (clock : ClockHolds world.now facts (machineDecisions self reports).1)
    (room : attempt.get + facts.length < 2 ^ 32)
    (hfuel : facts.length ≤ fuel) (hcount : facts.length ≤ count) :
    Agree reports (machineDecisions self reports)
      ((Program.iterate (attemptRound fuel) count state).trace
        AttemptWorld.answer decision? world) := by
  induction reported generalizing state attempt self world count with
  | nil =>
      exact (Program.Starves.iterate_round
        (attemptRound_waits fuel state hfacts) count).outputs
  | @cons fact report facts reports hreport hrest ih =>
      rw [List.length_cons] at room hfuel hcount
      obtain ⟨fuel, rfl⟩ : ∃ fewer, fuel = fewer + 1 :=
        Nat.exists_eq_add_of_le' (by omega)
      obtain ⟨count, rfl⟩ : ∃ fewer, count = fewer + 1 :=
        Nat.exists_eq_add_of_le' (by omega)
      obtain ⟨next, result, ⟨hconfiguration, hattempt, hretries⟩, hshown,
        hround⟩ := attemptRound_decides fuel state hfacts
      have haligned : Aligned next attempt (report.active self attempt) := by
        refine Aligned.active ⟨?_, hattempt.trans aligned.ordinal,
          hretries.trans aligned.retries, aligned.counted⟩ report
        rw [hconfiguration]
        exact aligned.carries.withAttempt state.attempt
      have hcounts := haligned.retries_counted hreport clock.timed hshown
      have hsuccess := (haligned.carries.reset report.attemptEnd).isSuccessful
        hreport hshown
      have hdecided := haligned.carries.decided haligned.counted (by omega)
        report.attemptEnd report.instant
      rw [← hcounts] at hdecided
      have hdelay := next.delay_counted result (by
        have hbelow := ((report.active self attempt).resetRetries_countedBelow
          report.attemptEnd haligned.counted).1
        omega)
      generalize hended : (report.active self attempt).finishAttempt attempt
        report.attemptEnd report.instant = ended at hdecided
      cases hdecided with
      | finished denied =>
          rw [← hsuccess] at denied
          have hround := hround _ _ _
            (decideRetry_decides_finish (fuel + 1) hshown.1 denied)
          rw [machineDecisions_finished launching _ hended,
            Program.trace_iterate_inr hround, hsuccess, hattempt.trans
              aligned.ordinal, outcomeKind_attemptOutcome]
          rfl
      | @retried nextAttempt retry retryAt permitted successor ordinal
          deadline =>
          rw [← hsuccess] at permitted
          have hround := hround _ _ _
            (decideRetry_decides_retry fuel hshown.1 permitted)
          have hnext := haligned.retried hcounts (by omega) successor
            (by rw [ordinal, hcounts])
          have hticks : retryAt.instant.ticks - report.instant.ticks =
              (next.counted result).delay * 10_000 := by
            rw [deadline, hdelay, Nat.add_sub_cancel_left]
          rw [machineDecisions_retried launching hended, hticks] at clock
          rw [Program.trace_iterate_inl hround,
            machineDecisions_retried launching hended, hticks, hnext.ordinal]
          refine Agree.cons ?_ report [.next _, .wait _]
          have hclock := clock.2
          simp only [Nat.mul_div_cancel _ (by decide : 0 < 10_000)] at hclock
          rw [← AttemptWorld.after_now] at hclock
          exact ih hnext rfl (AttemptWorld.after_facts hfacts) hclock
            (by omega) (by omega) (by omega)
      | overflow permitted late =>
          rw [← hsuccess] at permitted
          have hround := hround _ _ _
            (decideRetry_decides_retry fuel hshown.1 permitted)
          rw [Program.trace_iterate_inl hround,
            machineDecisions_rejected launching hended]
          refine ⟨rfl, report, List.mem_cons_self, _, _, _, rfl, ?_⟩
          rw [hdelay]
          exact late

/-- The decisions of a supervisor that starts with an empty journal. -/
def decisions (fuel : Nat) (configuration : ExecutionConfiguration)
    (world : AttemptWorld) : List Decision :=
  (life fuel configuration [] world).history.filterMap decision?

theorem trace_run_new (fuel : Nat) (configuration : ExecutionConfiguration)
    (identity : SupervisorIdentity) (world : AttemptWorld) :
    (run fuel configuration ⟨none, 0, 0⟩ identity).trace AttemptWorld.answer
        decision? world =
      (Program.iterate (attemptRound fuel) fuel
        (initialState configuration ⟨none, 0, 0⟩ identity)).trace
        AttemptWorld.answer decision? world := by
  have hconsole : Decides (call .ensurePrivateConsole) world (.ok ()) []
      world := .call rfl rfl
  have hopened : Decides
      (call (.openEndingEvent configuration.managerSessionId)) world (.ok ())
      [] world := .call rfl rfl
  unfold run
  split
  · refine (Program.trace_bind hopened).trans ?_
    refine (Program.trace_bind (orFail_decides ())).trans ?_
    refine (Program.trace_bind hconsole).trans ?_
    exact Program.trace_bind (orFail_decides ())
  · refine (Program.trace_bind hconsole).trans ?_
    exact Program.trace_bind (orFail_decides ())

theorem decisions_eq (fuel : Nat) (configuration : ExecutionConfiguration)
    (world : AttemptWorld) :
    decisions fuel configuration world =
      (Program.iterate (attemptRound fuel) fuel
        (initialState configuration ⟨none, 0, 0⟩ ⟨"supervisor", 1⟩)).trace
        AttemptWorld.answer decision? world := by
  have hidentity : Decides (call .newSupervisorId) world "supervisor" []
      world := .call rfl rfl
  have hfinalized (result : AttemptResult) (last : AttemptWorld) :
      (Program.bind (fun finalized => (Program.orFail finalized).bind
        fun _ => Program.done (.ok result))
        (call .finalizeJournal)).trace AttemptWorld.answer decision? last =
          [] := rfl
  refine (Program.trace_bind hidentity).trans ?_
  rw [List.nil_append]
  exact (Program.trace_bind_quiet hfinalized).trans
    (trace_run_new fuel configuration _ world)

theorem initialState_aligned {configuration : ExecutionConfiguration}
    {self : ExecutionState} (fresh : self.Fresh)
    (carries : Carries configuration self)
    (first : configuration.attempt ≤ 1) (identity : SupervisorIdentity) :
    Aligned (initialState configuration ⟨none, 0, 0⟩ identity) Counter.first
      self := by
  have hattempt : max configuration.attempt 1 = 1 := Nat.max_eq_right first
  refine ⟨carries, hattempt, ?_, ?_⟩
  · simp [initialState, hattempt, fresh.lastRetry, ExecutionState.retryCount]
  · simp [ExecutionState.CountedBelow, fresh.lastRetry,
      ExecutionState.retryCount]

/-- The supervisor takes the decisions of the execution state machine. -/
theorem decisions_follow_machine {configuration : ExecutionConfiguration}
    {self : ExecutionState} (fresh : self.Fresh)
    (carries : Carries configuration self)
    (first : configuration.attempt ≤ 1) {world : AttemptWorld}
    {reports : List AttemptReport}
    (reported : List.Forall₂ Reports world.facts reports)
    (clock : ClockHolds world.now world.facts
      (machineDecisions self reports).1)
    (room : world.facts.length + 1 < 2 ^ 32) {fuel : Nat}
    (enough : world.facts.length ≤ fuel) :
    Agree reports (machineDecisions self reports)
      (decisions fuel configuration world) := by
  rw [decisions_eq]
  exact (initialState_aligned fresh carries first _).agree fresh.phase reported rfl clock (by
    rw [Nat.add_comm]
    exact room) enough enough

theorem toolConfiguration_carries (revision : IntentRevision)
    (policy : ServiceRestartPolicy) (wire : RestartOnWire (.service policy)) :
    Carries (applyRestart toolConfiguration (.service policy))
      (.sample (.serviceIntent revision) (.service policy)) := by
  have hcodes : (applyRestart toolConfiguration
      (.service policy)).successExitCodes = [0] := by
    cases policy with
    | never => rfl
    | onFailure policy | always policy =>
        simp only [applyRestart, applyServiceRetry]
        cases policy.limit <;> rfl
  have hkind : (applyRestart toolConfiguration (.service policy)).kind =
      .service := by
    cases policy with
    | never => rfl
    | onFailure policy | always policy =>
        simp only [applyRestart, applyServiceRetry]
        cases policy.limit <;> rfl
  refine ⟨⟨toolConfiguration, ⟨rfl, rfl, rfl, rfl, rfl, rfl⟩, rfl⟩, wire, ?_,
    rfl, ?_⟩
  · simp [hcodes, ExecutionState.sample]
  · simp [hkind, ExecutionState.IsJob, ExecutionState.sample]

/-- Retries at a constant pace, forgotten after `resetMs` milliseconds. -/
def steadyRetry (limit : NonZeroU32) (resetMs delayMs : Nat)
    (hreset : 0 < resetMs ∧ resetMs < 2 ^ 64)
    (hdelay : 0 < delayMs ∧ delayMs < 2 ^ 64) : ServiceRetryPolicy where
  limit := .finite limit
  resetAfter := ⟨.fromMillis resetMs hreset.2, by
    rw [Duration.nanos_fromMillis]
    omega⟩
  backoff :=
    { initial := ⟨.fromMillis delayMs hdelay.2, by
        rw [Duration.nanos_fromMillis]
        omega⟩
      multiplier := .one
      maximum := ⟨.fromMillis delayMs hdelay.2, by
        rw [Duration.nanos_fromMillis]
        omega⟩
      initial_le_maximum := le_rfl }

theorem steadyRetry_onWire (limit : NonZeroU32) (resetMs delayMs : Nat)
    (hreset : 0 < resetMs ∧ resetMs < 2 ^ 64)
    (hdelay : 0 < delayMs ∧ delayMs < 2 ^ 64) :
    RestartOnWire
      (.service (.always (steadyRetry limit resetMs delayMs hreset hdelay))) :=
  ⟨onWire_fromMillis _ hreset.2, onWire_fromMillis _ hdelay.2,
    onWire_fromMillis _ hdelay.2⟩

/-- The tool fails to launch, runs long enough and exits successfully. -/
theorem decisions_follow_machine_reset :
    let policy := ServiceRestartPolicy.always
      (steadyRetry ⟨1, by decide, by decide⟩ 1000 100 (by decide) (by decide))
    Agree
      [.launchFailed (.win32 ⟨2⟩) ⟨0, by decide⟩,
        .exited ⟨0⟩ (.fromMillis 1000 (by decide)) ⟨0, by decide⟩
          ⟨0, by decide⟩]
      (machineDecisions
        (.sample (.serviceIntent Counter.first) (.service policy))
        [.launchFailed (.win32 ⟨2⟩) ⟨0, by decide⟩,
          .exited ⟨0⟩ (.fromMillis 1000 (by decide)) ⟨0, by decide⟩
            ⟨0, by decide⟩])
      (decisions 2 (applyRestart toolConfiguration (.service policy))
        ⟨0, [.launchFailed .spawn, .exited 0 1000]⟩) :=
  decisions_follow_machine (ExecutionState.sample_service_fresh _ _)
    (toolConfiguration_carries _ _ (steadyRetry_onWire _ 1000 100 _ _))
    (by decide)
    (.cons (.launchFailed _ _ _) (.cons (.exited _ _ _ rfl) .nil))
    (by decide +kernel) (by decide) (by decide)

/--
A deadline beyond the boot clock, and a run beyond the wall clock: the machine
stops at the first, and only it forgets the retry after the second.
-/
theorem decisions_differ :
    (let policy := ServiceRestartPolicy.always
        (steadyRetry ⟨1, by decide, by decide⟩ 1000 (2 ^ 63) (by decide) (by decide));
      machineDecisions
          (.sample (.serviceIntent Counter.first) (.service policy))
          [.launchFailed (.win32 ⟨2⟩) ⟨0, by decide⟩] =
            ([], some .deadlineOverflow) ∧
        decisions 1 (applyRestart toolConfiguration (.service policy))
          ⟨0, [.launchFailed .spawn]⟩ =
            [.next 2, .wait (2 ^ 63 * 10_000)]) ∧
      (let policy := ServiceRestartPolicy.always
          (steadyRetry ⟨1, by decide, by decide⟩ 1000 100 (by decide) (by decide));
        machineDecisions
            (.sample (.serviceIntent Counter.first) (.service policy))
            [.launchFailed (.win32 ⟨2⟩) ⟨0, by decide⟩,
              .exited ⟨0⟩ (.fromMillis (2 ^ 63) (by decide)) ⟨0, by decide⟩
                ⟨0, by decide⟩] =
              ([.next 2, .wait 1_000_000, .next 3, .wait 1_000_000], none) ∧
          decisions 2 (applyRestart toolConfiguration (.service policy))
            ⟨0, [.launchFailed .spawn, .exited 0 (2 ^ 63)]⟩ =
              [.next 2, .wait 1_000_000, .finish 2 .completed]) := by
  decide +kernel

end Susm.Supervisor
