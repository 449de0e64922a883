import Susm.Domain.Execution.PhaseInvariant

/-!
# Stopping an execution

An accepted stop fixes its cause and its plan for the rest of the execution.
The process of an attempt that is still being launched escapes the stop when
the Job Object was terminated before the launch succeeded.
-/

namespace Susm.Domain

open Susm.Foundation
open Susm.Foundation.EventMachine

def ExecutionEffect.StopsProcess : ExecutionEffect → Prop
  | .sendCtrlBreak | .runStopCommand | .terminateJobObject => True
  | .launchAttempt _ | .scheduleRestart _ | .scheduleStopDeadline _
  | .publishTerminal _ => False

def ExecutionEffect.Restarts : ExecutionEffect → Prop
  | .launchAttempt _ | .scheduleRestart _ => True
  | .sendCtrlBreak | .runStopCommand | .scheduleStopDeadline _
  | .terminateJobObject | .publishTerminal _ => False

def ExecutionPhase.IsStopping : ExecutionPhase → Prop
  | .stopping .. => True
  | .launching _ | .running _ | .restartBackoff .. | .terminal _ => False

def StopPlan.DueAfter (plan : StopPlan) (requested : BootInstant)
    (deadline : StopDeadline) : Prop :=
  ∃ timeout, plan.timeout? = some timeout ∧
    requested.checkedAdd timeout = some deadline.instant

theorem StopPlan.DueAfter.unique {plan : StopPlan} {requested : BootInstant}
    {first second : StopDeadline} (hfirst : plan.DueAfter requested first)
    (hsecond : plan.DueAfter requested second) : first = second := by
  obtain ⟨timeout, htimeout, hfirst⟩ := hfirst
  obtain ⟨other, hother, hsecond⟩ := hsecond
  cases htimeout.symm.trans hother
  cases first
  cases second
  congr
  exact Option.some.inj (hfirst.symm.trans hsecond)

namespace ExecutionState

/-! ## A launch that completes after the stop was accepted -/

section LaunchRace

variable {self : ExecutionState} {attempt : AttemptNumber} {cause : StopCause}
  {plan : StopPlan}

theorem stopRequested_launching {instant : BootInstant}
    {result : Transition ExecutionState ExecutionEffect}
    (launching : self.phase = .launching attempt)
    (accepted : self.transition (.stopRequested cause plan instant) =
      .ok result) :
    (plan = .kill ∧
        result.state.phase = .stopping attempt .killing cause plan) ∨
      ∃ deadline, plan.DueAfter instant deadline ∧
        result.state.phase =
          .stopping attempt (.awaitingLaunch deadline) cause plan := by
  cases Move.of_transition accepted with
  | killed valid phase =>
      rw [launching] at phase
      rcases phase with h | h <;> cases h
      exact .inl ⟨rfl, rfl⟩
  | stopBegan valid allowed due began =>
      rw [launching] at began
      rcases began with ⟨h, rfl, rfl⟩ | ⟨h, -⟩ <;> cases h
      exact .inr ⟨_, ⟨_, allowed, due⟩, rfl⟩
  | backoffStopped valid phase =>
      rw [launching] at phase
      cases phase
  | stopEnded inPhase ended =>
      rw [launching] at inPhase
      cases inPhase
  | updated change reconsidered =>
      rcases change with ⟨_, h, -⟩ | ⟨_, h, -⟩ <;> cases h
  | unchanged phase =>
      rw [launching] at phase
      rcases phase with ⟨_, _, _, -, ⟨_, _, _, _, h⟩ | ⟨_, h⟩⟩ |
        ⟨_, h, -⟩ | ⟨_, h, -⟩ <;> cases h

theorem run_killing
    (killing : self.phase = .stopping attempt .killing cause plan)
    (events : List ExecutionEvent) :
    (run transition self events).state.phase =
        .stopping attempt .killing cause plan ∨
      ∃ outcome, (run transition self events).state.phase =
        .terminal outcome := by
  refine run_phases
    (fun phase _ => phase = .stopping attempt .killing cause plan ∨
      ∃ outcome, phase = .terminal outcome)
    ?_ [] (.inl killing) events
  rintro before emitted effects after (rfl | ⟨outcome, rfl⟩) step
  · rcases step.of_stopping with
      ⟨-, h⟩ | ⟨_, _, h, -⟩ | ⟨-, h⟩ | ⟨_, -, h⟩
    · exact .inl h
    · cases h
    · exact .inl h
    · exact .inr ⟨_, h⟩
  · exact .inr ⟨outcome, step.of_terminal.2⟩

theorem Move.of_awaitingLaunch {deadline : StopDeadline}
    {event : ExecutionEvent}
    {result : Transition ExecutionState ExecutionEffect}
    (move : Move self event result)
    (awaiting : self.phase =
      .stopping attempt (.awaitingLaunch deadline) cause plan) :
    (∃ instant, event = .launchSucceeded attempt instant) ∨
      event = .stopDeadlineReached deadline ∨
      result.state.phase = self.phase ∨
      ∃ outcome, result.state.phase = .terminal outcome := by
  have step := move.phaseStep
  cases move with
  | launchedIntoStop phase signal =>
      rw [awaiting] at phase
      cases phase
      exact .inl ⟨_, rfl⟩
  | stopExpired phase =>
      rw [awaiting] at phase
      rcases phase with h | h <;> cases h
      exact .inr (.inl rfl)
  | stopEnded inPhase ended =>
      rw [finishStop_eq]
      exact .inr (.inr (.inr ⟨_, rfl⟩))
  | updated change reconsidered =>
      have hphase := reconsiderBackoff_phaseStep reconsidered
      rcases reconsiderBackoff_cases reconsidered with
        ⟨_, _, _, _, _, -, ⟨-, rfl⟩ | ⟨-, rfl⟩⟩ | ⟨-, rfl⟩
      · rcases change with ⟨_, -, -, rfl⟩ | ⟨_, -, rfl⟩ <;>
          exact .inr (.inr (.inl rfl))
      · exact .inr (.inr (.inr ⟨_, rfl⟩))
      · rcases change with ⟨_, -, -, rfl⟩ | ⟨_, -, rfl⟩ <;>
          exact .inr (.inr (.inl rfl))
  | unchanged => exact .inr (.inr (.inl rfl))
  | jobLost => exact .inr (.inr (.inr ⟨_, rfl⟩))
  | backoffStopped =>
      rw [finishStop_eq]
      exact .inr (.inr (.inr ⟨_, rfl⟩))
  | launched phase | launchFailed phase | processExited phase
  | relaunched phase =>
      rw [awaiting] at phase
      cases phase
  | serviceLost phase | killed valid phase =>
      rw [awaiting] at phase
      exact absurd phase ExecutionPhase.not_active_stopping
  | stopBegan valid allowed due began =>
      rw [awaiting] at began
      rcases began with ⟨h, -⟩ | ⟨h, -⟩ <;> cases h

theorem deliver_awaitingLaunch {deadline : StopDeadline}
    {event : ExecutionEvent}
    (awaiting : self.phase =
      .stopping attempt (.awaitingLaunch deadline) cause plan)
    (pending : ∀ instant, event ≠ .launchSucceeded attempt instant) :
    ((deliver transition self event).state.phase =
          .stopping attempt (.awaitingLaunch deadline) cause plan ∧
        event ≠ .stopDeadlineReached deadline) ∨
      ((deliver transition self event).state.phase =
          .stopping attempt .killing cause plan ∧
        event = .stopDeadlineReached deadline) ∨
      ∃ outcome, (deliver transition self event).state.phase =
        .terminal outcome := by
  by_cases hevent : event = .stopDeadlineReached deadline
  · subst hevent
    have hstep : self.transition (.stopDeadlineReached deadline) =
        .ok (self.kill attempt cause plan) := by
      simp [transition, stopDeadlineReached, awaiting]
    rw [deliver_ok hstep]
    exact .inr (.inl ⟨rfl, rfl⟩)
  cases hstep : self.transition event with
  | error error =>
      rw [deliver_error hstep]
      exact .inl ⟨awaiting, hevent⟩
  | ok result =>
      rw [deliver_ok hstep]
      rcases (Move.of_transition hstep).of_awaitingLaunch awaiting with
        ⟨instant, h⟩ | h | h | h
      · exact absurd h (pending instant)
      · exact absurd h hevent
      · exact .inl ⟨h.trans awaiting, hevent⟩
      · exact .inr (.inr h)

/--
Before the launch result, the deadline alone decides between waiting for the
launch and having terminated the Job Object.
-/
theorem run_awaitingLaunch {deadline : StopDeadline}
    {events : List ExecutionEvent}
    (awaiting : self.phase =
      .stopping attempt (.awaitingLaunch deadline) cause plan)
    (pending : ∀ instant, .launchSucceeded attempt instant ∉ events) :
    ((run transition self events).state.phase =
          .stopping attempt (.awaitingLaunch deadline) cause plan ∧
        .stopDeadlineReached deadline ∉ events) ∨
      ((run transition self events).state.phase =
          .stopping attempt .killing cause plan ∧
        .stopDeadlineReached deadline ∈ events) ∨
      ∃ outcome, (run transition self events).state.phase =
        .terminal outcome := by
  induction events generalizing self with
  | nil => exact .inl ⟨awaiting, List.not_mem_nil⟩
  | cons event events ih =>
      have hevent : ∀ instant, event ≠ .launchSucceeded attempt instant := by
        rintro instant rfl
        exact pending instant List.mem_cons_self
      rw [run_cons_state]
      rcases deliver_awaitingLaunch awaiting hevent with
        ⟨hphase, hother⟩ | ⟨hphase, rfl⟩ | ⟨outcome, hphase⟩
      · have hrest : ∀ instant, .launchSucceeded attempt instant ∉ events :=
          fun instant hmem =>
            pending instant (List.mem_cons_of_mem event hmem)
        simpa [List.mem_cons, hother, Ne.symm hother] using ih hphase hrest
      · rcases run_killing hphase events with h | h
        · exact .inr (.inl ⟨h, List.mem_cons_self⟩)
        · exact .inr (.inr h)
      · exact .inr (.inr ⟨outcome, (run_terminal hphase events).1⟩)

def StopsLaunched (state : ExecutionState) (attempt : AttemptNumber)
    (instant : BootInstant) : Prop :=
  ∃ result, state.transition (.launchSucceeded attempt instant) = .ok result ∧
    ∃ effect ∈ result.effects, effect.StopsProcess

theorem stopsLaunched_awaitingLaunch {deadline : StopDeadline}
    {instant : BootInstant} (graceful : plan ≠ .kill)
    (awaiting : self.phase =
      .stopping attempt (.awaitingLaunch deadline) cause plan) :
    self.StopsLaunched attempt instant := by
  unfold StopsLaunched transition launchSucceeded
  simp only [awaiting, if_true]
  cases plan with
  | kill => exact absurd rfl graceful
  | ctrlBreak timeout =>
      exact ⟨_, rfl, .sendCtrlBreak, List.mem_singleton_self _, trivial⟩
  | command timeout =>
      exact ⟨_, rfl, .runStopCommand, List.mem_singleton_self _, trivial⟩

theorem launchSucceeded_killing {instant : BootInstant}
    (killing : self.phase = .stopping attempt .killing cause plan) :
    self.transition (.launchSucceeded attempt instant) =
      .error .unexpectedEvent := by
  simp [transition, launchSucceeded, killing]

theorem not_stopsLaunched_killing {instant : BootInstant}
    (killing : self.phase = .stopping attempt .killing cause plan) :
    ¬ self.StopsLaunched attempt instant := by
  rintro ⟨result, haccepted, -⟩
  rw [launchSucceeded_killing killing] at haccepted
  cases haccepted

/--
A launch that completes after its stop was accepted is stopped exactly when
the plan was not an immediate kill and the stop deadline was not reported
before the launch result.
-/
theorem stopsLaunched_iff {requested launchedAt : BootInstant}
    {result : Transition ExecutionState ExecutionEffect}
    (later : List ExecutionEvent)
    (launching : self.phase = .launching attempt)
    (accepted : self.transition (.stopRequested cause plan requested) =
      .ok result)
    (pending : ∀ instant, .launchSucceeded attempt instant ∉ later)
    (stopping : ∃ stop current currentPlan,
      (run transition result.state later).state.phase =
        .stopping attempt stop current currentPlan) :
    (run transition result.state later).state.StopsLaunched attempt
        launchedAt ↔
      plan ≠ .kill ∧
        ∀ deadline, plan.DueAfter requested deadline →
          .stopDeadlineReached deadline ∉ later := by
  obtain ⟨stop, current, currentPlan, hstopping⟩ := stopping
  have hlive : ∀ outcome,
      (run transition result.state later).state.phase ≠ .terminal outcome := by
    intro outcome h
    rw [hstopping] at h
    cases h
  rcases stopRequested_launching launching accepted with
    ⟨rfl, hphase⟩ | ⟨deadline, hdue, hphase⟩
  · rcases run_killing hphase later with h | ⟨outcome, h⟩
    · simp [not_stopsLaunched_killing h]
    · exact absurd h (hlive outcome)
  · have hgraceful : plan ≠ .kill := by
      rintro rfl
      obtain ⟨timeout, htimeout, -⟩ := hdue
      cases htimeout
    rcases run_awaitingLaunch hphase pending with
      ⟨h, hearly⟩ | ⟨h, hreached⟩ | ⟨outcome, h⟩
    · refine iff_of_true (stopsLaunched_awaitingLaunch hgraceful h)
        ⟨hgraceful, ?_⟩
      intro other hother
      rwa [hother.unique hdue]
    · refine iff_of_false (not_stopsLaunched_killing h) ?_
      rintro ⟨-, hearly⟩
      exact hearly deadline hdue hreached
    · exact absurd h (hlive outcome)

end LaunchRace

/-- One second of grace for a process that answers the console event. -/
def samplePlan : StopPlan := .ctrlBreak .second

def sampleService : ExecutionState :=
  sample (.serviceIntent Counter.first) (.service .never)

theorem samplePlan_accepted :
    sampleService.transition
        (.stopRequested (.service .stop) samplePlan ⟨0, by decide⟩) =
      .ok (.new
        { sampleService with
          phase := .stopping Counter.first
            (.awaitingLaunch ⟨⟨10_000_000, by decide⟩⟩) (.service .stop)
            samplePlan }
        [.scheduleStopDeadline ⟨⟨10_000_000, by decide⟩⟩]) := by
  have hdue : stopDeadline ⟨0, by decide⟩ ⟨1_000_000_000, by decide⟩ =
      .ok ⟨⟨10_000_000, by decide⟩⟩ :=
    stopDeadline_eq_ok_iff.mpr
      (BootInstant.checkedAdd_eq_some_iff.mpr (by decide))
  exact bind_eq_ok_iff.mpr ⟨(), rfl, bind_eq_ok_iff.mpr ⟨_, hdue, rfl⟩⟩

theorem stopsLaunched_iff_graceful :
    ∃ result,
      sampleService.transition
          (.stopRequested (.service .stop) samplePlan ⟨0, by decide⟩) =
        .ok result ∧
      (result.state.StopsLaunched Counter.first ⟨7, by decide⟩ ↔
        samplePlan ≠ .kill ∧
          ∀ deadline, samplePlan.DueAfter ⟨0, by decide⟩ deadline →
            .stopDeadlineReached deadline ∉ ([] : List ExecutionEvent)) :=
  ⟨_, samplePlan_accepted, stopsLaunched_iff [] rfl samplePlan_accepted
    (fun _ => List.not_mem_nil) ⟨_, _, _, rfl⟩⟩

/-- A stop with the kill plan loses the process that is being launched. -/
theorem kill_escaped :
    sampleService.Fresh ∧
      ∃ result,
        sampleService.transition
            (.stopRequested (.service .stop) .kill ⟨0, by decide⟩) =
          .ok result ∧
        result.state.phase =
          .stopping Counter.first .killing (.service .stop) .kill ∧
        result.state.transition
            (.launchSucceeded Counter.first ⟨1, by decide⟩) =
          .error .unexpectedEvent ∧
        ¬ result.state.StopsLaunched Counter.first ⟨1, by decide⟩ :=
  ⟨sample_service_fresh _ _, _, rfl, rfl, rfl, not_stopsLaunched_killing rfl⟩

/-! ## The intent of an accepted stop -/

def stopDeadlines (effects : List ExecutionEffect) : List StopDeadline :=
  effects.filterMap fun
    | .scheduleStopDeadline deadline => some deadline
    | _ => none

theorem stopDeadlines_append (first second : List ExecutionEffect) :
    stopDeadlines (first ++ second) =
      stopDeadlines first ++ stopDeadlines second :=
  List.filterMap_append

/-- A held stop deadline is the only one ever announced. -/
def DeadlineAnnounced (phase : ExecutionPhase)
    (emitted : List ExecutionEffect) : Prop :=
  match phase with
  | .launching _ | .running _ | .restartBackoff .. => stopDeadlines emitted = []
  | .stopping _ stop _ _ =>
      ∀ deadline, stop.deadline? = some deadline →
        stopDeadlines emitted = [deadline]
  | .terminal _ => True

theorem DeadlineAnnounced.active {phase : ExecutionPhase}
    {attempt : AttemptNumber} {emitted : List ExecutionEffect}
    (held : DeadlineAnnounced phase emitted) (active : phase.Active attempt) :
    stopDeadlines emitted = [] := by
  rcases active with rfl | rfl <;> exact held

theorem DeadlineAnnounced.step {before after : ExecutionPhase}
    {emitted effects : List ExecutionEffect}
    (held : DeadlineAnnounced before emitted)
    (step : PhaseStep before effects after) :
    DeadlineAnnounced after (emitted ++ effects) := by
  cases step with
  | stay => rwa [List.append_nil]
  | launched => rwa [List.append_nil]
  | backedOff active =>
      change stopDeadlines _ = []
      rw [stopDeadlines_append, held.active active]
      rfl
  | relaunched =>
      change stopDeadlines _ = []
      rw [stopDeadlines_append, show stopDeadlines emitted = [] from held]
      rfl
  | stopAwaitingLaunch attempt deadline =>
      rintro other ⟨⟩
      rw [stopDeadlines_append, show stopDeadlines emitted = [] from held]
      rfl
  | stopSignalled signal attempt deadline =>
      rintro other ⟨⟩
      rw [stopDeadlines_append, show stopDeadlines emitted = [] from held]
      rcases StopPlan.signal_eq_some signal with rfl | rfl <;> rfl
  | launchedIntoStop signal attempt deadline =>
      rintro other ⟨⟩
      rw [stopDeadlines_append, held deadline rfl]
      rcases StopPlan.signal_eq_some signal with rfl | rfl <;> rfl
  | stopKilled | stopExpired =>
      rintro other ⟨⟩
  | attemptFinished | backoffFinished | stopFinished => trivial

theorem DeadlineAnnounced.run {self : ExecutionState}
    {emitted : List ExecutionEffect}
    (held : DeadlineAnnounced self.phase emitted)
    (events : List ExecutionEvent) :
    DeadlineAnnounced (run transition self events).state.phase
      (emitted ++ (run transition self events).effects) :=
  run_phases DeadlineAnnounced (fun _ _ _ _ held step => held.step step)
    emitted held events

theorem Fresh.deadlineAnnounced {self : ExecutionState} (fresh : self.Fresh) :
    DeadlineAnnounced self.phase [] := by
  rw [fresh.phase]
  rfl

def UnderStop (cause : StopCause) (plan : StopPlan) (requested : BootInstant)
    (phase : ExecutionPhase) : Prop :=
  (∃ attempt stop, phase = .stopping attempt stop cause plan ∧
      ∀ deadline, stop.deadline? = some deadline →
        plan.DueAfter requested deadline) ∨
    ∃ forced, phase = .terminal (cause.outcome forced)

section UnderStop

variable {cause : StopCause} {plan : StopPlan} {requested : BootInstant}

theorem UnderStop.step {before after : ExecutionPhase}
    {effects : List ExecutionEffect}
    (under : UnderStop cause plan requested before)
    (step : PhaseStep before effects after) :
    UnderStop cause plan requested after ∧
      ∀ effect ∈ effects, ¬ effect.Restarts := by
  rcases under with ⟨attempt, stop, rfl, hdue⟩ | ⟨forced, rfl⟩
  · rcases step.of_stopping with
      ⟨rfl, rfl⟩ | ⟨deadline, effect, rfl, hsignal, rfl, rfl⟩ | ⟨rfl, rfl⟩ |
      ⟨forced, rfl, rfl⟩
    · exact ⟨.inl ⟨attempt, stop, rfl, hdue⟩, by simp⟩
    · refine ⟨.inl ⟨attempt, _, rfl, hdue⟩, ?_⟩
      rcases StopPlan.signal_eq_some hsignal with rfl | rfl <;>
        simp [ExecutionEffect.Restarts]
    · exact ⟨.inl ⟨attempt, _, rfl, fun _ h => by cases h⟩,
        by simp [ExecutionEffect.Restarts]⟩
    · exact ⟨.inr ⟨forced, rfl⟩, by simp [ExecutionEffect.Restarts]⟩
  · obtain ⟨rfl, rfl⟩ := step.of_terminal
    exact ⟨.inr ⟨forced, rfl⟩, by simp⟩

theorem UnderStop.run {self : ExecutionState}
    (under : UnderStop cause plan requested self.phase)
    (events : List ExecutionEvent) :
    UnderStop cause plan requested (run transition self events).state.phase ∧
      ∀ effect ∈ (run transition self events).effects, ¬ effect.Restarts := by
  refine run_phases
    (fun phase emitted => UnderStop cause plan requested phase ∧
      ∀ effect ∈ emitted, ¬ effect.Restarts)
    ?_ [] ⟨under, by simp⟩ events
  rintro before emitted effects after ⟨held, hquiet⟩ step
  obtain ⟨hafter, hnew⟩ := held.step step
  refine ⟨hafter, ?_⟩
  intro effect hmem
  rcases List.mem_append.mp hmem with h | h
  · exact hquiet effect h
  · exact hnew effect h

/-- A stop that enters `Stopping` takes its cause, plan and deadline. -/
theorem stopRequested_entered {self : ExecutionState}
    {result : Transition ExecutionState ExecutionEffect}
    (accepted : self.transition (.stopRequested cause plan requested) =
      .ok result)
    (before : ¬ self.phase.IsStopping) (after : result.state.phase.IsStopping) :
    self.validateStopCause cause = .ok () ∧
      UnderStop cause plan requested result.state.phase ∧
      ∀ effect ∈ result.effects, ¬ effect.Restarts := by
  cases Move.of_transition accepted with
  | killed valid phase =>
      exact ⟨valid, .inl ⟨_, _, rfl, fun _ h => by cases h⟩,
        by simp [kill, Transition.new, ExecutionEffect.Restarts]⟩
  | stopBegan valid allowed due began =>
      rcases began with ⟨-, rfl, rfl⟩ | ⟨-, rfl, effect, signal, rfl⟩
      · refine ⟨valid, .inl ⟨_, _, rfl, ?_⟩,
          by simp [Transition.new, ExecutionEffect.Restarts]⟩
        rintro deadline ⟨⟩
        exact ⟨_, allowed, due⟩
      · refine ⟨valid, .inl ⟨_, _, rfl, ?_⟩, ?_⟩
        · rintro deadline ⟨⟩
          exact ⟨_, allowed, due⟩
        · rcases StopPlan.signal_eq_some signal with rfl | rfl <;>
            simp [Transition.new, ExecutionEffect.Restarts]
  | backoffStopped valid phase =>
      rw [finishStop_eq] at after
      exact after.elim
  | stopEnded inPhase ended =>
      rw [finishStop_eq] at after
      exact after.elim
  | updated change reconsidered =>
      rcases change with ⟨_, h, -⟩ | ⟨_, h, -⟩ <;> cases h
  | unchanged phase => exact absurd after before

end UnderStop

theorem run_origin (self : ExecutionState) (events : List ExecutionEvent) :
    (run transition self events).state.origin = self.origin :=
  run_invariant (fun _ => True)
    (fun (state : ExecutionState) => state.origin = self.origin)
    (fun _ _ _ held _ hstep => (Move.of_transition hstep).origin.trans held)
    rfl (fun _ _ => trivial)

theorem validateStopCause_outcome {self : ExecutionState} {cause : StopCause}
    (valid : self.validateStopCause cause = .ok ()) (forced : Bool) :
    (∃ revision serviceCause, self.origin = .serviceIntent revision ∧
        cause = .service serviceCause ∧
        cause.outcome forced = .stopped serviceCause forced) ∨
      ∃ origin jobCause, self.origin = .job origin ∧
        cause = .job jobCause ∧
        cause.outcome forced = .cancelled jobCause forced := by
  unfold validateStopCause at valid
  cases horigin : self.origin <;> cases cause <;>
    simp only [horigin, reduceCtorEq] at valid
  · exact .inl ⟨_, _, rfl, rfl, rfl⟩
  · exact .inr ⟨_, _, rfl, rfl, rfl⟩

/--
Once a stop moved a fresh execution's run into `Stopping`, every later state
is under that stop or ended by it, no attempt follows, and a deadline that is
still held is the only one the whole run ever announced.
-/
theorem Fresh.stop_intent_kept {self : ExecutionState} (fresh : self.Fresh)
    (before : List ExecutionEvent) {cause : StopCause} {plan : StopPlan}
    {requested : BootInstant}
    {result : Transition ExecutionState ExecutionEffect}
    (accepted :
      (run transition self before).state.transition
          (.stopRequested cause plan requested) = .ok result)
    (unstopped : ¬ (run transition self before).state.phase.IsStopping)
    (entered : result.state.phase.IsStopping)
    (later : List ExecutionEvent) :
    (∀ attempt stop current currentPlan,
        (run transition result.state later).state.phase =
          .stopping attempt stop current currentPlan →
        current = cause ∧ currentPlan = plan ∧
          ∀ deadline, stop.deadline? = some deadline →
            plan.DueAfter requested deadline ∧
              stopDeadlines
                  ((run transition self before).effects ++ result.effects ++
                    (run transition result.state later).effects) =
                [deadline]) ∧
      (∀ effect ∈ result.effects ++ (run transition result.state later).effects,
        ¬ effect.Restarts) ∧
      ((run transition result.state later).state.phase.IsStopping ∨
        ∃ outcome,
          (run transition result.state later).state.phase =
              .terminal outcome ∧
            ((∃ revision serviceCause forced,
                self.origin = .serviceIntent revision ∧
                  cause = .service serviceCause ∧
                  outcome = .stopped serviceCause forced) ∨
              ∃ origin jobCause forced, self.origin = .job origin ∧
                cause = .job jobCause ∧
                outcome = .cancelled jobCause forced)) := by
  obtain ⟨valid, under, hquiet⟩ :=
    stopRequested_entered accepted unstopped entered
  obtain ⟨hfinal, hlater⟩ := under.run later
  have announced :=
    ((fresh.deadlineAnnounced.run before).step
      (Move.of_transition accepted).phaseStep).run later
  refine ⟨?_, ?_, ?_⟩
  · intro attempt stop current currentPlan hstopping
    rw [hstopping] at hfinal announced
    rcases hfinal with ⟨_, _, h, hdue⟩ | ⟨forced, h⟩ <;> cases h
    exact ⟨rfl, rfl, fun deadline h => ⟨hdue deadline h, announced deadline h⟩⟩
  · intro effect hmem
    rcases List.mem_append.mp hmem with h | h
    · exact hquiet effect h
    · exact hlater effect h
  · rcases hfinal with ⟨attempt, stop, h, -⟩ | ⟨forced, h⟩
    · rw [h]
      exact .inl trivial
    · refine .inr ⟨_, h, ?_⟩
      have horigin := run_origin self before
      rcases validateStopCause_outcome valid forced with
        ⟨revision, serviceCause, hservice, rfl, houtcome⟩ |
        ⟨origin, jobCause, hjob, rfl, houtcome⟩
      · exact .inl ⟨revision, serviceCause, forced,
          horigin.symm.trans hservice, rfl, houtcome⟩
      · exact .inr ⟨origin, jobCause, forced, horigin.symm.trans hjob, rfl,
          houtcome⟩

/-- A launching service that is stopped with one second of grace. -/
theorem stop_intent_kept_graceful :
    ∃ result,
      sampleService.transition
          (.stopRequested (.service .stop) samplePlan ⟨0, by decide⟩) =
        .ok result ∧
      ∀ effect ∈ result.effects ++
          (run transition result.state
            [.launchSucceeded Counter.first ⟨7, by decide⟩,
              .processExited Counter.first ⟨1⟩ .zero ⟨9, by decide⟩]).effects,
        ¬ effect.Restarts :=
  ⟨_, samplePlan_accepted,
    (Fresh.stop_intent_kept (sample_service_fresh _ _) [] samplePlan_accepted
      (fun stopping => stopping) trivial _).2.1⟩

end ExecutionState

end Susm.Domain
