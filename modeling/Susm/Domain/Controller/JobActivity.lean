import Susm.Domain.Controller

/-!
# Job activity

What the accepted events of a job say about its activity.  The executions that
have been started are the terminated ones and the active one; an execution is
followed by a replacement exactly when the last word about it was a rerun.
-/

namespace Susm.Domain

open Susm.Foundation
open Susm.Foundation.EventMachine

namespace JobActivity

def execution? : JobActivity → Option ExecutionId
  | .idle => none
  | .active executionId _ => some executionId

/-- What is to happen when the execution has terminated. -/
def after : JobActivity → AfterActive
  | .idle => .nothing
  | .active _ after => after

end JobActivity

inductive ActivityMove : JobActivity → JobActivityEvent →
    List JobActivityEffect → JobActivity → Prop where
  | started {executionId : ExecutionId} {origin : JobExecutionOrigin} :
      ActivityMove .idle (.startRequested executionId origin)
        [.startExecution executionId origin] (.active executionId .nothing)
  | rerunStarted {executionId : ExecutionId} :
      ActivityMove .idle (.rerunRequested executionId)
        [.startExecution executionId .manual] (.active executionId .nothing)
  | startKept {current executionId : ExecutionId} {after : AfterActive}
      {origin : JobExecutionOrigin} :
      ActivityMove (.active current after) (.startRequested executionId origin)
        [] (.active current after)
  | rerunCancels {current executionId : ExecutionId} :
      ActivityMove (.active current .nothing) (.rerunRequested executionId)
        [.cancelExecution current .rerun] (.active current .rerun)
  | rerunKept {current executionId : ExecutionId} :
      ActivityMove (.active current .rerun) (.rerunRequested executionId) []
        (.active current .rerun)
  | cancelled {current : ExecutionId} {after : AfterActive} :
      ActivityMove (.active current after) .cancelRequested
        [.cancelExecution current .cancel] (.active current .nothing)
  | cancelKept : ActivityMove .idle .cancelRequested [] .idle
  | terminated {current : ExecutionId} {outcome : ExecutionOutcome} :
      ActivityMove (.active current .nothing)
        (.executionTerminated current outcome .notRequested) [] .idle
  | skipped {current : ExecutionId} {outcome : ExecutionOutcome} :
      ActivityMove (.active current .rerun)
        (.executionTerminated current outcome .definitionMissing)
        [.rerunSkippedDefinitionMissing] .idle
  | replaced {current next : ExecutionId} {outcome : ExecutionOutcome} :
      ActivityMove (.active current .rerun)
        (.executionTerminated current outcome (.start next))
        [.startExecution next (.rerun current)] (.active next .nothing)

namespace JobState

theorem ActivityMove.of_transition {state : JobState}
    {event : JobActivityEvent}
    {reaction : Transition JobState JobActivityEffect}
    (h : state.transition event = .ok reaction) :
    ActivityMove state.activity event reaction.effects
      reaction.state.activity := by
  obtain ⟨definition, enablement, activity⟩ := state
  cases event with
  | startRequested executionId origin =>
      simp only [transition, startRequested] at h
      split at h
      · cases h
      split at h <;> cases h
      · exact .started
      · exact .startKept
  | rerunRequested executionId =>
      simp only [transition, rerunRequested] at h
      split at h
      · cases h
      split at h <;> cases h
      · exact .rerunStarted
      · exact .rerunCancels
      · exact .rerunKept
  | cancelRequested =>
      simp only [transition, cancelRequested] at h
      split at h <;> cases h
      · exact .cancelKept
      · exact .cancelled
  | executionTerminated executionId outcome rerun =>
      simp only [transition, executionTerminated] at h
      split at h
      · split at h
        · subst_vars
          split at h <;> cases h
          · exact .terminated
          · exact .skipped
          · exact .replaced
        · cases h
      · cases h

end JobState

/-! ## Histories -/

inductive JobInput where
  | definition (definition : DefinitionState)
  | event (event : JobActivityEvent)
  deriving DecidableEq

abbrev JobHistory := List (Accepted JobState JobInput JobActivityEffect)

namespace JobInput

def termination? : JobInput → Option ExecutionId
  | .event (.executionTerminated executionId ..) => some executionId
  | _ => none

def wish? : JobInput → Option AfterActive
  | .event (.rerunRequested _) => some .rerun
  | .event .cancelRequested => some .nothing
  | _ => none

end JobInput

namespace JobState

def step (state : JobState) : JobInput → JobResult
  | .definition definition =>
      .ok (.withoutEffects { state with definition := definition })
  | .event event => state.transition event

theorem step_move {state : JobState} {input : JobInput}
    {reaction : Transition JobState JobActivityEffect}
    (h : state.step input = .ok reaction) :
    (∃ definition, input = .definition definition ∧ reaction.effects = [] ∧
        reaction.state.activity = state.activity) ∨
      ∃ event, input = .event event ∧ ActivityMove state.activity event
        reaction.effects reaction.state.activity := by
  cases input with
  | definition definition =>
      cases h
      exact .inl ⟨definition, rfl, rfl, rfl⟩
  | event event => exact .inr ⟨event, rfl, ActivityMove.of_transition h⟩

end JobState

namespace JobHistory

def start? : JobActivityEffect → Option (ExecutionId × JobExecutionOrigin)
  | .startExecution executionId origin => some (executionId, origin)
  | _ => none

def starts (effects : List JobActivityEffect) :
    List (ExecutionId × JobExecutionOrigin) :=
  effects.filterMap start?

def effects (history : JobHistory) : List JobActivityEffect :=
  history.flatMap fun entry => entry.reaction.effects

def terminations (history : JobHistory) : List ExecutionId :=
  history.filterMap fun entry => entry.event.termination?

/-- The accepted events that came after the last execution was started. -/
def sinceStart (history : JobHistory) : JobHistory :=
  (history.reverse.takeWhile fun entry =>
    (starts entry.reaction.effects).isEmpty).reverse

/-- The last of the reruns and cancellations since then. -/
def lastWish (history : JobHistory) : Option AfterActive :=
  (history.sinceStart.filterMap fun entry => entry.event.wish?).getLast?

def replacement (executionId : ExecutionId) : Option AfterActive →
    RerunDisposition → List (ExecutionId × JobExecutionOrigin)
  | some .rerun, .start next => [(next, .rerun executionId)]
  | _, _ => []

variable {history : JobHistory}
  {entry : Accepted JobState JobInput JobActivityEffect}

theorem starts_concat :
    starts (effects (history ++ [entry])) =
      starts history.effects ++ starts entry.reaction.effects := by
  simp [effects, starts, List.flatMap_append, List.filterMap_append]

theorem terminations_concat :
    terminations (history ++ [entry]) =
      history.terminations ++ entry.event.termination?.toList := by
  simp [terminations, List.filterMap_append, List.filterMap_cons]
  cases entry.event.termination? <;> rfl

theorem lastWish_concat :
    lastWish (history ++ [entry]) =
      if (starts entry.reaction.effects).isEmpty then
        entry.event.wish?.or history.lastWish
      else none := by
  unfold lastWish sinceStart
  rw [List.reverse_append, List.reverse_singleton, List.singleton_append,
    List.takeWhile_cons]
  split
  · rw [List.reverse_cons, List.filterMap_append, List.getLast?_append]
    congr 1
    cases h : entry.event.wish? <;> simp [h]
  · rfl

end JobHistory

open JobHistory

namespace ActivityMove

variable {activity after : JobActivity} {event : JobActivityEvent}
  {effects : List JobActivityEffect}

theorem live (move : ActivityMove activity event effects after) :
    activity.execution?.toList ++ (starts effects).map Prod.fst =
      (JobInput.event event).termination?.toList ++
        after.execution?.toList := by
  cases move <;> rfl

theorem wish (move : ActivityMove activity event effects after)
    (active : after.execution?.isSome) :
    after.after =
      if (starts effects).isEmpty then
        ((JobInput.event event).wish?).getD activity.after
      else .nothing := by
  cases move with
  | cancelKept | terminated | skipped => cases active
  | _ => rfl

theorem ended {executionId : ExecutionId} {outcome : ExecutionOutcome}
    {rerun : RerunDisposition}
    (move : ActivityMove activity (.executionTerminated executionId outcome
      rerun) effects after) :
    activity.execution? = some executionId ∧
      starts effects =
        replacement executionId (some activity.after) rerun := by
  cases move <;> exact ⟨rfl, rfl⟩

theorem quiet (move : ActivityMove activity event effects after)
    (active : activity.execution?.isSome)
    (alive : (JobInput.event event).termination? = none) :
    after.execution? = activity.execution? ∧ starts effects = [] := by
  cases move with
  | started | rerunStarted | cancelKept => cases active
  | terminated | skipped | replaced => cases alive
  | _ => exact ⟨rfl, rfl⟩

theorem single (move : ActivityMove activity event effects after) :
    (starts effects).length ≤ 1 := by
  cases move <;> simp [starts, start?, List.filterMap_cons]

theorem active_before (move : ActivityMove activity event effects after)
    (active : after.execution?.isSome) (unstarted : starts effects = []) :
    activity.execution?.isSome := by
  cases move with
  | started | rerunStarted | replaced => cases unstarted
  | cancelKept | terminated | skipped => cases active
  | _ => rfl

end ActivityMove

namespace JobState

/-- The started executions agree with the activity, which remembers the last
wish about the active one. -/
structure ActivityHolds (state : JobState) (history : JobHistory) : Prop where
  live : (starts history.effects).map Prod.fst =
    history.terminations ++ state.activity.execution?.toList
  wish : state.activity.execution?.isSome →
    state.activity.after = history.lastWish.getD .nothing

variable {state : JobState} {history : JobHistory} {input : JobInput}
  {reaction : Transition JobState JobActivityEffect}

theorem ActivityHolds.step (held : ActivityHolds state history)
    (h : state.step input = .ok reaction) :
    ActivityHolds reaction.state (history ++ [⟨state, input, reaction⟩]) := by
  rcases step_move h with ⟨definition, rfl, heffects, hsame⟩ |
    ⟨event, rfl, move⟩
  · constructor
    · rw [starts_concat, terminations_concat, hsame, heffects]
      simpa [starts, JobInput.termination?] using held.live
    · rw [lastWish_concat, hsame, heffects]
      exact held.wish
  · constructor
    · rw [starts_concat, terminations_concat, List.map_append, held.live,
        List.append_assoc, List.append_assoc, move.live]
    · intro active
      rw [lastWish_concat, move.wish active]
      split
      · rename_i unstarted
        have before := move.active_before active (List.isEmpty_iff.mp unstarted)
        cases (JobInput.event event).wish? with
        | some wish => rfl
        | none => exact held.wish before
      · rfl

/-! ## Runs -/

theorem run_activityHolds {state : JobState} (idle : state.activity = .idle)
    (events : List JobInput) :
    ActivityHolds (run JobState.step state events).state
      (accepted JobState.step state events) := by
  have start : ActivityHolds state [] := by
    constructor
    · rw [idle]
      rfl
    · intro active
      rw [idle] at active
      cases active
  exact accepted_history ActivityHolds
    (fun _ _ _ _ held h => held.step h) [] start events

def ActiveUntil (executionId : ExecutionId) (state : JobState)
    (history : JobHistory) : Prop :=
  history.terminations = [] →
    state.activity.execution? = some executionId ∧
      starts history.effects = []

theorem ActiveUntil.step {executionId : ExecutionId}
    (held : ActiveUntil executionId state history)
    (h : state.step input = .ok reaction) :
    ActiveUntil executionId reaction.state
      (history ++ [⟨state, input, reaction⟩]) := by
  intro alive
  rw [terminations_concat, List.append_eq_nil_iff,
    Option.toList_eq_nil_iff] at alive
  obtain ⟨hactive, hnone⟩ := held alive.1
  rw [starts_concat, hnone, List.nil_append]
  rcases step_move h with ⟨definition, rfl, heffects, hsame⟩ |
    ⟨event, rfl, move⟩
  · rw [hsame, heffects]
    exact ⟨hactive, rfl⟩
  · obtain ⟨hsame, hquiet⟩ := move.quiet (by rw [hactive]; rfl) alive.2
    exact ⟨hsame.trans hactive, hquiet⟩

theorem run_active {state : JobState} {executionId : ExecutionId}
    (active : state.activity.execution? = some executionId)
    (events : List JobInput)
    (alive : terminations (accepted JobState.step state events) = []) :
    starts (run JobState.step state events).effects = [] := by
  rw [run_effects_eq]
  exact (accepted_history (ActiveUntil executionId)
    (fun _ _ _ _ held h => held.step h) [] (fun _ => ⟨active, rfl⟩) events
    alive).2

theorem deliver_starts (state : JobState) (input : JobInput) :
    (starts (deliver JobState.step state input).effects).length ≤ 1 := by
  cases h : state.step input with
  | error error => simp [deliver_error h, starts]
  | ok reaction =>
      rw [deliver_ok h]
      rcases step_move h with ⟨definition, rfl, heffects, -⟩ | ⟨event, rfl, move⟩
      · simp [heffects, starts]
      · exact move.single

/--
What the events of a job say about its activity: the started executions are the
terminated ones and the active one, which is the latest; while an execution is
active nothing starts, however often a rerun is requested, and its end starts
one replacement at most; the end starts one exactly when the last wish since
the execution has started was a rerun and the disposition can start it; and
what has been rejected has no part in any of this.
-/
structure FollowsWishes (state : JobState) (events : List JobInput) : Prop where
  count : let history := accepted JobState.step state events
    (starts (effects history)).length = (terminations history).length +
      if (run JobState.step state events).state.activity = .idle then 0 else 1
  live : let history := accepted JobState.step state events
    (starts (effects history)).map Prod.fst = terminations history ++
      (run JobState.step state events).state.activity.execution?.toList
  latest : ∀ executionId after,
    (run JobState.step state events).state.activity =
      .active executionId after →
    ((starts (run JobState.step state events).effects).map
      Prod.fst).getLast? = some executionId
  coalesced : ∀ first during rest, events = first ++ during ++ rest →
    let state' := (run JobState.step state first).state
    state'.activity ≠ .idle →
    terminations (accepted JobState.step state' during) = [] →
    starts (run JobState.step state' during).effects = [] ∧
      ∀ input, (starts (deliver JobState.step
        (run JobState.step state' during).state input).effects).length ≤ 1
  ended : ∀ before entry after executionId outcome rerun,
    accepted JobState.step state events = before ++ entry :: after →
    entry.event = .event (.executionTerminated executionId outcome rerun) →
    starts entry.reaction.effects =
      replacement executionId (lastWish before) rerun
  rejected : ∀ before input after error,
    events = before ++ input :: after →
    JobState.step (run JobState.step state before).state input =
      .error error →
    run JobState.step state events = run JobState.step state (before ++ after)

theorem activity_follows_wishes {state : JobState}
    (idle : state.activity = .idle) (events : List JobInput) :
    FollowsWishes state events := by
  have held := run_activityHolds idle events
  constructor
  case count =>
    have hlength := congrArg List.length held.live
    rw [List.length_map, List.length_append] at hlength
    dsimp only
    rw [hlength]
    cases (run JobState.step state events).state.activity <;> rfl
  case live => exact held.live
  case latest =>
    intro executionId after hactive
    have hlive := held.live
    rw [hactive] at hlive
    rw [run_effects_eq]
    exact (congrArg List.getLast? hlive).trans List.getLast?_concat
  case coalesced =>
    intro first during rest _ state' hactive alive
    refine ⟨?_, fun input => deliver_starts _ input⟩
    cases hactivity : state'.activity with
    | idle => exact absurd hactivity hactive
    | active executionId after =>
        have running : state'.activity.execution? = some executionId := by
          rw [hactivity]
          rfl
        exact run_active running during alive
  case ended =>
    intro before entry after executionId outcome rerun hsplit hevent
    have hbefore := accepted_history_at ActivityHolds
      (fun _ _ _ _ held h => held.step h) (run_activityHolds idle []) hsplit
    have hstep : entry.before.step entry.event = .ok entry.reaction :=
      accepted_step (hsplit ▸ List.mem_append_right _ List.mem_cons_self)
    rw [hevent] at hstep
    have move : ActivityMove entry.before.activity
        (.executionTerminated executionId outcome rerun) entry.reaction.effects
        entry.reaction.state.activity := ActivityMove.of_transition hstep
    obtain ⟨hcurrent, hstarts⟩ := move.ended
    rw [hstarts, hbefore.wish (by rw [hcurrent]; rfl)]
    cases lastWish before <;> rfl
  case rejected =>
    intro before input after error hevents herror
    rw [hevents]
    exact run_rejected herror

/-! ## A job that is rerun -/

def sampleJob : JobState where
  definition := .available ⟨.replicate 32 0⟩ ⟨.replicate 32 0⟩
  enablement := { state := .disabled, lastTrigger := .never }
  activity := .idle

/-- Two reruns with a cancellation between them, and the end. -/
def sampleJobInputs : List JobInput :=
  [.event (.startRequested ⟨1⟩ .manual), .event (.rerunRequested ⟨2⟩),
    .event .cancelRequested, .event (.rerunRequested ⟨3⟩),
    .event (.executionTerminated ⟨1⟩ (.stopped .restart false) (.start ⟨4⟩))]

theorem activity_follows_wishes_rerun :
    FollowsWishes sampleJob sampleJobInputs :=
  activity_follows_wishes rfl sampleJobInputs

example :
    (run JobState.step sampleJob sampleJobInputs).state.activity =
      .active ⟨4⟩ .nothing := by decide

end JobState

end Susm.Domain
