import Susm.Domain.SupervisorBinding
import Mathlib.Data.List.Range

/-!
# The launch budget of a supervisor binding

Each accepted failure costs one of the failures that the policy permits and
the next incarnation of the same supervisor; the last one ends the binding.
The incarnation is therefore one more than the failures so far, no incarnation
is launched twice, and neither counter can overflow.
-/

namespace Susm.Domain

open Susm.Foundation
open Susm.Foundation.EventMachine

/-! ## What an accepted event does -/

namespace SupervisorBinding

/-- The process of the binding; while it waits for a retry, the next one. -/
def process : SupervisorBinding → SupervisorProcessIdentity
  | .discovering process .. | .launchPending process _
  | .awaitingHandshake process .. | .attached process ..
  | .restartBackoff process .. => process

def failures : SupervisorBinding → SupervisorFailureCount
  | .discovering _ failures _ | .launchPending _ failures
  | .awaitingHandshake _ failures _ | .attached _ failures _
  | .restartBackoff _ failures _ => failures

/-- The next process has not been launched yet. -/
def waits : SupervisorBinding → Bool
  | .restartBackoff .. => true
  | _ => false

theorem failing?_eq_some_iff {binding : SupervisorBinding}
    {process : SupervisorProcessIdentity} {failures : SupervisorFailureCount} :
    binding.failing? = some (process, failures) ↔
      binding.waits = false ∧ binding.process = process ∧
        binding.failures = failures := by
  cases binding <;> simp [failing?, waits, SupervisorBinding.process,
    SupervisorBinding.failures]

end SupervisorBinding

namespace SupervisorBindingEvent

def process? : SupervisorBindingEvent → Option SupervisorProcessIdentity
  | .discoveryAttached process _ | .discoveryFailed process ..
  | .launchSucceeded process _ | .launchFailed process _
  | .handshakeAccepted process _ | .handshakeFailed process ..
  | .supervisorExited process _ | .retryDeadlineReached process _ =>
      some process
  | .executionTerminated => none

def isFailure : SupervisorBindingEvent → Bool
  | .discoveryFailed .. | .launchFailed .. | .handshakeFailed ..
  | .supervisorExited .. => true
  | _ => false

end SupervisorBindingEvent

namespace SupervisorBindingEffect

def launched? : SupervisorBindingEffect → Option SupervisorProcessIdentity
  | .launchSupervisor process => some process
  | _ => none

def isReport : SupervisorBindingEffect → Bool
  | .reportSupervisorUnavailable => true
  | _ => false

end SupervisorBindingEffect

def launched (effects : List SupervisorBindingEffect) :
    List SupervisorProcessIdentity :=
  effects.filterMap SupervisorBindingEffect.launched?

def reports (effects : List SupervisorBindingEffect) : Nat :=
  effects.countP SupervisorBindingEffect.isReport

theorem reports_eq_zero_iff {effects : List SupervisorBindingEffect} :
    reports effects = 0 ↔ .reportSupervisorUnavailable ∉ effects := by
  rw [reports, List.countP_eq_zero]
  constructor
  · intro h hreport
    exact h _ hreport rfl
  · intro h effect heffect hreport
    cases effect <;> cases hreport
    exact h heffect

/-- The accepted transitions of a binding. -/
inductive BindingMove (policy : SupervisorLaunchPolicy) :
    SupervisorBinding → SupervisorBindingEvent →
    List SupervisorBindingEffect → Option SupervisorBinding → Prop where
  | progressed {binding next : SupervisorBinding}
      {event : SupervisorBindingEvent} {effects : List SupervisorBindingEffect}
      (named : event.process? = some binding.process)
      (healthy : event.isFailure = false) (started : launched effects = [])
      (quiet : reports effects = 0) (process : next.process = binding.process)
      (failures : next.failures = binding.failures)
      (before : binding.waits = false) (after : next.waits = false) :
      BindingMove policy binding event effects (some next)
  | failed {binding : SupervisorBinding} {event : SupervisorBindingEvent}
      {next : SupervisorProcessIdentity} {failures : SupervisorFailureCount}
      {retryAt : RetryDeadline} (named : event.process? = some binding.process)
      (failure : event.isFailure = true) (before : binding.waits = false)
      (supervisor : next.supervisorId = binding.process.supervisorId)
      (incarnation :
        next.incarnation.get = binding.process.incarnation.get + 1)
      (counted : failures.get = binding.failures.get + 1)
      (permitted : failures.get < policy.maxFailures.get) :
      BindingMove policy binding event [.armRetryDeadline retryAt]
        (some (.restartBackoff next failures retryAt))
  | exhausted {binding : SupervisorBinding} {event : SupervisorBindingEvent}
      (named : event.process? = some binding.process)
      (failure : event.isFailure = true) (before : binding.waits = false)
      (spent : policy.maxFailures.get ≤ binding.failures.get + 1) :
      BindingMove policy binding event [.reportSupervisorUnavailable] none
  | retried {process : SupervisorProcessIdentity}
      {failures : SupervisorFailureCount} {retryAt : RetryDeadline} :
      BindingMove policy (.restartBackoff process failures retryAt)
        (.retryDeadlineReached process retryAt) [.launchSupervisor process]
        (some (.launchPending process failures))
  | terminated {binding : SupervisorBinding}
      {effects : List SupervisorBindingEffect} (started : launched effects = [])
      (quiet : reports effects = 0) :
      BindingMove policy binding .executionTerminated effects none

namespace BindingMove

variable {policy : SupervisorLaunchPolicy} {binding : SupervisorBinding}
  {event : SupervisorBindingEvent} {effects : List SupervisorBindingEffect}
  {after : Option SupervisorBinding}

theorem reports_iff (move : BindingMove policy binding event effects after) :
    .reportSupervisorUnavailable ∈ effects ↔
      event.isFailure = true ∧
        policy.maxFailures.get ≤ binding.failures.get + 1 := by
  cases move with
  | progressed hnamed hhealthy hstarted hquiet =>
      simp [hhealthy, reports_eq_zero_iff.mp hquiet]
  | failed hnamed hfailure hbefore hsupervisor hincarnation hcounted hpermitted =>
      simp [hfailure]
      omega
  | exhausted hnamed hfailure hbefore hspent => simp [hfailure, hspent]
  | retried => simp [SupervisorBindingEvent.isFailure]
  | terminated hstarted hquiet =>
      simp [SupervisorBindingEvent.isFailure, reports_eq_zero_iff.mp hquiet]

theorem reports_none (move : BindingMove policy binding event effects after)
    (report : .reportSupervisorUnavailable ∈ effects) : after = none := by
  cases move with
  | progressed hnamed hhealthy hstarted hquiet =>
      exact absurd report (reports_eq_zero_iff.mp hquiet)
  | failed | retried => simp at report
  | exhausted | terminated => rfl

end BindingMove

namespace SupervisorBinding

variable {binding : SupervisorBinding} {policy : SupervisorLaunchPolicy}
  {process : SupervisorProcessIdentity} {instant : BootInstant}
  {reaction : Transition (Option SupervisorBinding) SupervisorBindingEffect}

theorem nextIncarnation_eq_some {next : SupervisorProcessIdentity}
    (h : process.nextIncarnation = some next) :
    next.supervisorId = process.supervisorId ∧
      next.incarnation.get = process.incarnation.get + 1 := by
  obtain ⟨incarnation, hnext, rfl⟩ := Option.map_eq_some_iff.mp h
  exact ⟨rfl, (Counter.next_eq_some_iff.mp hnext).symm⟩

theorem BindingMove.of_processFailed {event : SupervisorBindingEvent}
    (named : event.process? = some process) (failure : event.isFailure = true)
    (h : binding.processFailed process instant policy = .ok reaction) :
    BindingMove policy binding event reaction.effects reaction.state := by
  unfold processFailed at h
  split at h
  · cases h
  rename_i current failures hfailing
  obtain ⟨hwaits, rfl, rfl⟩ := failing?_eq_some_iff.mp hfailing
  split at h
  · cases h
  rename_i hcurrent
  rw [not_ne_iff] at hcurrent
  subst hcurrent
  obtain ⟨counted, hcounted, h⟩ := bind_eq_ok_iff.mp h
  have hget : binding.failures.get + 1 = counted.get :=
    SupervisorFailureCount.new?_eq_some_iff.mp (orError_eq_ok.mp hcounted)
  cases hpermits : policy.permitsRetryAfter counted with
  | false =>
      rw [hpermits] at h
      cases h
      refine .exhausted named failure hwaits ?_
      simp [SupervisorLaunchPolicy.permitsRetryAfter] at hpermits
      omega
  | true =>
      rw [hpermits] at h
      obtain ⟨next, hnext, h⟩ := bind_eq_ok_iff.mp h
      obtain ⟨retry, hretry, h⟩ := bind_eq_ok_iff.mp h
      obtain ⟨retryAt, hretryAt, h⟩ := bind_eq_ok_iff.mp h
      cases h
      obtain ⟨hsupervisor, hincarnation⟩ :=
        nextIncarnation_eq_some (orError_eq_ok.mp hnext)
      refine .failed named failure hwaits hsupervisor hincarnation hget.symm ?_
      simpa [SupervisorLaunchPolicy.permitsRetryAfter] using hpermits

theorem BindingMove.of_transition {event : SupervisorBindingEvent}
    {executionId : ExecutionId}
    (h : binding.transition event executionId policy = .ok reaction) :
    BindingMove policy binding event reaction.effects reaction.state := by
  cases event with
  | discoveryFailed | handshakeFailed | supervisorExited | launchFailed =>
      exact BindingMove.of_processFailed rfl rfl h
  | discoveryAttached process lastSequence =>
      simp only [transition, discoveryAttached] at h
      split at h
      · split at h <;> cases h
        rename_i hcurrent
        rw [not_ne_iff] at hcurrent
        subst hcurrent
        exact .progressed rfl rfl rfl rfl rfl rfl rfl rfl
      · cases h
  | launchSucceeded process instant =>
      simp only [transition, launchSucceeded] at h
      split at h
      · split at h
        · cases h
        rename_i hcurrent
        rw [not_ne_iff] at hcurrent
        subst hcurrent
        obtain ⟨deadline, hdeadline, h⟩ := bind_eq_ok_iff.mp h
        cases h
        exact .progressed rfl rfl rfl rfl rfl rfl rfl rfl
      · cases h
  | handshakeAccepted process lastSequence =>
      simp only [transition, handshakeAccepted] at h
      split at h
      · split at h <;> cases h
        rename_i hcurrent
        rw [not_ne_iff] at hcurrent
        subst hcurrent
        exact .progressed rfl rfl rfl rfl rfl rfl rfl rfl
      · cases h
  | retryDeadlineReached process deadline =>
      simp only [transition, retryDeadlineReached] at h
      split at h
      · split at h
        · cases h
        rename_i hprocess
        split at h <;> cases h
        rename_i hdeadline
        rw [not_ne_iff] at hprocess hdeadline
        subst hprocess hdeadline
        exact .retried
      · cases h
  | executionTerminated =>
      simp only [transition, terminate] at h
      split at h <;> cases h <;> exact .terminated rfl rfl

theorem transition_foreign {event : SupervisorBindingEvent}
    {executionId : ExecutionId} (named : event.process? = some process)
    (foreign : process ≠ binding.process) :
    ∃ error, binding.transition event executionId policy = .error error := by
  cases h : binding.transition event executionId policy with
  | error error => exact ⟨error, rfl⟩
  | ok reaction =>
      refine absurd ?_ foreign
      obtain ⟨state, effects⟩ := reaction
      cases BindingMove.of_transition h with
      | progressed hnamed | failed hnamed | exhausted hnamed =>
          exact Option.some.inj (named.symm.trans hnamed)
      | retried => exact (Option.some.inj named).symm
      | terminated => cases named

/-! ## The budget -/

structure Bound (policy : SupervisorLaunchPolicy) (supervisorId : SupervisorId)
    (binding : SupervisorBinding) : Prop where
  supervisor : binding.process.supervisorId = supervisorId
  incarnation : binding.process.incarnation.get = 1 + binding.failures.get
  permitted : binding.failures.get < policy.maxFailures.get

variable {supervisorId : SupervisorId}

theorem Bound.processFailed_error {error : SupervisorBindingError}
    (bound : binding.Bound policy supervisorId)
    (h : binding.processFailed process instant policy = .error error) :
    error ≠ .failureCountOverflow ∧ error ≠ .incarnationOverflow := by
  have hlimit := policy.maxFailures.lt
  have hpermitted := bound.permitted
  unfold processFailed at h
  split at h
  · cases h
    decide
  rename_i current failures hfailing
  obtain ⟨hwaits, rfl, rfl⟩ := failing?_eq_some_iff.mp hfailing
  split at h
  · cases h
    decide
  rename_i hcurrent
  rw [not_ne_iff] at hcurrent
  subst hcurrent
  rcases bind_eq_error_iff.mp h with h | ⟨counted, hcounted, h⟩
  · have hnone := SupervisorFailureCount.new?_eq_none_iff.mp
      (orError_eq_error.mp h).1
    omega
  have hget : binding.failures.get + 1 = counted.get :=
    SupervisorFailureCount.new?_eq_some_iff.mp (orError_eq_ok.mp hcounted)
  cases hpermits : policy.permitsRetryAfter counted with
  | false =>
      rw [hpermits] at h
      cases h
  | true =>
      rw [hpermits] at h
      have hincarnation := bound.incarnation
      simp only [SupervisorLaunchPolicy.permitsRetryAfter,
        decide_eq_true_eq] at hpermits
      rcases bind_eq_error_iff.mp h with h | ⟨next, hnext, h⟩
      · have hnone := Counter.next_eq_none_iff.mp
          (Option.map_eq_none_iff.mp (orError_eq_error.mp h).1)
        rw [CounterKind.limit] at hnone
        omega
      rcases bind_eq_error_iff.mp h with h | ⟨retry, hretry, h⟩
      · have hnone := Counter.new_eq_none_iff.mp (orError_eq_error.mp h).1
        rw [CounterKind.limit] at hnone
        omega
      rcases bind_eq_error_iff.mp h with h | ⟨retryAt, hretryAt, h⟩
      · rw [← (orError_eq_error.mp h).2]
        decide
      · cases h

theorem Bound.transition_error {event : SupervisorBindingEvent}
    {executionId : ExecutionId} {error : SupervisorBindingError}
    (bound : binding.Bound policy supervisorId)
    (h : binding.transition event executionId policy = .error error) :
    error ≠ .failureCountOverflow ∧ error ≠ .incarnationOverflow := by
  cases event with
  | discoveryFailed | handshakeFailed | supervisorExited | launchFailed =>
      exact bound.processFailed_error h
  | discoveryAttached process lastSequence =>
      simp only [transition, discoveryAttached] at h
      split at h
      · split at h <;> cases h
        decide
      · cases h
        decide
  | launchSucceeded process instant =>
      simp only [transition, launchSucceeded] at h
      split at h
      · split at h
        · cases h
          decide
        rcases bind_eq_error_iff.mp h with h | ⟨deadline, hdeadline, h⟩
        · rw [← (orError_eq_error.mp h).2]
          decide
        · cases h
      · cases h
        decide
  | handshakeAccepted process lastSequence =>
      simp only [transition, handshakeAccepted] at h
      split at h
      · split at h <;> cases h
        decide
      · cases h
        decide
  | retryDeadlineReached process deadline =>
      simp only [transition, retryDeadlineReached] at h
      split at h
      · split at h
        · cases h
          decide
        split at h <;> cases h
        decide
      · cases h
        decide
  | executionTerminated => cases h

end SupervisorBinding

/-! ## Histories -/

abbrev BindingInput := ExecutionId × SupervisorBindingEvent

abbrev BindingHistory :=
  List (Accepted (Option SupervisorBinding) BindingInput
    SupervisorBindingEffect)

namespace SupervisorBinding

def step (policy : SupervisorLaunchPolicy) :
    Option SupervisorBinding → BindingInput → SupervisorBindingResult
  | some binding, (executionId, event) =>
      binding.transition event executionId policy
  | none, _ => .error .unexpectedEvent

end SupervisorBinding

namespace BindingHistory

open SupervisorBinding

/-- The number of accepted failures. -/
def failures (history : BindingHistory) : Nat :=
  history.countP fun entry => entry.event.2.isFailure

def effects (history : BindingHistory) : List SupervisorBindingEffect :=
  history.flatMap fun entry => entry.reaction.effects

variable {history : BindingHistory}
  {entry : Accepted (Option SupervisorBinding) BindingInput
    SupervisorBindingEffect}

theorem failures_concat :
    failures (history ++ [entry]) =
      history.failures + if entry.event.2.isFailure then 1 else 0 := by
  simp [failures, List.countP_append, List.countP_singleton]

theorem launched_concat :
    launched (effects (history ++ [entry])) =
      launched history.effects ++ launched entry.reaction.effects := by
  simp [effects, launched, List.flatMap_append, List.filterMap_append]

theorem reports_concat :
    reports (effects (history ++ [entry])) =
      reports history.effects + reports entry.reaction.effects := by
  simp [effects, reports, List.flatMap_append, List.countP_append]

end BindingHistory

namespace SupervisorBinding

open BindingHistory

def incarnations (processes : List SupervisorProcessIdentity) : List Nat :=
  processes.map fun process => process.incarnation.get

/-- What the events so far say about the binding they have led to. -/
structure Follows (policy : SupervisorLaunchPolicy)
    (supervisorId : SupervisorId) (history : BindingHistory)
    (binding : SupervisorBinding) : Prop extends
    Bound policy supervisorId binding where
  counted : history.failures = binding.failures.get
  pending : (launched history.effects).length +
    (if binding.waits then 1 else 0) = binding.failures.get
  unreported : reports history.effects = 0

structure BudgetHolds (policy : SupervisorLaunchPolicy)
    (supervisorId : SupervisorId) (state : Option SupervisorBinding)
    (history : BindingHistory) : Prop where
  follows : ∀ binding, state = some binding →
    binding.Follows policy supervisorId history
  launches : incarnations (launched history.effects) =
    List.range' 2 (launched history.effects).length
  supervisor : ∀ process ∈ launched history.effects,
    process.supervisorId = supervisorId
  number : (launched history.effects).length ≤ policy.maxFailures.get - 1
  once : reports history.effects ≤ 1

variable {policy : SupervisorLaunchPolicy} {supervisorId : SupervisorId}
  {state : Option SupervisorBinding} {history : BindingHistory}
  {input : BindingInput}
  {reaction : Transition (Option SupervisorBinding) SupervisorBindingEffect}

theorem BudgetHolds.unlaunched
    (held : BudgetHolds policy supervisorId state history)
    (started : launched reaction.effects = [])
    (quiet : reports history.effects + reports reaction.effects ≤ 1)
    (follows : ∀ binding, reaction.state = some binding →
      binding.Follows policy supervisorId
        (history ++ [⟨state, input, reaction⟩])) :
    BudgetHolds policy supervisorId reaction.state
      (history ++ [⟨state, input, reaction⟩]) := by
  have hlaunched : launched (effects (history ++ [⟨state, input, reaction⟩])) =
      launched history.effects := by
    rw [launched_concat, started, List.append_nil]
  constructor
  case follows => exact follows
  case launches =>
    rw [hlaunched]
    exact held.launches
  case supervisor =>
    rw [hlaunched]
    exact held.supervisor
  case number =>
    rw [hlaunched]
    exact held.number
  case once =>
    rw [reports_concat]
    exact quiet

theorem BudgetHolds.extended
    (held : BudgetHolds policy supervisorId state history)
    {process : SupervisorProcessIdentity}
    (started : launched reaction.effects = [process])
    (same : process.supervisorId = supervisorId)
    (next : process.incarnation.get =
      2 + (launched history.effects).length)
    (permitted : (launched history.effects).length + 1 ≤
      policy.maxFailures.get - 1)
    (quiet : reports history.effects + reports reaction.effects ≤ 1)
    (follows : ∀ binding, reaction.state = some binding →
      binding.Follows policy supervisorId
        (history ++ [⟨state, input, reaction⟩])) :
    BudgetHolds policy supervisorId reaction.state
      (history ++ [⟨state, input, reaction⟩]) := by
  have hlaunched : launched (effects (history ++ [⟨state, input, reaction⟩])) =
      launched history.effects ++ [process] := by
    rw [launched_concat, started]
  constructor
  case follows => exact follows
  case launches =>
    rw [hlaunched, List.length_append, List.length_singleton,
      List.range'_1_concat, ← held.launches, ← next]
    simp [incarnations]
  case supervisor =>
    intro launched hlater
    rw [hlaunched, List.mem_append, List.mem_singleton] at hlater
    rcases hlater with hearlier | rfl
    · exact held.supervisor launched hearlier
    · exact same
  case number =>
    rw [hlaunched, List.length_append]
    exact permitted
  case once =>
    rw [reports_concat]
    exact quiet

theorem BudgetHolds.step (held : BudgetHolds policy supervisorId state history)
    (h : step policy state input = .ok reaction) :
    BudgetHolds policy supervisorId reaction.state
      (history ++ [⟨state, input, reaction⟩]) := by
  obtain ⟨executionId, event⟩ := input
  cases state with
  | none => cases h
  | some binding =>
      obtain ⟨⟨supervisor, incarnation, permitted⟩, counted, pending,
        unreported⟩ := held.follows binding rfl
      obtain ⟨state, effects⟩ := reaction
      have move : BindingMove policy binding event effects state :=
        BindingMove.of_transition h
      cases move with
      | progressed hnamed hhealthy hstarted hquiet hprocess hsame hbefore
          hafter =>
          refine held.unlaunched hstarted (by simp [unreported, hquiet]) ?_
          rintro next ⟨⟩
          refine ⟨⟨?_, ?_, ?_⟩, ?_, ?_, ?_⟩
          · rw [hprocess, supervisor]
          · rw [hprocess, hsame, incarnation]
          · rw [hsame]
            exact permitted
          · simp [failures_concat, hhealthy, hsame, counted]
          · simpa [launched_concat, hstarted, hafter, hsame, hbefore]
              using pending
          · rw [reports_concat, unreported, hquiet]
      | @failed _ _ next failures retryAt hnamed hfailure hbefore hsupervisor
          hincarnation hcounted hpermitted =>
          refine held.unlaunched rfl (by rw [unreported]; exact Nat.zero_le 1) ?_
          rintro next ⟨⟩
          simp only [hbefore] at pending
          refine ⟨⟨hsupervisor.trans supervisor, ?_, hpermitted⟩, ?_, ?_, ?_⟩
          · simp [SupervisorBinding.process, SupervisorBinding.failures]
            omega
          · simp [failures_concat, hfailure, SupervisorBinding.failures]
            omega
          · have hlaunched : launched [.armRetryDeadline retryAt] = [] := rfl
            rw [launched_concat, hlaunched, List.append_nil]
            simp only [waits, SupervisorBinding.failures]
            simp at pending ⊢
            omega
          · rw [reports_concat, unreported]
            rfl
      | exhausted hnamed hfailure hbefore hspent =>
          exact held.unlaunched rfl (by rw [unreported]; decide) nofun
      | terminated hstarted hquiet =>
          exact held.unlaunched hstarted (by simp [unreported, hquiet]) nofun
      | @retried process failures retryAt =>
          simp only [SupervisorBinding.process, SupervisorBinding.failures,
            waits, if_true] at incarnation permitted supervisor pending
          refine held.extended rfl supervisor (by omega) (by omega)
            (by rw [unreported]; exact Nat.zero_le 1) ?_
          rintro next ⟨⟩
          refine ⟨⟨supervisor, incarnation, permitted⟩, ?_, ?_, ?_⟩
          · rw [failures_concat]
            exact counted
          · rw [launched_concat, List.length_append]
            exact pending
          · rw [reports_concat, unreported]
            rfl

/-! ## Runs -/

/-- The binding of a new active execution. -/
def initial (supervisorId : SupervisorId) : Option SupervisorBinding :=
  some (.launchPending ⟨supervisorId, Counter.first⟩ .zero)

theorem run_budgetHolds (policy : SupervisorLaunchPolicy)
    (supervisorId : SupervisorId) (events : List BindingInput) :
    BudgetHolds policy supervisorId
      (run (step policy) (initial supervisorId) events).state
      (accepted (step policy) (initial supervisorId) events) := by
  have start : BudgetHolds policy supervisorId (initial supervisorId) [] := by
    constructor
    case follows =>
      rintro binding ⟨⟩
      exact ⟨⟨rfl, rfl, policy.maxFailures.pos⟩, rfl, rfl, rfl⟩
    case launches => rfl
    case supervisor => nofun
    case number => exact Nat.zero_le _
    case once => exact Nat.zero_le _
  exact accepted_history (BudgetHolds policy supervisorId)
    (fun _ _ _ _ held h => held.step h) [] start events

theorem accepted_none (events : List BindingInput) :
    accepted (step policy) none events = [] := by
  induction events with
  | nil => rfl
  | cons event events ih => exact ih

/--
What the events of a binding say about its budget: the binding keeps its
supervisor, and its incarnation is one more than the failures, which stay below
the permitted ones; an event about another process is rejected; the launched
incarnations are the second, the third and so on, one fewer than the permitted
failures at most; the binding is given up once at most, exactly with the last
permitted failure; and neither counter overflows.
-/
structure KeepsBudget (policy : SupervisorLaunchPolicy)
    (supervisorId : SupervisorId) (events : List BindingInput) : Prop where
  bound : ∀ binding,
    (run (step policy) (initial supervisorId) events).state = some binding →
    binding.Bound policy supervisorId
  foreign : ∀ binding executionId event process,
    (run (step policy) (initial supervisorId) events).state = some binding →
    event.process? = some process → process ≠ binding.process →
    (∃ error,
      binding.transition event executionId policy = .error error) ∧
    (run (step policy) (initial supervisorId)
      (events ++ [(executionId, event)])).state = some binding
  launches : ∃ count, count ≤ policy.maxFailures.get - 1 ∧
    incarnations (launched
      (run (step policy) (initial supervisorId) events).effects) =
        List.range' 2 count
  supervisor : ∀ process ∈ launched
      (run (step policy) (initial supervisorId) events).effects,
    process.supervisorId = supervisorId
  once : reports (run (step policy) (initial supervisorId) events).effects ≤ 1
  exhausted : ∀ before entry after,
    accepted (step policy) (initial supervisorId) events =
      before ++ entry :: after →
    (.reportSupervisorUnavailable ∈ entry.reaction.effects ↔
      entry.event.2.isFailure = true ∧
        BindingHistory.failures before + 1 = policy.maxFailures.get)
  ended : ∀ before entry after,
    accepted (step policy) (initial supervisorId) events =
      before ++ entry :: after →
    .reportSupervisorUnavailable ∈ entry.reaction.effects →
    entry.reaction.state = none ∧ after = []
  errors : ∀ binding executionId event error,
    (run (step policy) (initial supervisorId) events).state = some binding →
    binding.transition event executionId policy = .error error →
    error ≠ .failureCountOverflow ∧ error ≠ .incarnationOverflow

theorem keeps_budget (policy : SupervisorLaunchPolicy)
    (supervisorId : SupervisorId) (events : List BindingInput) :
    KeepsBudget policy supervisorId events := by
  have held := run_budgetHolds policy supervisorId events
  have moveAt : ∀ {before entry after},
      accepted (step policy) (initial supervisorId) events =
        before ++ entry :: after →
      ∃ binding, binding.Follows policy supervisorId before ∧
        BindingMove policy binding entry.event.2 entry.reaction.effects
          entry.reaction.state := by
    intro before entry after hsplit
    have hbefore := accepted_history_at (BudgetHolds policy supervisorId)
      (fun _ _ _ _ held h => held.step h) (run_budgetHolds _ _ []) hsplit
    have hstep : step policy entry.before entry.event = .ok entry.reaction :=
      accepted_step (hsplit ▸ List.mem_append_right _ List.mem_cons_self)
    obtain ⟨state, ⟨executionId, event⟩, reaction⟩ := entry
    cases state with
    | none => cases hstep
    | some binding =>
        exact ⟨binding, hbefore.follows binding rfl,
          BindingMove.of_transition hstep⟩
  constructor
  case bound => exact fun binding h => (held.follows binding h).toBound
  case foreign =>
    intro binding executionId event process hstate hnamed hforeign
    obtain ⟨error, herror⟩ : ∃ error,
        step policy (some binding) ⟨executionId, event⟩ = .error error :=
      transition_foreign hnamed hforeign
    refine ⟨⟨error, herror⟩, ?_⟩
    rw [run_append_state, hstate]
    exact congrArg Reaction.state (deliver_error herror)
  case launches =>
    rw [run_effects_eq]
    exact ⟨_, held.number, held.launches⟩
  case supervisor =>
    rw [run_effects_eq]
    exact held.supervisor
  case once =>
    rw [run_effects_eq]
    exact held.once
  case exhausted =>
    intro before entry after hsplit
    obtain ⟨binding, hfollows, move⟩ := moveAt hsplit
    have hpermitted := hfollows.permitted
    rw [hfollows.counted, move.reports_iff]
    refine and_congr_right fun _ => ?_
    omega
  case ended =>
    intro before entry after hsplit hreport
    obtain ⟨binding, hfollows, move⟩ := moveAt hsplit
    have hnone := move.reports_none hreport
    obtain ⟨first, last, -, -, -, hafter⟩ := accepted_split hsplit
    rw [hnone, accepted_none] at hafter
    exact ⟨hnone, hafter.symm⟩
  case errors =>
    intro binding executionId event error hstate
    exact (held.follows binding hstate).toBound.transition_error

end SupervisorBinding

end Susm.Domain
