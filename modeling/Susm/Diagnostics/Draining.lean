import Susm.Diagnostics.QueueRuns

/-!
# Draining the queue

The flag that ends the writer is stored when a guard is dropped.  A writer that
sees it empties the channel first and reports what was refused last, so that
nothing is lost that was submitted before.
-/

namespace Susm.Diagnostics

open Susm.Foundation

/-- The writer has found the channel empty after it saw the flag. -/
@[simp]
def WriterPhase.isDrained : WriterPhase → Bool
  | .finalReport | .writingFinal _ | .finishing => true
  | .ended drained => drained
  | _ => false

/-- The writer has taken the count of refused messages after that. -/
@[simp]
def WriterPhase.hasReported : WriterPhase → Bool
  | .writingFinal _ | .finishing => true
  | .ended drained => drained
  | _ => false

def WriterPhase.hasSeenFlag : WriterPhase → Bool
  | .draining | .finalReport | .writingFinal _ | .finishing => true
  | .releasing _ drains | .writing _ drains => drains
  | .ended drained => drained
  | _ => false

def Handled.written : Handled → Option Bytes
  | .message bytes => some bytes
  | _ => none

namespace Pipeline

variable {setup : Setup} {access : Access} {state next stopped last : Pipeline}

/-- What became of what was accepted and refused up to some moment. -/
structure Drains (accepted : List Bytes) (refused : Nat) (state : Pipeline) :
    Prop where
  accounted : state.Accounted
  kept : accepted <+: state.accepted
  counted : refused ≤ tally Submission.isRefused state.submissions
  handled : state.writer.isDrained = true →
    accepted <+: state.handled.filterMap Handled.bytes
  reported : state.writer.hasReported = true →
    ∃ refusals, refused ≤ refusals ∧
      refusals ≤ tally Submission.isRefused state.submissions ∧
      state.writer.count + tally Handled.count state.handled ≡ refusals
        [MOD 2 ^ 64]
  held : state.writer ≠ .ended false →
    state.handled.filterMap Handled.bytes =
      state.handled.filterMap Handled.written

theorem Drains.grow {accepted more : List Bytes} {refused : Nat}
    (drains : state.Drains accepted refused) (accounted : next.Accounted)
    (writer : next.writer = state.writer)
    (handled : next.handled = state.handled)
    (grows : next.accepted = state.accepted ++ more)
    (counted : tally Submission.isRefused state.submissions ≤
      tally Submission.isRefused next.submissions) :
    next.Drains accepted refused := by
  refine ⟨accounted, ?_, drains.counted.trans counted, ?_, ?_, ?_⟩
  · rw [grows]
    exact drains.kept.trans (List.prefix_append _ _)
  · rw [writer, handled]
    exact drains.handled
  · rw [writer, handled]
    intro reported
    obtain ⟨refusals, hle, hge, hcount⟩ := drains.reported reported
    exact ⟨refusals, hle, hge.trans counted, hcount⟩
  · rw [writer, handled]
    exact drains.held

theorem refused_le {index : Nat} {submission after : Submission} {queue : Queue}
    (found : state.submissions[index]? = some submission)
    (step : submission.Step state.queue queue after) :
    tally Submission.isRefused state.submissions ≤
      tally Submission.isRefused (state.submissions.set index after) := by
  have hset := tally_set Submission.isRefused found after
  have hnone := step.counted.1
  omega

theorem Accounted.drained (accounted : state.Accounted)
    (phase : state.writer = .draining) (empty : state.queue.channel = []) :
    state.accepted = state.handled.filterMap Handled.bytes := by
  have nothing : state.abandoned = [] := by
    rcases accounted.open_or_left with ⟨-, nothing⟩ | ⟨-, -, drained, ended⟩
    · exact nothing
    · rw [phase] at ended
      cases ended
  simpa [phase, empty, nothing] using accounted.order

theorem Drains.write {accepted : List Bytes} {refused : Nat}
    (drains : state.Drains accepted refused)
    (step : WriterStep setup access state next) :
    next.Drains accepted refused := by
  have accounted := drains.accounted.write step
  obtain ⟨stateAccounted, kept, counted, handled, reported, held⟩ := drains
  have holds := held (step.running false)
  cases step with
  | receives phase | ticks phase | drains phase =>
      exact ⟨accounted, kept, counted, by simp, by simp, fun _ => holds⟩
  | @releases bytes draining phase =>
      refine ⟨accounted, kept, counted, ?_, ?_, fun _ => holds⟩ <;>
        cases draining <;> simp
  | reports phase =>
      refine ⟨accounted, kept, counted, ?_, ?_, fun _ => holds⟩ <;>
        dsimp only <;> split <;> simp
  | checks phase =>
      refine ⟨accounted, kept, counted, ?_, ?_, fun _ => holds⟩ <;>
        dsimp only [enter] <;> split <;> simp
  | tickFails phase | loses phase | losesDropped phase | losesFinal phase =>
      exact ⟨accounted, kept, counted, by simp, by simp, fun h => absurd rfl h⟩
  | writesDropped phase done =>
      refine ⟨accounted, kept, counted, by simp, by simp, fun _ => ?_⟩
      simpa [List.filterMap_cons, Handled.written] using holds
  | @writes bytes draining written disk phase done goesOn =>
      refine ⟨accounted, kept, counted, ?_, ?_, fun _ => ?_⟩
      · cases draining <;> simp
      · cases draining <;> simp
      · simpa [Handled.written] using holds
  | drained phase empty =>
      refine ⟨accounted, kept, counted, fun _ => ?_, by simp, fun _ => holds⟩
      have hdrained := stateAccounted.drained phase empty
      exact hdrained ▸ kept
  | finalReports phase =>
      refine ⟨accounted, kept, counted, fun _ => handled (by rw [phase]; rfl),
        fun _ => ⟨_, counted, le_rfl, ?_⟩, fun _ => holds⟩
      -- what was counted by now is in the hand of the writer
      have counts := stateAccounted.counts
      rw [phase] at counts
      dsimp only
      split
      · rename_i hnone
        simpa [hnone] using counts.symm
      · simpa using counts.symm
  | @writesFinal count written disk phase done =>
      obtain ⟨refusals, hle, hge, hcount⟩ := reported (by rw [phase]; rfl)
      refine ⟨accounted, kept, counted, fun _ => ?_,
        fun _ => ⟨refusals, hle, hge, ?_⟩, fun _ => ?_⟩
      · simpa [List.filterMap_cons] using handled (by rw [phase]; rfl)
      · rw [phase] at hcount
        simpa [Nat.add_comm] using hcount
      · simpa [List.filterMap_cons, Handled.written] using holds
  | finishes phase =>
      obtain ⟨refusals, hle, hge, hcount⟩ := reported (by rw [phase]; rfl)
      refine ⟨accounted, kept, counted, fun _ => handled (by rw [phase]; rfl),
        fun _ => ⟨refusals, hle, hge, ?_⟩, fun _ => holds⟩
      rw [phase] at hcount
      exact hcount

theorem Drains.step {event : Event} {accepted : List Bytes} {refused : Nat}
    (drains : state.Drains accepted refused)
    (moved : state.step setup event = some next) :
    next.Drains accepted refused := by
  have accounted := drains.accounted.step moved
  cases event with
  | submit bytes =>
      cases moved
      refine drains.grow accounted rfl rfl (List.append_nil _).symm ?_
      simp
  | advance index spurious =>
      obtain ⟨submission, found, moved⟩ := Option.bind_eq_some_iff.mp moved
      obtain ⟨⟨queue, after⟩, advanced, rfl⟩ := Option.map_eq_some_iff.mp moved
      exact drains.grow accounted rfl rfl rfl
        (refused_le found (Submission.advance_step advanced))
  | write timeout access => exact drains.write (stepWriter_step moved)
  | shutdown =>
      cases moved
      exact drains.grow accounted rfl rfl (List.append_nil _).symm le_rfl

theorem held_of_run
    (run : Runs (Pipeline.step setup) (fun _ _ => True) initial state) :
    state.writer ≠ .ended false →
      state.handled.filterMap Handled.bytes =
        state.handled.filterMap Handled.written := by
  have drains : state.Drains [] 0 :=
    run.invariant (fun _ _ _ drains _ moved => drains.step moved)
      ⟨accounted_initial, List.nil_prefix, Nat.zero_le _, nofun, nofun,
        fun _ => rfl⟩
  exact drains.held

theorem WriterStep.flag (step : WriterStep setup access state next) :
    next.queue.shutdown = state.queue.shutdown := by
  cases step <;> rfl

theorem WriterStep.seen (step : WriterStep setup access state next)
    (seen : next.writer.hasSeenFlag = true) :
    state.writer.hasSeenFlag = true ∨ state.queue.shutdown = true := by
  cases step with
  | receives phase | ticks phase | writesDropped phase | tickFails phase
  | losesDropped phase | loses phase | losesFinal phase => cases seen
  | drains phase | drained phase | writesFinal phase | finishes phase
  | finalReports phase =>
      rw [phase]
      exact .inl rfl
  | @releases bytes draining phase | @writes bytes draining _ _ phase =>
      cases draining with
      | false => cases seen
      | true =>
          rw [phase]
          exact .inl rfl
  | reports phase =>
      dsimp only at seen
      split at seen <;> cases seen
  | checks phase =>
      dsimp only [enter] at seen
      split at seen
      · rename_i hflag
        exact .inr hflag
      · cases seen

def FlagStored (state : Pipeline) : Prop :=
  state.writer.hasSeenFlag = true → state.queue.shutdown = true

theorem flagStored_of_run
    (run : Runs (Pipeline.step setup) (fun _ _ => True) initial state) :
    state.FlagStored := by
  refine run.invariant ?_ nofun
  intro state event next held _ moved
  cases event with
  | submit bytes =>
      cases moved
      exact held
  | advance index spurious =>
      obtain ⟨submission, found, moved⟩ := Option.bind_eq_some_iff.mp moved
      obtain ⟨⟨queue, after⟩, advanced, rfl⟩ := Option.map_eq_some_iff.mp moved
      have hflag := (Submission.advance_step advanced).shutdown_eq
      exact fun seen => hflag.trans (held seen)
  | write timeout access =>
      have step := stepWriter_step moved
      intro seen
      rw [step.flag]
      exact (step.seen seen).elim held id
  | shutdown =>
      cases moved
      exact fun _ => rfl

theorem drains_of_shutdown
    (before : Runs (Pipeline.step setup) (fun _ _ => True) initial state)
    (clear : state.queue.shutdown = false)
    (moved : state.step setup .shutdown = some stopped)
    (after : Runs (Pipeline.step setup) (fun _ _ => True) stopped last) :
    last.Drains state.accepted
      (tally Submission.isRefused state.submissions) := by
  have unseen : state.writer.hasSeenFlag = false := by
    by_contra hseen
    rw [Bool.not_eq_false] at hseen
    rw [flagStored_of_run before hseen] at clear
    cases clear
  have accounted := (run_accounted before).step moved
  have held := held_of_run before
  cases moved
  -- none of the phases that draining leads to has been reached
  have start : Drains state.accepted
      (tally Submission.isRefused state.submissions)
      { state with queue := { state.queue with shutdown := true } } := by
    refine ⟨accounted, List.prefix_rfl, le_rfl, fun drained => ?_,
      fun reported => ?_, held⟩
    · cases hphase : state.writer <;> simp_all [WriterPhase.isDrained,
        WriterPhase.hasSeenFlag]
    · cases hphase : state.writer <;> simp_all [WriterPhase.hasReported,
        WriterPhase.hasSeenFlag]
  exact after.invariant (fun _ _ _ drains _ moved => drains.step moved) start

/-- A writer that ends without a panic or a failure before has handled, in this
order, everything that was accepted before the flag was stored, and has reported
everything that was refused before. -/
theorem shutdown_drains
    (before : Runs (Pipeline.step setup) (fun _ _ => True) initial state)
    (clear : state.queue.shutdown = false)
    (moved : state.step setup .shutdown = some stopped)
    (after : Runs (Pipeline.step setup) (fun _ _ => True) stopped last)
    (ended : last.writer = .ended true) :
    state.accepted <+: last.handled.filterMap Handled.written ∧
      ∃ refusals, tally Submission.isRefused state.submissions ≤ refusals ∧
        refusals ≤ tally Submission.isRefused last.submissions ∧
        tally Handled.count last.handled ≡ refusals [MOD 2 ^ 64] := by
  have drains := drains_of_shutdown before clear moved after
  have handled := drains.handled (by rw [ended]; rfl)
  rw [drains.held (by rw [ended]; nofun)] at handled
  obtain ⟨refusals, hle, hge, hcount⟩ := drains.reported (by rw [ended]; rfl)
  rw [ended] at hcount
  exact ⟨handled, refusals, hle, hge, by simpa using hcount⟩

theorem shutdown_drains_queued :
    queuedPipeline.accepted <+:
        drainedPipeline.handled.filterMap Handled.written ∧
      ∃ refusals,
        tally Submission.isRefused queuedPipeline.submissions ≤ refusals ∧
        refusals ≤ tally Submission.isRefused drainedPipeline.submissions ∧
        tally Handled.count drainedPipeline.handled ≡ refusals [MOD 2 ^ 64] :=
  shutdown_drains (execute_runs execute_queuedEvents) rfl rfl
    (execute_runs execute_drainEvents) rfl

end Pipeline

end Susm.Diagnostics
