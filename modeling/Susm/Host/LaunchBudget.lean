import Susm.Foundation.CappedGrowth
import Susm.Host.RunnerThread

/-!
# How often a controller is launched

The delay between launches doubles up to its maximum and starts again after a
restart or after a process that lived long.  What a series of launches costs
beyond the maximal delay for each of them is bounded, and a long life pays for
it.
-/

namespace Susm.Host

open Susm.Foundation

/-- What each restart, and the start, may add. -/
def launchCost : Nat := 7 * maximumDelay

def delayAfter (launches : Nat) : Nat :=
  capped initialDelay 2 maximumDelay launches

def delaysUpTo (launches : Nat) : Nat :=
  cappedSum initialDelay 2 maximumDelay launches

theorem delayAfter_zero : delayAfter 0 = initialDelay :=
  capped_zero (by decide)

theorem delayAfter_succ (launches : Nat) :
    delayAfter (launches + 1) =
      min (delayAfter launches * 2) maximumDelay :=
  capped_succ_last (by decide)

theorem delaysUpTo_zero : delaysUpTo 0 = 0 := rfl

theorem delaysUpTo_succ (launches : Nat) :
    delaysUpTo (launches + 1) = delaysUpTo launches + delayAfter launches :=
  rfl

theorem launches_behind (launches : Nat) :
    launches * maximumDelay ≤ delaysUpTo launches + 6 * maximumDelay := by
  have reached : capped initialDelay 2 maximumDelay 7 = maximumDelay := by
    decide
  have behind := cappedSum_behind (by decide) reached launches
  have sum : maximumDelay ≤ cappedSum initialDelay 2 maximumDelay 7 := by
    decide
  change _ ≤ cappedSum initialDelay 2 maximumDelay launches + _
  omega

namespace RunnerThread

variable {thread next : RunnerThread} {own origin : Nat}

/--
The launches so far, but for its maker's own, are paid for by the restarts and
by the time up to a moment, but for a credit, and something is left over; the
present series of launches is charged with the maximal delay for each.
-/
def Paid (own origin moment credit left : Nat) (thread : RunnerThread) : Prop :=
  ∃ launches, thread.delay = delayAfter launches ∧
    thread.attempts * maximumDelay + delaysUpTo launches + origin + left ≤
      own * maximumDelay + launchCost * thread.restarts + moment + credit +
        launches * maximumDelay

def Budgeted (own origin : Nat) (thread : RunnerThread) : Prop :=
  match thread.phase with
  | .adopting | .launching => thread.Paid own origin thread.clock 0 0
  | .backingOff due =>
      thread.Paid own origin due maximumDelay thread.delay ∧
        due ≤ thread.clock + thread.delay
  | .polling launchedAt | .watching launchedAt _ =>
      thread.Paid own origin launchedAt maximumDelay 0 ∧ launchedAt ≤ thread.clock
  | .terminating true _ =>
      thread.Paid own origin thread.clock maximumDelay launchCost
  | _ => thread.Paid own origin thread.clock maximumDelay 0

theorem start_budgeted (initial : InitialProcess) (clock : Nat) :
    (start initial clock).Budgeted initial.attempts clock := by
  have paid : (start initial clock).Paid initial.attempts clock clock 0 0 :=
    ⟨0, delayAfter_zero.symm, by simp [start, delaysUpTo_zero]⟩
  unfold Budgeted start
  split <;> cases h : initial.identity <;> simp_all [start]

theorem Paid.weaken {moment later credit lent left kept : Nat}
    (paid : thread.Paid own origin moment credit left)
    (covered : moment + credit + kept ≤ later + lent + left) :
    thread.Paid own origin later lent kept := by
  obtain ⟨launches, delay, paid⟩ := paid
  exact ⟨launches, delay, by omega⟩

theorem Paid.reset {moment later credit lent left kept : Nat}
    (paid : thread.Paid own origin moment credit left)
    (delay : next.delay = initialDelay)
    (attempts : next.attempts = thread.attempts)
    (covered : launchCost * thread.restarts + moment + credit +
        6 * maximumDelay + kept ≤
      launchCost * next.restarts + later + lent + left) :
    next.Paid own origin later lent kept := by
  obtain ⟨launches, -, paid⟩ := paid
  have behind := launches_behind launches
  refine ⟨0, delay.trans delayAfter_zero.symm, ?_⟩
  rw [delaysUpTo_zero, attempts]
  omega

theorem Paid.retry {due : Nat}
    (paid : thread.Paid own origin due maximumDelay thread.delay)
    (elapsed : due ≤ thread.clock) :
    (thread.receive none).Paid own origin thread.clock 0 0 := by
  obtain ⟨launches, delay, paid⟩ := paid
  refine ⟨launches + 1, ?_, ?_⟩
  · rw [delayAfter_succ, ← delay]
    rfl
  · rw [delaysUpTo_succ, ← delay, Nat.add_mul, Nat.one_mul]
    dsimp only [receive]
    omega

theorem Paid.attempt (paid : thread.Paid own origin thread.clock 0 0) :
    Paid own origin thread.clock maximumDelay 0
      { thread with attempts := thread.attempts + 1 } := by
  obtain ⟨launches, delay, paid⟩ := paid
  refine ⟨launches, delay, ?_⟩
  dsimp only
  rw [Nat.add_mul, Nat.one_mul]
  omega

theorem Paid.backOff {moment : Nat}
    (paid : thread.Paid own origin moment maximumDelay 0)
    (past : moment ≤ thread.clock) : thread.backOff.Budgeted own origin := by
  refine ⟨?_, le_rfl⟩
  have later : thread.Paid own origin (thread.clock + thread.delay) maximumDelay
      thread.delay := paid.weaken (by omega)
  exact later

theorem Budgeted.launch (budgeted : thread.Budgeted own origin)
    (phase : thread.phase = .launching) (result : LaunchResult) :
    (thread.launch result).Budgeted own origin := by
  have paid : thread.Paid own origin thread.clock 0 0 := by
    simpa [Budgeted, phase] using budgeted
  have attempt := paid.attempt
  cases result with
  | failed | unidentified => exact Paid.backOff attempt le_rfl
  | launched identity => exact ⟨attempt, le_rfl⟩

theorem Budgeted.receive {due : Nat} (budgeted : thread.Budgeted own origin)
    (phase : thread.phase = .backingOff due) (command : RunnerCommand) :
    (thread.receive (some command)).Budgeted own origin := by
  have paid : thread.Paid own origin due maximumDelay thread.delay ∧
      due ≤ thread.clock + thread.delay := by
    simpa [Budgeted, phase] using budgeted
  cases command with
  | restart =>
      refine paid.1.reset rfl rfl ?_
      dsimp only [RunnerThread.receive]
      rw [Nat.mul_add, launchCost]
      omega
  | endSession | detach =>
      have later : thread.Paid own origin thread.clock maximumDelay 0 :=
        paid.1.weaken (by omega)
      exact later

theorem Budgeted.obey {launchedAt : Nat} (budgeted : thread.Budgeted own origin)
    (phase : thread.phase = .polling launchedAt) (command : RunnerCommand) :
    (thread.obey command).Budgeted own origin := by
  have paid : thread.Paid own origin launchedAt maximumDelay 0 ∧
      launchedAt ≤ thread.clock := by
    simpa [Budgeted, phase] using budgeted
  have later : thread.Paid own origin thread.clock maximumDelay 0 :=
    paid.1.weaken (by omega)
  cases command with
  | restart =>
      obtain ⟨launches, delay, later⟩ := later
      refine ⟨launches, delay, ?_⟩
      dsimp only [RunnerThread.obey, terminate]
      rw [Nat.mul_add]
      omega
  | endSession | detach => exact later

theorem Budgeted.settle {launchedAt due : Nat}
    (budgeted : thread.Budgeted own origin)
    (phase : thread.phase = .watching launchedAt due) :
    (thread.settle launchedAt).Budgeted own origin := by
  rw [Budgeted, phase] at budgeted
  obtain ⟨paid, past⟩ := budgeted
  rw [RunnerThread.settle]
  split
  · rename_i hsettled
    refine Paid.backOff ?_ le_rfl
    refine paid.reset rfl rfl ?_
    -- the life of the process is worth more than six maximal delays
    have worth : 6 * maximumDelay ≤ settledAfter := by decide
    dsimp only [RunnerThread.release]
    omega
  · have same : (thread.release .launching).Paid own origin launchedAt
        maximumDelay 0 := paid
    exact same.backOff past

theorem Budgeted.leave (budgeted : thread.Budgeted own origin)
    (phase : (∃ due, thread.phase = .backingOff due) ∨
      ∃ launchedAt, thread.phase = .polling launchedAt) :
    thread.Paid own origin thread.clock maximumDelay 0 := by
  rcases phase with ⟨due, phase⟩ | ⟨launchedAt, phase⟩
  · rw [Budgeted, phase] at budgeted
    exact budgeted.1.weaken (by omega)
  · rw [Budgeted, phase] at budgeted
    exact budgeted.1.weaken (by omega)

theorem Budgeted.turn (budgeted : thread.Budgeted own origin)
    (turn : thread.Turn next) : next.Budgeted own origin := by
  cases turn with
  | adopts phase =>
      rw [Budgeted, phase] at budgeted
      have paid : thread.Paid own origin thread.clock maximumDelay 0 :=
        budgeted.weaken (by omega)
      exact ⟨paid, le_rfl⟩
  | launches phase result => exact budgeted.launch phase result
  | receives phase => exact budgeted.receive phase _
  | retries phase none elapsed =>
      rw [Budgeted, phase] at budgeted
      exact budgeted.1.retry elapsed
  | obeys phase => exact budgeted.obey phase _
  | leaves phase => exact budgeted.leave phase
  | settles phase => exact budgeted.settle phase
  | replaces phase =>
      rw [Budgeted, phase] at budgeted
      refine budgeted.reset rfl rfl ?_
      dsimp only [RunnerThread.release]
      rw [launchCost]
      omega
  | watches phase | polls phase | awaits phase | terminates phase
  | looks phase | ends phase | kills phase =>
      rw [Budgeted, phase] at budgeted
      exact budgeted

theorem Budgeted.pass (budgeted : thread.Budgeted own origin) (time : Nat) :
    Budgeted own origin { thread with clock := thread.clock + time } := by
  unfold Budgeted at budgeted ⊢
  dsimp only
  split at budgeted
  · exact budgeted.weaken (by omega)
  · exact budgeted.weaken (by omega)
  · exact ⟨budgeted.1, budgeted.2.trans (by omega)⟩
  · exact ⟨budgeted.1, budgeted.2.trans (by omega)⟩
  · exact ⟨budgeted.1, budgeted.2.trans (by omega)⟩
  · exact budgeted.weaken (by omega)
  · exact budgeted.weaken (by omega)

theorem Budgeted.step {event : RunnerEvent} (budgeted : thread.Budgeted own origin)
    (moved : thread.step event = some next) : next.Budgeted own origin := by
  cases event with
  | passes time =>
      cases moved
      exact budgeted.pass time
  | exits index =>
      cases moved
      exact budgeted
  | send command | drop =>
      obtain ⟨-, moved⟩ := Option.ite_none_right_eq_some.mp moved
      cases moved
      exact budgeted
  | turn result signaled => exact budgeted.turn (turn_cases moved)

theorem Budgeted.paid (budgeted : thread.Budgeted own origin) :
    ∃ left, thread.Paid own origin thread.clock maximumDelay left := by
  unfold Budgeted at budgeted
  split at budgeted
  · exact ⟨0, budgeted.weaken (by omega)⟩
  · exact ⟨0, budgeted.weaken (by omega)⟩
  · exact ⟨0, budgeted.1.weaken (by omega)⟩
  · exact ⟨0, budgeted.1.weaken (by omega)⟩
  · exact ⟨0, budgeted.1.weaken (by omega)⟩
  · exact ⟨_, budgeted⟩
  · exact ⟨_, budgeted⟩

/--
Whatever happens to the processes of a runner and however often it is told to
restart, it has tried seven launches for its start and for each restart at most,
and beyond them the one of its maker and one for every thirty seconds since.
-/
theorem launches_bounded {initial : InitialProcess} {origin : Nat}
    (run : Runs RunnerThread.step (fun _ _ => True) (start initial origin)
      thread) :
    thread.attempts ≤ initial.attempts + 7 * (1 + thread.restarts) +
      (thread.clock - origin) / maximumDelay := by
  have budgeted : thread.Budgeted initial.attempts origin :=
    run.invariant (fun _ _ _ budgeted _ moved => budgeted.step moved)
      (start_budgeted initial origin)
  obtain ⟨left, launches, -, paid⟩ := budgeted.paid
  have behind := launches_behind launches
  have cost : thread.attempts * maximumDelay + origin ≤
      initial.attempts * maximumDelay + launchCost * thread.restarts +
        7 * maximumDelay + thread.clock := by
    omega
  clear paid behind
  simp only [launchCost, maximumDelay] at cost ⊢
  omega

/-- Three launches fail and a process ends at once. -/
def crashingEvents : List RunnerEvent :=
  [.turn .failed false, .passes initialDelay, .turn .failed false,
    .turn .failed false, .passes (2 * initialDelay), .turn .failed false,
    .turn (.launched ⟨4208, 7⟩) false, .turn .failed false, .exits 0,
    .turn .failed true]

def crashingRunner : RunnerThread :=
  (execute RunnerThread.step (start (.launched .failed) 0) crashingEvents).getD
    (start (.launched .failed) 0)

theorem launches_bounded_crashing :
    crashingRunner.attempts ≤ 1 + 7 * (1 + crashingRunner.restarts) +
      (crashingRunner.clock - 0) / maximumDelay :=
  launches_bounded (execute_getD_runs (by decide +kernel))

end RunnerThread

end Susm.Host
