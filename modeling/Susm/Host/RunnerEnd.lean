import Susm.Host.RunnerProcesses

/-!
# The end of a runner

A runner that is told to end its session gives its process time to end by
itself, and one that is told to end or to detach takes a bounded number of turns
until its thread ends, whatever stands in front of that command.
-/

namespace Susm.Host

open Susm.Foundation

/-- A process that nobody has told to end. -/
@[simp] def RunnerPhase.spares : RunnerPhase → Bool
  | .adopting | .polling _ | .watching .. | .ending _ | .awaitingEnd .. => true
  | _ => false

namespace RunnerThread

variable {thread next told : RunnerThread} {event : RunnerEvent}
  {initial : InitialProcess}

/-! ## The process before it is told to end -/

def Spared (thread : RunnerThread) : Prop :=
  thread.phase.spares = true →
    ∀ process ∈ thread.processes.head?, process.terminated = false

theorem start_spared (initial : InitialProcess) (clock : Nat) :
    (start initial clock).Spared := by
  cases h : initial.identity <;> simp [start, h, Spared]

theorem terminated_exits {processes : List RunnerProcess} {index : Nat}
    {value : Bool}
    (before : ∀ process ∈ processes.head?, process.terminated = value) :
    ∀ process ∈ (processes.modify index
        fun process => { process with exited := true }).head?,
      process.terminated = value := by
  cases processes with
  | nil => cases index <;> exact before
  | cons first earlier =>
      cases index <;>
      · rintro _ ⟨⟩
        exact before first rfl

theorem Spared.turn (spared : thread.Spared) (turn : thread.Turn next) :
    next.Spared := by
  cases turn with
  | adopts phase | watches phase | polls phase | awaits phase | looks phase =>
      exact fun _ => spared (by simp [phase])
  | launches phase result =>
      cases result with
      | failed | unidentified => nofun
      | launched identity =>
          rintro - _ ⟨⟩
          rfl
  | @receives due command phase => cases command <;> nofun
  | @obeys launchedAt command phase =>
      cases command with
      | endSession => exact fun _ => spared (by simp [phase])
      | restart | detach => nofun
  | retries | leaves | settles | terminates | ends | replaces | kills => nofun

theorem Spared.step (spared : thread.Spared)
    (moved : thread.step event = some next) : next.Spared := by
  cases event with
  | passes time =>
      cases moved
      exact spared
  | exits index =>
      cases moved
      exact fun spares => terminated_exits (spared spares)
  | send command | drop =>
      obtain ⟨-, moved⟩ := Option.ite_none_right_eq_some.mp moved
      cases moved
      exact spared
  | turn result signaled => exact spared.turn (turn_cases moved)

theorem Begins.spared (begins : Begins initial thread) : thread.Spared := by
  obtain ⟨clock, run⟩ := begins
  exact run.invariant (fun _ _ _ spared _ moved => spared.step moved)
    (start_spared initial clock)

/-! ## The end of a session -/

/-- How far the end of the session has come. -/
def Stage (deadline : Nat) (thread : RunnerThread) : Prop :=
  match thread.phase with
  | .ending due | .awaitingEnd due _ => due = deadline
  | .terminating restarts _ => restarts = false
  | .finished => thread.identity = none
  | _ => False

/-- The thread has been told to end its session at the moment `told`. -/
structure Ending (told thread : RunnerThread) : Prop where
  attempts : thread.attempts = told.attempts
  same : thread.processes.map RunnerProcess.identity =
    told.processes.map RunnerProcess.identity
  grace : ∀ process ∈ thread.processes.head?, process.terminated = true →
    told.clock + endingTimeout ≤ thread.clock
  stage : thread.Stage (told.clock + endingTimeout)

theorem Ending.turn (ending : told.Ending thread) (turn : thread.Turn next) :
    told.Ending next := by
  obtain ⟨attempts, same, grace, stage⟩ := ending
  unfold Stage at stage
  cases turn with
  | awaits phase | looks phase =>
      rw [phase] at stage
      exact ⟨attempts, same, grace, stage⟩
  | terminates phase elapsed =>
      rw [phase] at stage
      refine ⟨attempts, ?_, fun _ _ _ => stage ▸ elapsed, rfl⟩
      exact (identities_of_marks (terminate_marks false)).trans same
  | ends phase | kills phase => exact ⟨attempts, same, grace, rfl⟩
  | adopts phase | launches phase | receives phase | retries phase
  | obeys phase | watches phase | polls phase | settles phase
  | replaces phase =>
      rw [phase] at stage
      cases stage
  | leaves phase =>
      rcases phase with ⟨due, phase⟩ | ⟨launchedAt, phase⟩ <;>
      · rw [phase] at stage
        cases stage

theorem Ending.step (ending : told.Ending thread)
    (moved : thread.step event = some next) : told.Ending next := by
  cases event with
  | passes time =>
      cases moved
      obtain ⟨attempts, same, grace, stage⟩ := ending
      refine ⟨attempts, same, fun process hmem terminated => ?_, stage⟩
      exact (grace process hmem terminated).trans (Nat.le_add_right _ _)
  | exits index =>
      cases moved
      obtain ⟨attempts, same, grace, stage⟩ := ending
      refine ⟨attempts, ?_, ?_, stage⟩
      · exact (identities_of_marks (exit_marks index)).trans same
      · intro process hmem terminated
        by_contra early
        have spared : ∀ process ∈ thread.processes.head?,
            process.terminated = false := fun process hmem =>
          Bool.eq_false_iff.mpr fun terminated =>
            early (grace process hmem terminated)
        rw [terminated_exits spared process hmem] at terminated
        cases terminated
  | send command | drop =>
      obtain ⟨-, moved⟩ := Option.ite_none_right_eq_some.mp moved
      cases moved
      exact ⟨ending.attempts, ending.same, ending.grace, ending.stage⟩
  | turn result signaled => exact ending.turn (turn_cases moved)

/--
A runner that has a process and takes the command to end its session launches no
other.  It does not tell the process to end before thirty seconds have passed,
and when its thread has ended, the process has ended or was told to, and this is
what the observer was told last.
-/
structure EndsSession (told thread : RunnerThread) : Prop where
  attempts : thread.attempts = told.attempts
  same : thread.processes.map RunnerProcess.identity =
    told.processes.map RunnerProcess.identity
  grace : ∀ process ∈ thread.processes.head?, process.terminated = true →
    told.clock + endingTimeout ≤ thread.clock
  atEnd : thread.phase = .finished →
    (∀ process ∈ thread.processes, process.IsDone) ∧
      thread.identity = none ∧ thread.observed.head? = some none

theorem session_end {before : RunnerThread} {launchedAt : Nat}
    {result : LaunchResult} {signaled : Bool} (begins : Begins initial before)
    (phase : before.phase = .polling launchedAt)
    (command : before.commands.head? = some .endSession)
    (taken : before.turn result signaled = some told)
    (run : Runs RunnerThread.step (fun _ _ => True) told thread) :
    told.EndsSession thread := by
  have spared := begins.spared (by simp [phase])
  have obeyed : told = before.obey .endSession := by
    rw [RunnerThread.turn, phase] at taken
    dsimp only at taken
    rw [command] at taken
    exact (Option.some.inj taken).symm
  have start : told.Ending told := by
    subst obeyed
    refine ⟨rfl, rfl, fun process hmem terminated => ?_, rfl⟩
    rw [spared process hmem] at terminated
    cases terminated
  have ending : told.Ending thread :=
    run.invariant (fun _ _ _ ending _ moved => ending.step moved) start
  have kept : thread.Kept := by
    obtain ⟨clock, begun⟩ := begins
    have moved : before.step (.turn result signaled) = some told := taken
    exact Begins.kept ⟨clock, (begun.tail trivial moved).trans run⟩
  refine ⟨ending.attempts, ending.same, ending.grace, fun finished => ?_⟩
  have stage := ending.stage
  rw [Stage, finished] at stage
  exact ⟨kept.free stage, stage, stage ▸ kept.shown⟩

def endingRunner : RunnerThread :=
  (execute RunnerThread.step restartedRunner
    [.send .restart, .send .endSession]).getD restartedRunner

theorem endingRunner_begins : Begins (.launched .failed) endingRunner := by
  obtain ⟨clock, run⟩ := restartedRunner_begins
  exact ⟨clock, run.trans (execute_getD_runs (by decide +kernel))⟩

def replacedEvents : List RunnerEvent :=
  [.turn .failed false, .exits 0, .turn .failed true,
    .turn (.launched ⟨4400, 9⟩) false]

/-- The restart has been carried out. -/
def replacedRunner : RunnerThread :=
  (execute RunnerThread.step endingRunner replacedEvents).getD endingRunner

theorem replacedRunner_begins : Begins (.launched .failed) replacedRunner := by
  obtain ⟨clock, run⟩ := endingRunner_begins
  exact ⟨clock, run.trans (execute_getD_runs (by decide +kernel))⟩

def toldRunner : RunnerThread :=
  (replacedRunner.step (.turn .failed false)).getD replacedRunner

def endedEvents : List RunnerEvent :=
  [.turn .failed false, .exits 0, .turn .failed true]

def endedRunner : RunnerThread :=
  (execute RunnerThread.step toldRunner endedEvents).getD toldRunner

theorem session_end_replaced : toldRunner.EndsSession endedRunner := by
  have phase : replacedRunner.phase = .polling initialDelay := by
    decide +kernel
  have taken : replacedRunner.turn .failed false = some toldRunner := by
    decide +kernel
  exact session_end replacedRunner_begins phase (by decide +kernel) taken
    (execute_getD_runs (by decide +kernel))

/-! ## Joining the thread -/

/-- A command that ends the thread. -/
@[simp] def isFinal : RunnerCommand → Bool
  | .restart => false
  | .endSession | .detach => true

/-- The restarts in front of the first such command. -/
def ahead (commands : List RunnerCommand) : Nat :=
  (commands.takeWhile fun command => !isFinal command).length

def waitsUntil (deadline moment : Nat) : Nat :=
  (deadline - moment + (pollInterval - 1)) / pollInterval

/-- An upper bound for the turns until the thread ends, by its phase. -/
@[simp] def turnsFrom (ahead clock : Nat) : RunnerPhase → Nat
  | .adopting | .launching | .watching .. => 4 * ahead + 244
  | .backingOff _ | .polling _ => 4 * ahead + 243
  | .terminating true _ => 4 * ahead + 245
  | .ending deadline => 2 * waitsUntil deadline clock + 2
  | .awaitingEnd deadline due => 2 * waitsUntil deadline due + 3
  | .terminating false _ => 1
  | .finished => 0

def turnsLeft (thread : RunnerThread) : Nat :=
  turnsFrom (ahead thread.commands) thread.clock thread.phase

/-- The thread takes no command any more, or one that ends it waits. -/
def Leaving (thread : RunnerThread) : Prop :=
  match thread.phase with
  | .ending _ | .awaitingEnd .. | .terminating false _ | .finished => True
  | _ => ∃ command ∈ thread.commands, isFinal command = true

theorem restart_taken
    (waiting : ∃ command ∈ thread.commands, isFinal command = true)
    (next : thread.commands.head? = some .restart) :
    (∃ command ∈ thread.commands.tail, isFinal command = true) ∧
      ahead thread.commands.tail + 1 = ahead thread.commands := by
  obtain ⟨later, hcommands⟩ := List.head?_eq_some_iff.mp next
  rw [ahead, ahead, hcommands]
  rw [hcommands] at waiting
  exact ⟨by simpa using waiting, by simp⟩

theorem waitsUntil_full (moment : Nat) :
    waitsUntil (moment + endingTimeout) moment = 120 := by
  rw [waitsUntil, Nat.add_sub_cancel_left]
  rfl

theorem waitsUntil_next {deadline moment : Nat} (early : moment < deadline) :
    waitsUntil deadline (moment + pollInterval) + 1 =
      waitsUntil deadline moment := by
  simp only [waitsUntil, pollInterval]
  omega

theorem waitsUntil_le {deadline moment later : Nat} (grows : moment ≤ later) :
    waitsUntil deadline later ≤ waitsUntil deadline moment := by
  refine Nat.div_le_div_right ?_
  omega

theorem turnsLeft_lt {phase : RunnerPhase} {next : RunnerThread}
    (now : thread.phase = phase)
    (fewer : turnsFrom (ahead next.commands) next.clock next.phase <
      turnsFrom (ahead thread.commands) thread.clock phase) :
    next.turnsLeft < thread.turnsLeft := by
  rw [turnsLeft, turnsLeft, now]
  exact fewer

theorem Leaving.turn (leaving : thread.Leaving) (turn : thread.Turn next) :
    next.Leaving ∧ next.turnsLeft < thread.turnsLeft := by
  unfold Leaving at leaving
  cases turn with
  | adopts phase | polls phase | settles phase | replaces phase =>
      rw [phase] at leaving
      refine ⟨leaving, turnsLeft_lt phase ?_⟩
      exact Nat.lt_succ_self _
  | launches phase result =>
      rw [phase] at leaving
      cases result <;> exact ⟨leaving, turnsLeft_lt phase (Nat.lt_succ_self _)⟩
  | @receives due command phase head =>
      rw [phase] at leaving
      cases command with
      | restart =>
          obtain ⟨waiting, fewer⟩ := restart_taken leaving head
          refine ⟨waiting, turnsLeft_lt phase ?_⟩
          change 4 * ahead thread.commands.tail + 244 <
            4 * ahead thread.commands + 243
          omega
      | endSession | detach =>
          exact ⟨trivial, turnsLeft_lt phase (Nat.succ_pos _)⟩
  | @obeys launchedAt command phase head =>
      rw [phase] at leaving
      cases command with
      | restart =>
          obtain ⟨waiting, fewer⟩ := restart_taken leaving head
          refine ⟨waiting, turnsLeft_lt phase ?_⟩
          change 4 * ahead thread.commands.tail + 245 <
            4 * ahead thread.commands + 243
          omega
      | endSession =>
          refine ⟨trivial, turnsLeft_lt phase ?_⟩
          change 2 * waitsUntil (thread.clock + endingTimeout) thread.clock +
            2 < _
          rw [waitsUntil_full, turnsFrom]
          omega
      | detach => exact ⟨trivial, turnsLeft_lt phase (Nat.succ_pos _)⟩
  | retries phase none | watches phase none =>
      rw [phase, none] at leaving
      simp at leaving
  | leaves phase none =>
      rcases phase with ⟨due, phase⟩ | ⟨launchedAt, phase⟩ <;>
      · rw [phase, none] at leaving
        simp at leaving
  | @awaits deadline phase early =>
      refine ⟨trivial, turnsLeft_lt phase ?_⟩
      have next := waitsUntil_next early
      change 2 * waitsUntil deadline (thread.clock + pollInterval) + 3 <
        2 * waitsUntil deadline thread.clock + 2
      omega
  | terminates phase =>
      exact ⟨trivial, turnsLeft_lt phase (Nat.le_add_left _ _)⟩
  | @looks deadline due phase elapsed =>
      refine ⟨trivial, turnsLeft_lt phase ?_⟩
      have fewer : waitsUntil deadline thread.clock ≤
          waitsUntil deadline due := waitsUntil_le elapsed
      change 2 * waitsUntil deadline thread.clock + 2 <
        2 * waitsUntil deadline due + 3
      omega
  | ends phase | kills phase =>
      exact ⟨trivial, turnsLeft_lt phase (Nat.succ_pos _)⟩

theorem waiting_append {commands : List RunnerCommand}
    (waiting : ∃ command ∈ commands, isFinal command = true)
    (more : List RunnerCommand) :
    (∃ command ∈ commands ++ more, isFinal command = true) ∧
      ahead (commands ++ more) = ahead commands := by
  induction commands with
  | nil => simp at waiting
  | cons command later ih =>
      cases command with
      | restart =>
          have rest := ih (by simpa using waiting)
          refine ⟨by simpa using rest.1, ?_⟩
          simpa [ahead] using rest.2
      | endSession | detach => exact ⟨⟨_, List.mem_cons_self, rfl⟩, rfl⟩

theorem Leaving.send (leaving : thread.Leaving) (more : List RunnerCommand)
    (connected : Bool) :
    Leaving { thread with
      commands := thread.commands ++ more, connected := connected } ∧
    turnsLeft { thread with
      commands := thread.commands ++ more, connected := connected } ≤
      thread.turnsLeft := by
  unfold Leaving turnsLeft at *
  dsimp only
  split at leaving
  · simp_all
  · simp_all
  · simp_all
  · simp_all
  · obtain ⟨waiting, same⟩ := waiting_append leaving more
    rw [same]
    exact ⟨waiting, le_rfl⟩

def isTurn : RunnerEvent → Bool
  | .turn .. => true
  | _ => false

theorem Leaving.others (leaving : thread.Leaving)
    (others : isTurn event = false) (moved : thread.step event = some next) :
    next.Leaving ∧ next.turnsLeft ≤ thread.turnsLeft := by
  cases event with
  | passes time =>
      cases moved
      refine ⟨leaving, ?_⟩
      cases hphase : thread.phase with
      | ending deadline =>
          have fewer : waitsUntil deadline (thread.clock + time) ≤
              waitsUntil deadline thread.clock :=
            waitsUntil_le (Nat.le_add_right _ _)
          simp only [turnsLeft, hphase, turnsFrom]
          omega
      | terminating restarts due =>
          cases restarts <;> simp [turnsLeft, hphase]
      | _ => simp [turnsLeft, hphase]
  | exits index =>
      cases moved
      exact ⟨leaving, le_rfl⟩
  | send command | drop =>
      obtain ⟨-, moved⟩ := Option.ite_none_right_eq_some.mp moved
      cases moved
      exact leaving.send _ _
  | turn result signaled => cases others

theorem turns_le {events : List RunnerEvent} (leaving : thread.Leaving)
    (executed : execute RunnerThread.step thread events = some next) :
    events.countP isTurn + next.turnsLeft ≤ thread.turnsLeft := by
  induction events generalizing thread with
  | nil =>
      cases executed
      simp
  | cons event events ih =>
      obtain ⟨middle, moved, rest⟩ := Option.bind_eq_some_iff.mp executed
      cases hturn : isTurn event with
      | true =>
          obtain ⟨result, signaled, rfl⟩ :
              ∃ result signaled, event = .turn result signaled := by
            cases event with
            | turn result signaled => exact ⟨result, signaled, rfl⟩
            | _ => cases hturn
          obtain ⟨leaving, fewer⟩ := leaving.turn (turn_cases moved)
          have later := ih leaving rest
          rw [List.countP_cons_of_pos hturn]
          omega
      | false =>
          obtain ⟨leaving, fewer⟩ := leaving.others hturn moved
          have later := ih leaving rest
          rw [List.countP_cons_of_neg (by simp [hturn])]
          omega

/-- The thread goes on at the latest when its wait is over. -/
def CanTurn (thread : RunnerThread) : Prop :=
  ∃ time, ∀ result, (turn result false
    { thread with clock := thread.clock + time }).isSome = true

theorem canTurn_of_ne (going : thread.phase ≠ .finished) :
    thread.CanTurn := by
  cases hphase : thread.phase with
  | adopting | launching | ending => exact ⟨0, by simp [turn, hphase]⟩
  | backingOff due =>
      refine ⟨due, fun result => ?_⟩
      simp only [turn, hphase]
      split
      · rfl
      · rw [if_pos (Nat.le_add_left due thread.clock)]
        split <;> rfl
  | polling launchedAt =>
      refine ⟨0, fun result => ?_⟩
      simp only [turn, hphase]
      split
      · rfl
      · split <;> rfl
  | watching _ due | awaitingEnd _ due | terminating _ due =>
      exact ⟨due, by simp [turn, hphase, woken]⟩
  | finished => exact absurd hphase going

/-- No deadline is further away than when it was set. -/
def Timed (thread : RunnerThread) : Prop :=
  match thread.phase with
  | .ending deadline => deadline ≤ thread.clock + endingTimeout
  | .awaitingEnd deadline due => deadline + pollInterval ≤ due + endingTimeout
  | _ => True

theorem Timed.turn (timed : thread.Timed) (turn : thread.Turn next) :
    next.Timed := by
  unfold Timed at timed
  cases turn with
  | launches phase result => cases result <;> exact trivial
  | @receives due command => cases command <;> exact trivial
  | @obeys launchedAt command =>
      cases command with
      | endSession => exact le_rfl
      | restart | detach => exact trivial
  | awaits phase early =>
      rw [phase] at timed
      change _ + pollInterval ≤ thread.clock + pollInterval + endingTimeout
      omega
  | looks phase elapsed =>
      rw [phase] at timed
      change _ ≤ thread.clock + endingTimeout
      dsimp only at timed
      omega
  | _ => exact trivial

theorem Timed.step (timed : thread.Timed)
    (moved : thread.step event = some next) : next.Timed := by
  cases event with
  | passes time =>
      cases moved
      unfold Timed at *
      dsimp only
      split at timed <;> omega
  | exits index =>
      cases moved
      exact timed
  | send command | drop =>
      obtain ⟨-, moved⟩ := Option.ite_none_right_eq_some.mp moved
      cases moved
      exact timed
  | turn result signaled => exact timed.turn (turn_cases moved)

theorem Timed.turnsLeft_le (timed : thread.Timed) :
    thread.turnsLeft ≤ 4 * thread.commands.length + 245 := by
  have few : ahead thread.commands ≤ thread.commands.length :=
    (List.takeWhile_prefix _).length_le
  unfold Timed at timed
  rw [turnsLeft]
  cases hphase : thread.phase with
  | ending deadline =>
      rw [hphase] at timed
      simp only [turnsFrom, waitsUntil, pollInterval]
      simp only [endingTimeout] at timed
      omega
  | awaitingEnd deadline due =>
      rw [hphase] at timed
      simp only [turnsFrom, waitsUntil, pollInterval]
      simp only [endingTimeout, pollInterval] at timed
      omega
  | terminating restarts due =>
      cases restarts <;> simp only [turnsFrom] <;> omega
  | _ =>
      simp only [turnsFrom]
      omega

/--
Once a runner has been told to end its session or to detach, its thread takes
four turns for each command in front of that and 245 others at most, and as long
as it has not ended it can always go on.
-/
theorem thread_joins {events : List RunnerEvent}
    (begins : Begins initial thread)
    (waiting : ∃ command ∈ thread.commands, isFinal command = true)
    (executed : execute RunnerThread.step thread events = some next) :
    events.countP isTurn ≤ 4 * thread.commands.length + 245 ∧
      (next.phase ≠ .finished → next.CanTurn) := by
  have timed : thread.Timed := by
    obtain ⟨clock, run⟩ := begins
    refine run.invariant (fun _ _ _ timed _ moved => timed.step moved) ?_
    unfold Timed start
    cases initial.identity <;> exact trivial
  have leaving : thread.Leaving := by
    unfold Leaving
    split <;> first | exact trivial | exact waiting
  have turns := turns_le leaving executed
  have few := timed.turnsLeft_le
  exact ⟨by omega, canTurn_of_ne⟩

theorem thread_joins_ending :
    (replacedEvents ++ .turn .failed false :: endedEvents).countP isTurn ≤
        4 * endingRunner.commands.length + 245 ∧
      (endedRunner.phase ≠ .finished → endedRunner.CanTurn) :=
  thread_joins endingRunner_begins (by decide +kernel) (by decide +kernel)

end RunnerThread

end Susm.Host
