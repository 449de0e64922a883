import Susm.Foundation.Transition
import Susm.Host.HostRpc

/-!
# The thread of a runner

A runner keeps the controller of one logon running.  Its thread launches a
process, polls for commands while the process runs and backs off when it has
ended or could not be launched.  Time is in nanoseconds.
-/

namespace Susm.Host

open Susm.Foundation

inductive RunnerCommand where
  | restart
  | endSession
  | detach
  deriving DecidableEq, Repr

structure RunnerProcess where
  identity : ProcessIdentity
  exited : Bool
  /-- `TerminateProcess` was called on it. -/
  terminated : Bool
  deriving DecidableEq, Repr

inductive LaunchResult where
  | failed
  /-- There is a process, but its time of creation could not be read. -/
  | unidentified
  | launched (identity : ProcessIdentity)
  deriving DecidableEq, Repr

/-- What `from_token` begins with: a process it adopts, or its own launch. -/
inductive InitialProcess where
  | adopted (identity : ProcessIdentity)
  | launched (result : LaunchResult)
  deriving DecidableEq, Repr

/-- Where `run_controller` stands; it is about a process from `polling` on. -/
inductive RunnerPhase where
  | adopting
  | launching
  | backingOff (due : Nat)
  | polling (launchedAt : Nat)
  | watching (launchedAt due : Nat)
  | ending (deadline : Nat)
  | awaitingEnd (deadline due : Nat)
  | terminating (restarts : Bool) (due : Nat)
  | finished
  deriving DecidableEq, Repr

def initialDelay : Nat := 250 * 10 ^ 6

def maximumDelay : Nat := 30 * 10 ^ 9

/-- A process that lived this long resets the delay. -/
def settledAfter : Nat := 300 * 10 ^ 9

/-- How long one wait for a process lasts between two looks at the commands. -/
def pollInterval : Nat := 250 * 10 ^ 6

/-- What a process is given to end after the end of its session. -/
def endingTimeout : Nat := 30 * 10 ^ 9

def terminationTimeout : Nat := 5 * 10 ^ 9

/--
The thread with its channel and the processes it has held, the last one first;
what others read as the identity of its process, and what its observer was told,
the last first.  The numbers of launches it has tried and of restarts it was
told are counted.
-/
structure RunnerThread where
  phase : RunnerPhase
  delay : Nat
  commands : List RunnerCommand
  connected : Bool
  processes : List RunnerProcess
  /-- Processes that the thread does not know. -/
  strays : Nat
  identity : Option ProcessIdentity
  observed : List (Option ProcessIdentity)
  clock : Nat
  attempts : Nat
  restarts : Nat
  deriving DecidableEq, Repr

inductive RunnerEvent where
  | passes (time : Nat)
  /-- One of the processes ends, for whatever reason. -/
  | exits (index : Nat)
  | send (command : RunnerCommand)
  /-- The runner is dropped. -/
  | drop
  /-- The thread goes on; a wait has ended by its process or by its time. -/
  | turn (launch : LaunchResult) (signaled : Bool)
  deriving DecidableEq, Repr

namespace InitialProcess

def identity : InitialProcess → Option ProcessIdentity
  | .adopted identity | .launched (.launched identity) => some identity
  | .launched _ => none

def attempts : InitialProcess → Nat
  | .adopted _ => 0
  | .launched _ => 1

def strays : InitialProcess → Nat
  | .launched .unidentified => 1
  | _ => 0

end InitialProcess

namespace RunnerThread

/-- The thread that `from_token` makes. -/
def start (initial : InitialProcess) (clock : Nat) : RunnerThread where
  phase := if initial.identity.isSome then .adopting else .launching
  delay := initialDelay
  commands := []
  connected := true
  processes := initial.identity.toList.map
    fun identity => ⟨identity, false, false⟩
  strays := initial.strays
  identity := initial.identity
  observed := [initial.identity]
  clock := clock
  attempts := initial.attempts
  restarts := 0

/-- The present process has ended. -/
def exited (thread : RunnerThread) : Bool :=
  thread.processes.head?.any RunnerProcess.exited

/-- The present process is made known. -/
def hold (identity : Option ProcessIdentity) (thread : RunnerThread) :
    RunnerThread :=
  { thread with
    phase := .polling thread.clock
    identity := identity
    observed := identity :: thread.observed }

/-- There is no present process any more. -/
def release (phase : RunnerPhase) (thread : RunnerThread) : RunnerThread :=
  { thread with
    phase := phase
    identity := none
    observed := none :: thread.observed }

def terminate (restarts : Bool) (thread : RunnerThread) : RunnerThread :=
  { thread with
    phase := .terminating restarts (thread.clock + terminationTimeout)
    processes := thread.processes.modifyHead
      fun process => { process with terminated := true } }

def backOff (thread : RunnerThread) : RunnerThread :=
  { thread with phase := .backingOff (thread.clock + thread.delay) }

/-- `selected_controller` and `launch` -/
def launch (result : LaunchResult) (thread : RunnerThread) : RunnerThread :=
  let thread := { thread with attempts := thread.attempts + 1 }
  match result with
  | .failed => thread.backOff
  | .unidentified => { thread with strays := thread.strays + 1 }.backOff
  | .launched identity =>
      { thread with
        processes := ⟨identity, false, false⟩ :: thread.processes }.hold
          (some identity)

/-- The present process has ended by itself. -/
def settle (launchedAt : Nat) (thread : RunnerThread) : RunnerThread :=
  ({ thread with
    delay := if launchedAt + settledAfter ≤ thread.clock then initialDelay
      else thread.delay }.release .launching).backOff

/-- What is received while there is no process; nothing for a timeout. -/
def receive (command : Option RunnerCommand) (thread : RunnerThread) :
    RunnerThread :=
  match command with
  | some .restart =>
      { thread with
        phase := .launching
        delay := initialDelay
        commands := thread.commands.tail
        restarts := thread.restarts + 1 }
  | some _ =>
      { thread with phase := .finished, commands := thread.commands.tail }
  | none =>
      { thread with
        phase := .launching
        delay := min (thread.delay * 2) maximumDelay }

/-- A command that is received while there is a process. -/
def obey (command : RunnerCommand) (thread : RunnerThread) : RunnerThread :=
  let thread := { thread with commands := thread.commands.tail }
  match command with
  | .endSession =>
      { thread with phase := .ending (thread.clock + endingTimeout) }
  | .detach => { thread with phase := .finished }
  | .restart =>
      { thread with restarts := thread.restarts + 1 }.terminate true

/-- The wait has ended as it is said. -/
def woken (signaled : Bool) (due : Nat) (thread : RunnerThread) : Bool :=
  if signaled then thread.exited else decide (due ≤ thread.clock)

/-- The next step of `run_controller`; nothing while it waits. -/
def turn (result : LaunchResult) (signaled : Bool) (thread : RunnerThread) :
    Option RunnerThread :=
  match thread.phase with
  | .adopting => some (thread.hold thread.identity)
  | .launching => some (thread.launch result)
  | .backingOff due =>
      match thread.commands.head? with
      | some command => some (thread.receive (some command))
      | none =>
          if thread.connected = false then
            some { thread with phase := .finished }
          else if due ≤ thread.clock then some (thread.receive none)
          else none
  | .polling launchedAt =>
      match thread.commands.head? with
      | some command => some (thread.obey command)
      | none =>
          if thread.connected = false then
            some { thread with phase := .finished }
          else some
            { thread with
              phase := .watching launchedAt (thread.clock + pollInterval) }
  | .watching launchedAt due =>
      if thread.woken signaled due then
        some (if signaled then thread.settle launchedAt
          else { thread with phase := .polling launchedAt })
      else none
  | .ending deadline =>
      some (if thread.clock < deadline then
        { thread with
          phase := .awaitingEnd deadline (thread.clock + pollInterval) }
        else thread.terminate false)
  | .awaitingEnd deadline due =>
      if thread.woken signaled due then
        some (if signaled then thread.release .finished
          else { thread with phase := .ending deadline })
      else none
  | .terminating restarts due =>
      if thread.woken signaled due then
        some (if restarts then
          { thread with delay := initialDelay }.release .launching
          else thread.release .finished)
      else none
  | .finished => none

def step (thread : RunnerThread) : RunnerEvent → Option RunnerThread
  | .passes time => some { thread with clock := thread.clock + time }
  | .exits index => some
      { thread with
        processes := thread.processes.modify index
          fun process => { process with exited := true } }
  | .send command =>
      if thread.connected then
        some { thread with commands := thread.commands ++ [command] }
      else none
  | .drop =>
      if thread.connected then
        some
          { thread with
            commands := thread.commands ++ [.detach]
            connected := false }
      else none
  | .turn result signaled => thread.turn result signaled

/-! ## The turns of the thread -/

/-- A step of `run_controller`. -/
inductive Turn (thread : RunnerThread) : RunnerThread → Prop where
  | adopts (phase : thread.phase = .adopting) :
      Turn thread (thread.hold thread.identity)
  | launches (phase : thread.phase = .launching) (result : LaunchResult) :
      Turn thread (thread.launch result)
  | receives {due : Nat} {command : RunnerCommand}
      (phase : thread.phase = .backingOff due)
      (next : thread.commands.head? = some command) :
      Turn thread (thread.receive (some command))
  | retries {due : Nat} (phase : thread.phase = .backingOff due)
      (none : thread.commands = []) (elapsed : due ≤ thread.clock) :
      Turn thread (thread.receive Option.none)
  | obeys {launchedAt : Nat} {command : RunnerCommand}
      (phase : thread.phase = .polling launchedAt)
      (next : thread.commands.head? = some command) :
      Turn thread (thread.obey command)
  | leaves (phase : (∃ due, thread.phase = .backingOff due) ∨
        ∃ launchedAt, thread.phase = .polling launchedAt)
      (none : thread.commands = []) (dropped : thread.connected = false) :
      Turn thread { thread with phase := .finished }
  | watches {launchedAt : Nat} (phase : thread.phase = .polling launchedAt)
      (none : thread.commands = []) :
      Turn thread
        { thread with
          phase := .watching launchedAt (thread.clock + pollInterval) }
  | polls {launchedAt due : Nat}
      (phase : thread.phase = .watching launchedAt due)
      (elapsed : due ≤ thread.clock) :
      Turn thread { thread with phase := .polling launchedAt }
  | settles {launchedAt due : Nat}
      (phase : thread.phase = .watching launchedAt due)
      (exited : thread.exited = true) :
      Turn thread (thread.settle launchedAt)
  | awaits {deadline : Nat} (phase : thread.phase = .ending deadline)
      (early : thread.clock < deadline) :
      Turn thread
        { thread with
          phase := .awaitingEnd deadline (thread.clock + pollInterval) }
  | terminates {deadline : Nat} (phase : thread.phase = .ending deadline)
      (elapsed : deadline ≤ thread.clock) :
      Turn thread (thread.terminate false)
  | looks {deadline due : Nat}
      (phase : thread.phase = .awaitingEnd deadline due)
      (elapsed : due ≤ thread.clock) :
      Turn thread { thread with phase := .ending deadline }
  | ends {deadline due : Nat}
      (phase : thread.phase = .awaitingEnd deadline due)
      (exited : thread.exited = true) :
      Turn thread (thread.release .finished)
  | replaces {due : Nat} (phase : thread.phase = .terminating true due)
      (ends : thread.exited = true ∨ due ≤ thread.clock) :
      Turn thread ({ thread with delay := initialDelay }.release .launching)
  | kills {due : Nat} (phase : thread.phase = .terminating false due)
      (ends : thread.exited = true ∨ due ≤ thread.clock) :
      Turn thread (thread.release .finished)

variable {thread next : RunnerThread} {result : LaunchResult}
  {signaled : Bool}

theorem turn_cases (turned : thread.turn result signaled = some next) :
    thread.Turn next := by
  unfold turn at turned
  split at turned
  · rename_i hphase
    cases turned
    exact .adopts hphase
  · rename_i hphase
    cases turned
    exact .launches hphase result
  · rename_i due hphase
    split at turned
    · rename_i command hnext
      cases turned
      exact .receives hphase hnext
    · rename_i hnone
      rw [List.head?_eq_none_iff] at hnone
      split at turned
      · rename_i hdropped
        cases turned
        exact .leaves (.inl ⟨due, hphase⟩) hnone hdropped
      · split at turned
        · rename_i helapsed
          cases turned
          exact .retries hphase hnone helapsed
        · cases turned
  · rename_i launchedAt hphase
    split at turned
    · rename_i command hnext
      cases turned
      exact .obeys hphase hnext
    · rename_i hnone
      rw [List.head?_eq_none_iff] at hnone
      split at turned
      · rename_i hdropped
        cases turned
        exact .leaves (.inr ⟨launchedAt, hphase⟩) hnone hdropped
      · cases turned
        exact .watches hphase hnone
  · rename_i hphase
    split at turned
    · rename_i hwoken
      cases turned
      cases signaled with
      | true => exact .settles hphase hwoken
      | false => exact .polls hphase (of_decide_eq_true hwoken)
    · cases turned
  · rename_i hphase
    cases turned
    split
    · rename_i hearly
      exact .awaits hphase hearly
    · rename_i hlate
      exact .terminates hphase (not_lt.mp hlate)
  · rename_i hphase
    split at turned
    · rename_i hwoken
      cases turned
      cases signaled with
      | true => exact .ends hphase hwoken
      | false => exact .looks hphase (of_decide_eq_true hwoken)
    · cases turned
  · rename_i restarts due hphase
    split at turned
    · rename_i hwoken
      cases turned
      have hover : thread.exited = true ∨ due ≤ thread.clock := by
        cases signaled with
        | true => exact .inl hwoken
        | false => exact .inr (of_decide_eq_true hwoken)
      cases restarts with
      | true => exact .replaces hphase hover
      | false => exact .kills hphase hover
    · cases turned
  · cases turned

end RunnerThread

end Susm.Host
