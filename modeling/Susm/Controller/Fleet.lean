import Susm.Controller.PolicySync
import Susm.Supervisor.Policy
import Susm.Supervisor.SegmentWriter

/-!
# Policies in force

Beside the world, the policy that each supervisor process enforces.  Its link
puts the policies that arrive on a watch channel, and the runner and the log
writer of an attempt take the latest one from there at any time.  A process
begins with the policy of its specification, and its journal brings none back.
-/

namespace Susm.Controller

open Susm.Foundation
open Susm.Protocol
open Susm.Supervisor

/-! ## Supervisor processes -/

/-- A configuration, and the policy on the watch channel that the holder of the
configuration has not yet seen. -/
structure PolicyCopy where
  configuration : ExecutionConfiguration
  unseen : Option PolicyUpdate
  deriving DecidableEq, Repr

/-- `policy.send_replace(...)` for one receiver. -/
def PolicyCopy.notify (copy : PolicyCopy) (update : PolicyUpdate) : PolicyCopy :=
  { copy with unseen := some update }

/--
A supervisor process: the runner, the log writer while an attempt runs, the
attachment that the link listens to, and the commands that have arrived there.
-/
structure Enforcer where
  runner : PolicyCopy
  writer : Option PolicyCopy
  link : Option String
  inbox : List ExecutionCommand
  deriving DecidableEq, Repr

namespace Enforcer

/-- `main` with the specification file. -/
def start (configuration : ExecutionConfiguration) : Enforcer :=
  ⟨⟨configuration, none⟩, none, none, []⟩

/-- The link reads a command. -/
def receive (enforcer : Enforcer) : Option Enforcer :=
  match enforcer.inbox with
  | [] => none
  | .updatePolicy update :: rest => some
      { enforcer with
        runner := enforcer.runner.notify update
        writer := enforcer.writer.map (·.notify update)
        inbox := rest }
  | .stop :: rest | .sessionEnding :: rest =>
      some { enforcer with inbox := rest }

/-- The connection of the link is gone, with what was not read from it. -/
def disconnect (enforcer : Enforcer) : Enforcer :=
  { enforcer with link := none, inbox := [] }

/-- The runner takes a policy, and keeps it when its checkpoint is written.  A
checkpoint that fails while no attempt runs ends the process besides. -/
def apply (checkpointed : Bool) (enforcer : Enforcer) :
    Option (PolicyUpdate × Enforcer) :=
  enforcer.runner.unseen.map fun update =>
    (update,
      { enforcer with
        runner :=
          { configuration :=
              if checkpointed then
                applyPolicy enforcer.runner.configuration update
              else enforcer.runner.configuration
            unseen := none } })

/-- An attempt begins: its log writer has a copy of what the runner has. -/
def startWriter (enforcer : Enforcer) : Option Enforcer :=
  match enforcer.writer with
  | some _ => none
  | none => some { enforcer with writer := some enforcer.runner }

def applyLogging (enforcer : Enforcer) : Option Enforcer :=
  enforcer.writer.bind fun writer =>
    writer.unseen.map fun update =>
      { enforcer with
        writer := some
          ⟨applyLoggingPolicy writer.configuration update, none⟩ }

def endWriter (enforcer : Enforcer) : Enforcer :=
  { enforcer with writer := none }

end Enforcer

structure AppliedPolicy where
  executionId : String
  sequence : Nat
  detail : String
  deriving DecidableEq, Repr

/-! ## The world of a fleet -/

namespace World

def receiver (world : World) (attachmentId : String) : Option Receiver :=
  world.controller.bind fun manager => manager.state.receiver attachmentId

def stream (world : World) (attachmentId : String) : List ExecutionCommand :=
  ((world.receiver attachmentId).map Receiver.stream).getD []

/-- What an attachment has still to put on its stream. -/
def queue (world : World) (attachmentId : String) : List ExecutionCommand :=
  ((world.receiver attachmentId).map Receiver.queue).getD []

/-- The run that starts a supervisor process. -/
def launches (world : World) (event : Event) : Option RunExecution :=
  match event, world.advancedTask event with
  | .advance _ answer, some (.runLoop run) =>
      if answer.spawned.isSome ∧ world.controller.all fun manager =>
          !manager.state.isCancelled run.executionId then some run
      else none
  | _, _ => none

/-- The request and the identifier of a new attachment. -/
def subscribes (world next : World) (event : Event) :
    Option (Hello × String) :=
  match event, world.advancedTask event with
  | .advance _ answer, some (.attachSupervisor hello _) =>
      if (world.receiver answer.uuid).isNone ∧
          (next.receiver answer.uuid).isSome then some (hello, answer.uuid)
      else none
  | _, _ => none

/-- The acknowledgement of a policy that arrives. -/
def reports (world : World) (event : Event) : Option AppliedPolicy :=
  match event, world.advancedTask event with
  | .advance _ answer, some (.stream _ executionId) =>
      answer.observation.bind fun observation =>
        if observation.kind = .policyApplied then
          some ⟨executionId, observation.sequence, observation.detail⟩
        else none
  | _, _ => none

def closes (world : World) (event : Event) : Option String :=
  (world.advancedTask event).bind ManagerTask.closes

section Attachments

variable {host : Host} {world next : World} {event : Event}
  {attachmentId : String}

theorem receiver_eq {manager : Manager}
    (running : world.controller = some manager) :
    world.receiver attachmentId = manager.state.receiver attachmentId := by
  rw [receiver, running, Option.bind_some]

theorem Moved.receiver (moved : Moved host world event next)
    {receiver : Receiver}
    (found : world.receiver attachmentId = some receiver) :
    world.closes event = some attachmentId ∨ next.controller = none ∨
      ∃ manager grown, next.controller = some manager ∧
        next.receiver attachmentId = some grown ∧
        receiver.Grows (manager.state.Sends receiver.executionId) grown := by
  obtain ⟨manager, running, hreceiver⟩ := Option.bind_eq_some_iff.mp found
  cases moved with
  | elapsed | processExited =>
      exact .inr (.inr ⟨manager, receiver, running, found, .refl receiver⟩)
  | controllerExited => exact .inr (.inl rfl)
  | startup closed => cases closed.symm.trans running
  | command controller serving =>
      cases running.symm.trans controller
      obtain ⟨grown, hgrown, grows⟩ :=
        @Command.keeps host manager.session _ (world.situation manager) _ _
          receiver hreceiver
      exact .inr (.inr ⟨_, grown, rfl, hgrown, grows⟩)
  | attach controller serving =>
      cases running.symm.trans controller
      exact .inr (.inr ⟨_, receiver, rfl, hreceiver, .refl receiver⟩)
  | @advance index answer _ task outcome controller taken made =>
      cases running.symm.trans controller
      by_cases hcloses : task.closes = some attachmentId
      · left
        rw [closes, advancedTask_eq running taken, Option.bind_some, hcloses]
      · obtain ⟨grown, hgrown, grows⟩ :=
          made.keeps hcloses receiver hreceiver
        exact .inr (.inr ⟨_, grown, rfl, hgrown, grows⟩)

theorem Moved.closed (moved : Moved host world event next)
    (closes : world.closes event = some attachmentId) :
    next.receiver attachmentId = none := by
  obtain ⟨task, htask, hcloses⟩ := Option.bind_eq_some_iff.mp closes
  cases moved with
  | advance controller taken made =>
      rw [advancedTask_eq controller taken] at htask
      cases htask
      unfold ManagerTask.closes at hcloses
      split at hcloses
      · cases hcloses
        cases made with
        | streamClosed => exact State.receiver_dropReceiver
        | givesUp h => cases h
        | runCancelled waiting => rcases waiting with h | h | h <;> cases h
      · cases hcloses
  | _ => cases htask

theorem Moved.subscribes (moved : Moved host world event next)
    {hello : Hello}
    (subscribed : world.subscribes next event = some (hello, attachmentId)) :
    ∃ manager receiver, next.controller = some manager ∧
      next.receiver attachmentId = some receiver ∧
      receiver.executionId = hello.executionId ∧
      ∀ command ∈ receiver.sent,
        manager.state.Sends hello.executionId command := by
  unfold World.subscribes at subscribed
  split at subscribed
  · rename_i index answer request stored htask
    split at subscribed
    · rename_i hnew
      cases subscribed
      cases moved with
      | @advance index answer manager task outcome controller taken made =>
          rw [advancedTask_eq controller taken] at htask
          cases htask
          rw [receiver_eq controller] at hnew
          cases made with
          | attached unused accepted =>
              obtain ⟨receiver, hfound, hexecution, hsends⟩ :=
                State.attachSupervisor_receiver unused accepted
              exact ⟨_, receiver, rfl, hfound, hexecution, hsends⟩
          | attachedLocally unused accepted =>
              obtain ⟨receiver, hfound, hexecution, hsends⟩ :=
                State.attachSupervisor_receiver unused accepted
              exact ⟨_, receiver, rfl, hfound, hexecution, hsends⟩
          | @attachUnstored _ _ state unused accepted =>
              have hsome : ((state.dropReceiver answer.uuid).receiver
                answer.uuid).isSome = true := hnew.2
              rw [State.receiver_dropReceiver] at hsome
              cases hsome
          | givesUp h =>
              have hsome : (manager.state.receiver answer.uuid).isSome = true :=
                hnew.2
              rw [Option.isNone_iff_eq_none.mp hnew.1] at hsome
              cases hsome
          | runCancelled waiting => rcases waiting with h | h | h <;> cases h
    · cases subscribed
  · cases subscribed

/-! ### Processes -/

inductive LaunchMoved (world next : World) : Option RunExecution → Prop where
  | kept (same : next.processes = world.processes) :
      LaunchMoved world next none
  | ended {process : Nat}
      (ended : next.processes = endProcess world.processes process) :
      LaunchMoved world next none
  | started {run : RunExecution} {processId : Nat}
      (started : next.processes =
        world.processes ++ [⟨run.executionId, processId, true⟩]) :
      LaunchMoved world next (some run)

theorem launches_advance {manager : Manager} {index : Nat} {answer : Answer}
    {task : ManagerTask} {outcome : Outcome}
    (running : world.controller = some manager)
    (found : manager.tasks[index]? = some task)
    (advanced : task.advance host manager.session world.now answer
      (world.situation manager) = some outcome) :
    LaunchMoved world (world.settle manager (manager.tasks.eraseIdx index)
      outcome) (world.launches (.advance index answer)) := by
  have htask := @advancedTask_eq world manager index answer task running found
  by_cases hloop : ∃ run, task = .runLoop run
  · obtain ⟨run, rfl⟩ := hloop
    simp only [ManagerTask.advance] at advanced
    split at advanced
    · rename_i hcancelled
      have hnone : world.launches (.advance index answer) = none := by
        have hstate : manager.state.isCancelled run.executionId = true :=
          hcancelled
        simp [launches, htask, running, hstate]
      cases advanced
      rw [hnone]
      exact .kept rfl
    · rename_i hgoesOn
      split at advanced
      · rename_i hspawned
        have hnone : world.launches (.advance index answer) = none := by
          simp [launches, htask, hspawned]
        cases advanced
        rw [hnone]
        exact .kept rfl
      · rename_i processId hspawned
        have hsome : world.launches (.advance index answer) = some run := by
          have hstate : manager.state.isCancelled run.executionId = false :=
            Bool.eq_false_iff.mpr hgoesOn
          simp [launches, htask, running, hspawned, hstate]
        cases advanced
        rw [hsome]
        exact .started rfl
  · have hnone : world.launches (.advance index answer) = none := by
      unfold launches
      split
      · rename_i heq
        exact absurd ⟨_, Option.some.inj (htask.symm.trans heq)⟩ hloop
      · rfl
    rw [hnone]
    cases (ManagerTask.advance_section advanced).processes with
    | kept same => exact .kept same
    | ended ended => exact .ended ended
    | spawned => exact absurd ⟨_, rfl⟩ hloop

theorem step_launches (moved : step host world event = some next) :
    LaunchMoved world next (world.launches event) := by
  cases event with
  | elapse | controllerExited =>
      cases moved
      exact .kept rfl
  | processExited process =>
      cases moved
      exact .ended rfl
  | startup =>
      obtain ⟨-, rfl⟩ := step_startup moved
      exact .kept rfl
  | command command answer =>
      obtain ⟨manager, -, -, rfl⟩ := step_command moved
      exact .kept (Command.processes _)
  | attach =>
      obtain ⟨manager, -, -, rfl⟩ := step_attach moved
      exact .kept rfl
  | advance =>
      obtain ⟨manager, task, outcome, running, found, advanced, rfl⟩ :=
        step_advance moved
      exact launches_advance running found advanced

theorem launches_eq_some {run : RunExecution}
    (launches : world.launches event = some run) :
    ∃ manager, world.controller = some manager ∧
      world.advancedTask event = some (.runLoop run) ∧
      .runLoop run ∈ manager.tasks := by
  unfold World.launches at launches
  split at launches
  · rename_i other htask
    split at launches
    · cases launches
      obtain ⟨manager, running, hfound⟩ := Option.bind_eq_some_iff.mp htask
      exact ⟨manager, running, htask, List.mem_of_getElem? hfound⟩
    · cases launches
  · cases launches

theorem LaunchMoved.before {launches : Option RunExecution}
    (launched : LaunchMoved world next launches) {process : Nat}
    {after : SupervisorProcess}
    (found : next.processes[process]? = some after) :
    (∃ before, world.processes[process]? = some before ∧
        before.executionId = after.executionId ∧
        (after.alive = true → before.alive = true)) ∨
      process = world.processes.length ∧ ∃ run, launches = some run ∧
        after.executionId = run.executionId := by
  cases launched with
  | kept same =>
      rw [same] at found
      exact .inl ⟨after, found, rfl, id⟩
  | ended ended =>
      rw [ended] at found
      obtain ⟨before, hbefore, hsame, halive⟩ := endProcess_getElem? found
      exact .inl ⟨before, hbefore, hsame.symm, fun h => (halive h).1⟩
  | @started run processId started =>
      rw [started, List.getElem?_append] at found
      split at found
      · exact .inl ⟨after, found, rfl, id⟩
      · rename_i hlength
        rw [List.getElem?_singleton] at found
        split at found
        · cases found
          exact .inr ⟨by omega, run, rfl, rfl⟩
        · cases found

theorem LaunchMoved.after {launches : Option RunExecution}
    (launched : LaunchMoved world next launches) {process : Nat}
    {before : SupervisorProcess}
    (found : world.processes[process]? = some before) :
    ∃ after, next.processes[process]? = some after ∧
      after.executionId = before.executionId := by
  cases launched with
  | kept same => exact ⟨before, by rw [same, found], rfl⟩
  | @ended ended hended =>
      rw [hended, endProcess, List.getElem?_modify, found]
      refine ⟨_, rfl, ?_⟩
      split <;> rfl
  | started started =>
      refine ⟨before, ?_, rfl⟩
      rw [started, List.getElem?_append_left
        (List.getElem?_eq_some_iff.mp found).1, found]

theorem LaunchMoved.length {launches : Option RunExecution}
    (launched : LaunchMoved world next launches) :
    next.processes.length =
      world.processes.length + launches.toList.length := by
  cases launched with
  | kept same => simp [same]
  | ended ended => simp [ended, endProcess]
  | started started => simp [started]

def ProcessesRecorded (world : World) : Prop :=
  ∀ process ∈ world.processes, ∃ id,
    HasRow world.database process.executionId id

theorem ProcessesRecorded.step (reachable : Reachable host world)
    (held : ProcessesRecorded world)
    (moved : World.step host world event = some next) :
    ProcessesRecorded next := by
  have stays : ∀ {executionId id : String},
      HasRow world.database executionId id →
      HasRow next.database executionId id :=
    (step_moved moved).hasRow reachable.hasOutcome
  have old : ∀ process ∈ world.processes, ∃ id,
      HasRow next.database process.executionId id := by
    intro process hprocess
    obtain ⟨id, hrow⟩ := held process hprocess
    exact ⟨id, stays hrow⟩
  have launched := step_launches moved
  generalize hlaunches : world.launches event = launches at launched
  intro process hprocess
  cases launched with
  | kept same =>
      rw [same] at hprocess
      exact old process hprocess
  | ended ended =>
      rw [ended] at hprocess
      obtain ⟨before, hbefore, hsame⟩ := endProcess_mem hprocess
      rw [hsame]
      exact old before hbefore
  | @started run processId started =>
      rw [started] at hprocess
      rcases List.mem_append.mp hprocess with hprocess | hprocess
      · exact old process hprocess
      · cases List.mem_singleton.mp hprocess
        obtain ⟨manager, running, -, htask⟩ := launches_eq_some hlaunches
        exact ⟨run.workloadId,
          stays ((reachable.recorded manager running).tasks _ htask _ _ rfl)⟩

theorem Reachable.processesRecorded (reachable : Reachable host world) :
    ProcessesRecorded world := by
  refine Reachable.invariant ?_ Runs.refl reachable ?_
  · intro world event next hreachable held _ moved
    exact held.step hreachable moved
  · intro process hprocess
    cases hprocess

end Attachments

end World

namespace Enforcer

/-- What has been put on the stream of the link arrives; a stream that is closed
brings nothing more. -/
def follow (before after : World) (enforcer : Enforcer) : Enforcer :=
  { enforcer with
    link := enforcer.link.filter fun attachmentId =>
      (after.receiver attachmentId).isSome
    inbox := enforcer.inbox ++ enforcer.link.elim [] fun attachmentId =>
      (after.stream attachmentId).drop (before.stream attachmentId).length }

def join (after : World) (attachmentId : String) (enforcer : Enforcer) :
    Enforcer :=
  { enforcer with
    link := some attachmentId
    inbox := after.stream attachmentId }

end Enforcer

/-- The enforcer of each process, and what the journals say was applied. -/
structure Fleet where
  world : World
  enforcers : List Enforcer
  applied : List AppliedPolicy
  deriving DecidableEq

/-- A process may listen to the attachment that is made; an applied policy may be
journaled under a sequence. -/
inductive FleetEvent where
  | world (event : Event) (listening : Option Nat)
  | receive (process : Nat)
  | disconnect (process : Nat)
  | apply (process : Nat) (checkpointed : Bool) (journaled : Option Nat)
  | startWriter (process : Nat)
  | applyLogging (process : Nat)
  | endWriter (process : Nat)

namespace Fleet

def initial : Fleet := ⟨.initial, [], []⟩

def follow (fleet : Fleet) (event : Event) (next : World) : Fleet :=
  { fleet with
    world := next
    enforcers :=
      fleet.enforcers.map (Enforcer.follow fleet.world next) ++
        ((fleet.world.launches event).map
          fun run => Enforcer.start run.definition).toList }

/-- The process that asked for a new attachment listens to it, unless it has
given up. -/
def listens (fleet : Fleet) (event : Event) (next : World) (process : Nat) :
    Option Fleet :=
  match fleet.world.subscribes next event, fleet.world.processes[process]?,
      fleet.enforcers[process]? with
  | some (hello, attachmentId), some asking, some enforcer =>
      if asking = ⟨hello.executionId, hello.supervisorProcessId, true⟩ ∧
          enforcer.link = none ∧ enforcer.inbox = [] then
        let followed := fleet.follow event next
        some
          { followed with
            enforcers := followed.enforcers.modify process
              (Enforcer.join next attachmentId) }
      else none
  | _, _, _ => none

/-- A living process does something of its own. -/
def change (fleet : Fleet) (process : Nat)
    (change : Enforcer → Option Enforcer) : Option Fleet :=
  if isAlive fleet.world.processes process then
    (fleet.enforcers[process]?.bind change).map fun enforcer =>
      { fleet with enforcers := fleet.enforcers.set process enforcer }
  else none

/-- `recorder.observe(...)` after a policy was applied. -/
def journal (fleet : Fleet) (process sequence : Nat) (update : PolicyUpdate) :
    Fleet :=
  { fleet with
    applied := fleet.applied ++
      (fleet.world.processes[process]?.map fun process =>
        ⟨process.executionId, sequence, hex update.policyHash⟩).toList }

def step (host : Host) (fleet : Fleet) : FleetEvent → Option Fleet
  | .world event listening =>
      (World.step host fleet.world event).bind fun next =>
        if (fleet.world.reports event).all (· ∈ fleet.applied) then
          match listening with
          | none => some (fleet.follow event next)
          | some process => fleet.listens event next process
        else none
  | .receive process => fleet.change process Enforcer.receive
  | .disconnect process =>
      fleet.change process fun enforcer => some enforcer.disconnect
  | .apply process checkpointed journaled =>
      (fleet.enforcers[process]?.bind (Enforcer.apply checkpointed)).bind
        fun (update, enforcer) =>
          (fleet.change process fun _ => some enforcer).map fun next =>
            match checkpointed, journaled with
            | true, some sequence => next.journal process sequence update
            | _, _ => next
  | .startWriter process => fleet.change process Enforcer.startWriter
  | .applyLogging process => fleet.change process Enforcer.applyLogging
  | .endWriter process =>
      fleet.change process fun enforcer => some enforcer.endWriter

end Fleet

end Susm.Controller
