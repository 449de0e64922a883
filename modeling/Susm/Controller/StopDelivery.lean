import Susm.Controller.Receivers
import Susm.Controller.Recoveries

/-!
# Stops on their way to a supervisor

An accepted stop is sent to the attachments of the execution that are there at
that moment, and to nothing else: an attachment that comes later starts with an
empty queue and overwrites the state of the entry.  A stop reaches the
supervisor when a stream that it has been sent to is not broken before it has
put the stop on its way.
-/

namespace Susm.Controller

open Susm.Foundation
open Susm.Protocol

/-! ## Broken streams -/

/-- The attachment whose stream ends with the next section of a task: the
supervisor is gone, what it has observed cannot be recorded, or too many
commands wait. -/
def ManagerTask.breaks (answer : Answer) (situation : Situation) :
    ManagerTask → Option String
  | .stream attachmentId executionId =>
      let goesOn : Bool :=
        match answer.interrupted, answer.observation with
        | true, _ => false
        | false, some _ =>
            answer.stored &&
              (situation.database.getExecution executionId).isSome
        | false, none =>
            (situation.state.receiver attachmentId).any fun receiver =>
              !receiver.queue.isEmpty &&
                receiver.queue.length ≤ commandCapacity
      if goesOn then none else some attachmentId
  | .recordCommit attachmentId executionId _ observation terminal =>
      match situation.database.commitObservation executionId
        observation.sequence (observationUpdate observation terminal),
        answer.stored with
      | .ok _, true => none
      | _, _ => some attachmentId
  | _ => none

section Sections

variable {host : Host} {session : String} {now : Nat} {answer : Answer}
  {situation : Situation} {outcome : Outcome} {task other : ManagerTask}
  {attachmentId executionId : String} {receiver : Receiver}
  {command : ExecutionCommand} {queue : List ExecutionCommand}

theorem Caller.closes {caller : Caller} (hother : other ∈ caller.tasks) :
    other.closes = none := by
  cases caller with
  | client => cases hother
  | startup | stream =>
      cases List.mem_singleton.mp hother
      rfl

theorem Command.closes {command : Command}
    (hother :
      other ∈ (command.perform host session answer situation).tasks) :
    other.closes = none := by
  cases command with
  | reload =>
      rcases reloadTasks_mem hother with hreturned | ⟨candidate, rfl⟩
      · exact Caller.closes hreturned
      · rfl
  | startService id | runJob id =>
      rcases startSection_mem hother with hnone | ⟨_, _, rfl, -⟩
      · cases hnone
      · rfl
  | setEnabled id enabled =>
      simp only [Command.perform] at hother
      split at hother
      · cases List.mem_singleton.mp hother
        rfl
      · cases hother
  | rerunJob id =>
      cases List.mem_singleton.mp hother
      rfl
  | _ => cases hother

theorem stream_breaks
    (advanced : (ManagerTask.stream attachmentId executionId).advance host
      session now answer situation = some outcome)
    (hother : other ∈ outcome.tasks) (closes : other.closes ≠ none) :
    (ManagerTask.stream attachmentId executionId).breaks answer situation =
      some attachmentId := by
  simp only [ManagerTask.advance] at advanced
  simp only [ManagerTask.breaks]
  cases hinterrupted : answer.interrupted with
  | true => rfl
  | false =>
      cases hobservation : answer.observation with
      | some observation =>
          simp only [hinterrupted, hobservation] at advanced
          split at advanced
          · cases advanced
            cases List.mem_singleton.mp hother
            exact absurd rfl closes
          · rename_i hfailed
            rw [if_neg]
            intro h
            obtain ⟨hstored, hsome⟩ := Bool.and_eq_true_iff.mp h
            obtain ⟨stored, hfound⟩ := Option.isSome_iff_exists.mp hsome
            exact hfailed stored hfound hstored
      | none =>
          simp only [hinterrupted, hobservation] at advanced
          unfold State.receiver
          split at advanced
          · rename_i hnone
            rw [hnone]
            rfl
          · rename_i receiver hfound
            rw [hfound]
            split at advanced
            · rename_i hqueue
              simp [hqueue]
            · split at advanced
              · rename_i hlagged
                simp [hlagged]
              · cases advanced
                cases List.mem_singleton.mp hother
                exact absurd rfl closes

theorem recordCommit_breaks {stored : StoredExecution}
    {observation : SupervisorObservation}
    {terminal : Option TerminalObservation}
    (advanced : (ManagerTask.recordCommit attachmentId executionId stored
      observation terminal).advance host session now answer situation =
        some outcome)
    (hother : other ∈ outcome.tasks) (closes : other.closes ≠ none) :
    (ManagerTask.recordCommit attachmentId executionId stored observation
      terminal).breaks answer situation = some attachmentId := by
  unfold ManagerTask.advance at advanced
  simp only [ManagerTask.breaks, observationUpdate]
  dsimp only at advanced
  split at advanced
  · cases advanced
    cases List.mem_singleton.mp hother
    refine absurd ?_ closes
    split
    · split <;> rfl
    · rfl
  · rename_i hfailed
    split
    · rename_i hcommitted hstored
      exact absurd hstored (hfailed _ _ hcommitted)
    · rfl

theorem ManagerTask.breaks_of_closes
    (advanced : task.advance host session now answer situation = some outcome)
    (hother : other ∈ outcome.tasks)
    (closes : other.closes = some attachmentId) :
    task.breaks answer situation = some attachmentId := by
  have made := ManagerTask.advance_section advanced
  cases made.succeeds hother with
  | returned calls returns =>
      rw [Caller.closes returns] at closes
      cases closes
  | runFailed =>
      unfold supervisorFailed at closes
      dsimp only at closes
      split at closes <;> cases closes
  | streamEnds streams =>
      cases closes
      rcases streams with rfl | ⟨stored, observation, terminal, rfl⟩
      · exact stream_breaks advanced hother (by simp [ManagerTask.closes])
      · exact recordCommit_breaks advanced hother
          (by simp [ManagerTask.closes])
  | _ => cases closes

theorem stream_forwards
    (found : situation.state.receiver attachmentId = some receiver)
    (waiting : receiver.queue = command :: queue)
    (room : receiver.queue.length ≤ commandCapacity)
    (present : answer.interrupted = false)
    (silent : answer.observation = none) :
    ∃ outcome, (ManagerTask.stream attachmentId executionId).advance host
        session now answer situation = some outcome ∧
      outcome.tasks = [.stream attachmentId executionId] ∧
      outcome.state.receiver attachmentId = some
        { receiver with
          queue := queue
          stream := receiver.stream ++ [command] } := by
  have hfound : situation.state.receivers.find?
      (·.attachmentId = attachmentId) = some receiver := found
  simp only [ManagerTask.advance, present, silent, hfound]
  split
  · rename_i hqueue
    rw [waiting] at hqueue
    cases hqueue
  · rename_i next rest hqueue
    rw [if_neg (Nat.not_lt.mpr room)]
    cases waiting.symm.trans hqueue
    refine ⟨_, rfl, rfl, ?_⟩
    refine (@State.receiver_map situation.state _ _ _ ?_ rfl).trans ?_
    · intro other
      split <;> rfl
    · rw [found, Option.map_some, if_pos (State.receiver_attachment found)]

end Sections

/-! ## Attachments -/

namespace World

variable {host : Host} {world first last next : World} {event : Event}
  {manager after : Manager} {id attachmentId executionId : String}
  {receiver : Receiver} {position : Nat}

/-- The attachment of an execution is live: it has its receiver and a task for
its stream, which has not been ended. -/
structure Live (world : World) (attachmentId executionId : String)
    (manager : Manager) (receiver : Receiver) : Prop where
  running : world.controller = some manager
  subscribed : manager.state.receiver attachmentId = some receiver
  about : receiver.executionId = executionId
  streams : ∃ task ∈ manager.tasks,
    task.streams = some (attachmentId, executionId)
  goesOn : ∀ task ∈ manager.tasks, task.closes ≠ some attachmentId

/-- The controller ends, or the stream of the attachment does. -/
def breaks (world : World) (attachmentId : String) : Event → Bool
  | .controllerExited => true
  | .advance index answer =>
      world.controller.any fun manager =>
        manager.tasks[index]?.any fun task =>
          task.breaks answer (world.situation manager) = some attachmentId
  | _ => false

theorem breaks_eq {index : Nat} {answer : Answer} {task : ManagerTask}
    (running : world.controller = some manager)
    (found : manager.tasks[index]? = some task) :
    world.breaks attachmentId (.advance index answer) =
      decide (task.breaks answer (world.situation manager) =
        some attachmentId) := by
  simp [breaks, running, found]

/-- An attachment lives on unless its stream is broken. -/
theorem Live.step (live : Live world attachmentId executionId manager receiver)
    (unbroken : world.breaks attachmentId event = false)
    (moved : step host world event = some next) :
    ∃ after grown, Live next attachmentId executionId after grown ∧
      receiver.Grows (after.state.Sends receiver.executionId) grown := by
  cases event with
  | elapse | processExited =>
      cases moved
      exact ⟨manager, receiver, { live with running := live.running },
        .refl receiver⟩
  | controllerExited => cases unbroken
  | startup =>
      have hclosed := (step_startup moved).1
      rw [live.running] at hclosed
      cases hclosed
  | command command answer =>
      obtain ⟨other, running, -, rfl⟩ := step_command moved
      cases live.running.symm.trans running
      obtain ⟨grown, hgrown, grows⟩ :=
        @Command.keeps host manager.session answer (world.situation manager)
          attachmentId command receiver live.subscribed
      obtain ⟨task, htask, hstreams⟩ := live.streams
      refine ⟨_, grown, ⟨rfl, hgrown, grows.execution.trans live.about,
        ⟨task, List.mem_append_left _ htask, hstreams⟩, ?_⟩, grows⟩
      intro other hother
      rcases List.mem_append.mp hother with hother | hother
      · exact live.goesOn other hother
      · simp [Command.closes hother]
  | attach hello answer =>
      obtain ⟨other, running, -, rfl⟩ := step_attach moved
      cases live.running.symm.trans running
      obtain ⟨task, htask, hstreams⟩ := live.streams
      refine ⟨_, receiver, ⟨rfl, live.subscribed, live.about,
        ⟨task, List.mem_append_left _ htask, hstreams⟩, ?_⟩, .refl receiver⟩
      intro other hother
      rcases List.mem_append.mp hother with hother | hother
      · exact live.goesOn other hother
      · obtain ⟨row, -, rfl⟩ := mem_attachTasks hother
        simp [ManagerTask.closes]
  | advance index answer =>
      obtain ⟨other, advancing, outcome, running, found, advanced, rfl⟩ :=
        step_advance moved
      cases live.running.symm.trans running
      have made := ManagerTask.advance_section advanced
      have hgoesOn := live.goesOn advancing (List.mem_of_getElem? found)
      obtain ⟨grown, hgrown, grows⟩ := made.keeps hgoesOn receiver
        live.subscribed
      obtain ⟨task, htask, hstreams⟩ := live.streams
      refine ⟨_, grown, ⟨rfl, hgrown, grows.execution.trans live.about, ?_,
        ?_⟩, grows⟩
      · refine exists_mem_replaced found htask hstreams ?_
        rintro rfl
        refine (made.streams hstreams).resolve_left ?_
        rintro rfl
        exact hgoesOn rfl
      · intro other hother closes
        rcases List.mem_append.mp hother with hother | hother
        · exact live.goesOn other (List.mem_of_mem_eraseIdx hother) closes
        · rw [breaks_eq running found,
            ManagerTask.breaks_of_closes advanced hother closes] at unbroken
          simp at unbroken

/-! ## Accepted stops -/

/-- The command at the position among those sent to the attachment is a stop,
and the stream has put it on its way. -/
def isPlaced (world : World) (attachmentId : String) (position : Nat) : Bool :=
  world.controller.any fun manager =>
    (manager.state.receiver attachmentId).any fun receiver =>
      receiver.stream[position]? = some .stop

def Carrying (world : World) (attachmentId executionId : String)
    (position : Nat) : Prop :=
  ∃ manager receiver, Live world attachmentId executionId manager receiver ∧
    receiver.sent[position]? = some .stop

/-- The stream is not broken before it has put the stop on its way. -/
def Carries (attachmentId : String) (position : Nat) (world : World)
    (event : Event) : Prop :=
  world.isPlaced attachmentId position = false →
    world.breaks attachmentId event = false

instance : DecidableRel (Carries attachmentId position) :=
  fun _ _ => inferInstanceAs (Decidable (_ → _))

theorem Carrying.step (carrying : Carrying world attachmentId executionId
      position)
    (unbroken : world.breaks attachmentId event = false)
    (moved : step host world event = some next) :
    Carrying next attachmentId executionId position := by
  obtain ⟨manager, receiver, live, hstop⟩ := carrying
  obtain ⟨after, grown, hlive, grows⟩ := live.step unbroken moved
  refine ⟨after, grown, hlive, ?_⟩
  obtain ⟨more, hmore, -⟩ := grows.sent
  obtain ⟨hposition, -⟩ := List.getElem?_eq_some_iff.mp hstop
  rw [hmore, List.getElem?_append_left hposition, hstop]

theorem State.cancel_sends {state : State} {kind : WorkloadKind}
    {restartAfter : Bool} {view : Workload} {active : ActiveExecution}
    (accepted : (state.cancel id kind restartAfter).1 = .ok (true, view))
    (found : state.active.lookup id = some active) :
    (state.cancel id kind restartAfter).2.receivers =
      (state.send active.executionId .stop).receivers := by
  unfold State.cancel at *
  split at accepted
  · cases accepted
  split at accepted
  · cases accepted
  split at accepted
  · cases accepted
  · rename_i other hother
    cases found.symm.trans hother
    rfl

theorem Cancels.sends {restartAfter : Bool} {active : ActiveExecution}
    (cancels : Cancels world event manager id restartAfter active)
    (moved : step host world event = some next) :
    ∃ after, next.controller = some after ∧
      after.state.receivers =
        (manager.state.send active.executionId .stop).receivers := by
  obtain ⟨kind, view, hcancels, haccepted⟩ := cancels.accepted
  have hsends := State.cancel_sends haccepted cancels.found
  have hrunning := cancels.running
  cases event with
  | command command answer =>
      obtain ⟨other, hother, -, rfl⟩ := step_command moved
      cases hrunning.symm.trans hother
      cases command <;> cases hcancels
      all_goals exact ⟨_, rfl, hsends⟩
  | advance index answer =>
      obtain ⟨other, task, outcome, hother, hfound, hadvanced, rfl⟩ :=
        step_advance moved
      cases hrunning.symm.trans hother
      simp only [cancellation, advancedTask_eq hrunning hfound] at hcancels
      cases task with
      | rerunJob other active =>
          cases active <;> cases hcancels
          cases hadvanced
          exact ⟨_, rfl, hsends⟩
      | _ => cases hcancels
  | _ => cases hcancels

theorem Cancels.unbroken {restartAfter : Bool} {active : ActiveExecution}
    (cancels : Cancels world event manager id restartAfter active) :
    world.breaks attachmentId event = false := by
  obtain ⟨kind, view, hcancels, -⟩ := cancels.accepted
  cases event with
  | advance index answer =>
      cases hfound : manager.tasks[index]? with
      | none => simp [World.breaks, cancels.running, hfound]
      | some task =>
          simp only [cancellation, advancedTask_eq cancels.running hfound]
            at hcancels
          rw [breaks_eq cancels.running hfound]
          cases task with
          | rerunJob => rfl
          | _ => cases hcancels
  | controllerExited => cases hcancels
  | _ => rfl

theorem Cancels.carrying {restartAfter : Bool} {active : ActiveExecution}
    (cancels : Cancels world event manager id restartAfter active)
    (live : Live world attachmentId active.executionId manager receiver)
    (moved : step host world event = some next) :
    Carrying next attachmentId active.executionId receiver.sent.length := by
  obtain ⟨after, grown, hlive, -⟩ := live.step cancels.unbroken moved
  obtain ⟨other, hother, hreceivers⟩ := cancels.sends moved
  cases hlive.running.symm.trans hother
  have hgrown := @State.receiver_map _ _ attachmentId _
    (by intro; split <;> rfl) hreceivers
  rw [live.subscribed, hlive.subscribed, Option.map_some, if_pos live.about]
    at hgrown
  cases hgrown
  refine ⟨after, _, hlive, ?_⟩
  simp [Receiver.sent]

/-! ## The stream puts the stop on its way -/

/-- The next section of the stream finds the supervisor there, and nothing that
it has observed. -/
def Forwards (attachmentId executionId : String) (world : World)
    (event : Event) : Prop :=
  ∃ index answer, event = .advance index answer ∧
    world.advancedTask event = some (.stream attachmentId executionId) ∧
    answer.interrupted = false ∧ answer.observation = none

/-- The stream waits for commands and has not lost any; at most so many of them
have to be put on their way to come to the position. -/
def Within (world : World) (attachmentId executionId : String)
    (position rounds : Nat) : Prop :=
  ∃ manager receiver, world.controller = some manager ∧
    manager.state.receiver attachmentId = some receiver ∧
    receiver.queue.length ≤ commandCapacity ∧
    .stream attachmentId executionId ∈ manager.tasks ∧
    position < receiver.stream.length + rounds

theorem Carrying.forward {rounds : Nat}
    (carrying : Carrying world attachmentId executionId position)
    (within : Within world attachmentId executionId position (rounds + 1)) :
    world.isPlaced attachmentId position = true ∨
      ∃ event next, Forwards attachmentId executionId world event ∧
        World.step host world event = some next ∧
        Carrying next attachmentId executionId position ∧
        Within next attachmentId executionId position rounds := by
  obtain ⟨manager, receiver, live, hstop⟩ := carrying
  obtain ⟨other, subscriber, running, subscribed, room, hstream, hrounds⟩ :=
    within
  cases live.running.symm.trans running
  cases live.subscribed.symm.trans subscribed
  by_cases hplaced : position < receiver.stream.length
  · left
    have hprefix : receiver.stream[position]? = some .stop := by
      rw [← hstop, Receiver.sent, List.getElem?_append_left hplaced]
    simp [isPlaced, running, subscribed, hprefix]
  right
  cases hqueue : receiver.queue with
  | nil =>
      obtain ⟨hposition, -⟩ := List.getElem?_eq_some_iff.mp hstop
      simp only [Receiver.sent, hqueue, List.append_nil] at hposition
      exact absurd hposition hplaced
  | cons command queue =>
      obtain ⟨index, hfound⟩ := List.getElem?_of_mem hstream
      obtain ⟨outcome, hadvanced, htasks, hforwarded⟩ :=
        @stream_forwards host manager.session world.now calm
          (world.situation manager) attachmentId executionId receiver command
          queue subscribed hqueue room rfl rfl
      have moved : World.step host world (.advance index calm) = some
          (world.settle manager (manager.tasks.eraseIdx index) outcome) := by
        simp [World.step, running, hfound, hadvanced]
      have unbroken : world.breaks attachmentId (.advance index calm) =
          false := by
        have hsubscribed : (world.situation manager).state.receiver
            attachmentId = some receiver := subscribed
        have hroom : queue.length + 1 ≤ commandCapacity := by
          simpa [hqueue] using room
        rw [breaks_eq running hfound]
        simp [ManagerTask.breaks, calm, hsubscribed, hqueue, hroom]
      refine ⟨_, _, ⟨index, calm, rfl, advancedTask_eq running hfound, rfl,
        rfl⟩, moved,
        Carrying.step ⟨manager, receiver, live, hstop⟩ unbroken moved,
        _, _, rfl, hforwarded, ?_, ?_, ?_⟩
      · simp only [hqueue, List.length_cons] at room
        exact Nat.le_of_succ_le room
      · refine List.mem_append_right _ ?_
        rw [htasks]
        exact List.mem_singleton_self _
      · simp only [List.length_append, List.length_singleton]
        omega

/-- The commands in front of a stop are put on their way one after the other,
and then the stop. -/
theorem Carrying.placed {rounds : Nat}
    (carrying : Carrying world attachmentId executionId position)
    (within : Within world attachmentId executionId position rounds) :
    ∃ placed, Runs (World.step host) (Forwards attachmentId executionId) world
        placed ∧ placed.isPlaced attachmentId position = true := by
  induction rounds generalizing world with
  | zero =>
      obtain ⟨manager, receiver, live, hstop⟩ := carrying
      obtain ⟨other, subscriber, running, subscribed, -, -, hplaced⟩ := within
      cases live.running.symm.trans running
      cases live.subscribed.symm.trans subscribed
      have hprefix : receiver.stream[position]? = some .stop := by
        rw [← hstop, Receiver.sent, List.getElem?_append_left hplaced]
      exact ⟨world, Runs.refl, by
        simp [isPlaced, running, subscribed, hprefix]⟩
  | succ rounds ih =>
      rcases @Carrying.forward host _ _ _ _ _ carrying within with
        hplaced | ⟨event, next, forwards, moved, hcarrying, hwithin⟩
      · exact ⟨world, Runs.refl, hplaced⟩
      · obtain ⟨placed, run, hplaced⟩ := ih hcarrying hwithin
        exact ⟨placed, (Runs.single forwards moved).trans run, hplaced⟩

/-- The stream waits for commands and has not lost any. -/
def Receiving (world : World) (attachmentId executionId : String) : Prop :=
  ∃ manager receiver, world.controller = some manager ∧
    manager.state.receiver attachmentId = some receiver ∧
    receiver.queue.length ≤ commandCapacity ∧
    .stream attachmentId executionId ∈ manager.tasks

theorem Receiving.within
    (receiving : Receiving world attachmentId executionId) :
    Within world attachmentId executionId position (position + 1) := by
  obtain ⟨manager, receiver, running, subscribed, room, hstream⟩ := receiving
  exact ⟨manager, receiver, running, subscribed, room, hstream,
    Nat.lt_add_left _ (Nat.lt_succ_self position)⟩

/-! ## Stops and attachments -/

theorem attach_forgets (reachable : Reachable host world)
    (attaches : world.attaches host event = some executionId)
    (moved : World.step host world event = some next) :
    ¬ StaysStopping executionId next := by
  refine overwritten reachable ?_ moved
  cases event with
  | advance index answer =>
      obtain ⟨manager, task, outcome, running, found, -, -⟩ :=
        step_advance moved
      rw [attaches_eq running found] at attaches
      rw [overwrites_eq running found]
      cases task with
      | attachSupervisor => exact attaches
      | _ => cases attaches
  | _ => cases attaches

/--
A stop that is accepted while an attachment of the execution is live waits there
or has been put on its way, in every run in which the stream is not broken
before; while it waits, the next sections of the stream put it on its way.  An
attachment that comes later makes the controller forget the stop.
-/
theorem stop_carried {restartAfter : Bool} {active : ActiveExecution}
    (reachable : Reachable host world)
    (cancels : Cancels world event manager id restartAfter active)
    (live : Live world attachmentId active.executionId manager receiver)
    (moved : World.step host world event = some first)
    (run : Runs (World.step host)
      (Carries attachmentId receiver.sent.length) first last) :
    ((∃ middle,
        Runs (World.step host) (Carries attachmentId receiver.sent.length)
          first middle ∧
        Runs (World.step host) (Carries attachmentId receiver.sent.length)
          middle last ∧
        middle.isPlaced attachmentId receiver.sent.length = true) ∨
      Carrying last attachmentId active.executionId receiver.sent.length ∧
        (Receiving last attachmentId active.executionId → ∃ placed,
          Runs (World.step host) (Forwards attachmentId active.executionId)
            last placed ∧
          placed.isPlaced attachmentId receiver.sent.length = true)) ∧
      ∀ attach next, last.attaches host attach = some active.executionId →
        World.step host last attach = some next →
        ¬ StaysStopping active.executionId next := by
  have hreachable := reachable.tail trivial moved
  have hlast : Reachable host last :=
    hreachable.trans (run.mono fun _ _ _ => trivial)
  refine ⟨?_, fun attach next attaches hmoved =>
    attach_forgets hlast attaches hmoved⟩
  have carried : (∃ middle,
      Runs (World.step host) (Carries attachmentId receiver.sent.length)
        first middle ∧
      Runs (World.step host) (Carries attachmentId receiver.sent.length)
        middle last ∧
      middle.isPlaced attachmentId receiver.sent.length = true) ∨
      Carrying last attachmentId active.executionId receiver.sent.length := by
    clear hlast
    induction run with
    | refl => exact .inr (cancels.carrying live moved)
    | @tail before last run move ih =>
        obtain ⟨taken, carries, hmoved⟩ := move
        rcases ih with ⟨middle, hbefore, hafter, hplaced⟩ | carrying
        · exact .inl ⟨middle, hbefore, hafter.tail carries hmoved, hplaced⟩
        · cases hplaced : before.isPlaced attachmentId receiver.sent.length with
          | true =>
              exact .inl ⟨before, run, Runs.single carries hmoved, hplaced⟩
          | false => exact .inr (carrying.step (carries hplaced) hmoved)
  refine carried.imp_right fun carrying => ⟨carrying, fun receiving => ?_⟩
  exact carrying.placed receiving.within

/-! ## A stop without an attachment -/

def reopenedManager : Manager where
  session := sampleSession
  state :=
    { workloads := AList.singleton "tool" toolRecord
      active := AList.singleton "tool"
        (openedExecution installation "e1" runningRow)
      revision := 0
      sessionEnding := false
      cancelled := []
      receivers := [] }
  tasks := [.monitorPoll "e1" runningRow 3_000 true]

/-- The controller has been started again, and the supervisor of `e1` has not
yet come back. -/
def reopenedWorld : World :=
  { attachedWorld with controller := some reopenedManager }

theorem reopenedWorld_reachable : Reachable installation reopenedWorld := by
  have executed : execute (World.step installation) attachedWorld
      reopenedEvents = some reopenedWorld := by decide +kernel
  exact attachedWorld_reachable.trans (execute_runs executed)

/-- The service is stopped while nothing is attached. -/
def orphanedWorld : World := worldAfter reopenedWorld [stopEvent]

/-- The supervisor comes back after the stop. -/
def returnedWorld : World :=
  worldAfter orphanedWorld [.attach (sampleHello "e1" 7) calm]

def returningEvent : Event := .advance 1 { calm with uuid := "a2" }

theorem stop_undelivered :
    ¬ ∀ (host : Host) (world first before last : World)
      (event attach : Event) (manager : Manager) (id : String)
      (restartAfter : Bool) (active : ActiveExecution),
      Reachable host world →
      Cancels world event manager id restartAfter active →
      active.locallyOwned = false →
      World.step host world event = some first →
      Runs (World.step host) (Unattached host active.executionId) first
        before →
      before.attaches host attach = some active.executionId →
      World.step host before attach = some last →
      (∃ attachmentId receiver,
        Live world attachmentId active.executionId manager receiver ∧
        (Carrying last attachmentId active.executionId receiver.sent.length ∨
          ∃ middle, Runs (World.step host) (fun _ _ => True) first middle ∧
            Runs (World.step host) (fun _ _ => True) middle last ∧
            middle.isPlaced attachmentId receiver.sent.length = true)) ∨
      (∃ attachmentId position,
        before.isPlaced attachmentId position = false ∧
        Carrying last attachmentId active.executionId position) ∧
        StaysStopping active.executionId last := by
  intro h
  have cancels : Cancels reopenedWorld stopEvent reopenedManager "tool" false
      (openedExecution installation "e1" runningRow) :=
    ⟨rfl, rfl, .service, _, rfl, rfl⟩
  have stopped : World.step installation reopenedWorld stopEvent =
      some orphanedWorld := step_worldAfter (by decide +kernel)
  have run : Runs (World.step installation) (Unattached installation "e1")
      orphanedWorld returnedWorld := runs_worldAfter (by decide +kernel)
  have reachable : Reachable installation returnedWorld :=
    (reopenedWorld_reachable.tail trivial stopped).trans
      (run.mono fun _ _ _ => trivial)
  have attaches : returnedWorld.attaches installation returningEvent =
      some "e1" := by decide +kernel
  have returned : (World.step installation returnedWorld
      returningEvent).isSome := by decide +kernel
  obtain ⟨last, moved⟩ := Option.isSome_iff_exists.mp returned
  rcases h installation reopenedWorld orphanedWorld returnedWorld last stopEvent
    returningEvent reopenedManager "tool" false _ reopenedWorld_reachable
    cancels rfl stopped run attaches moved with
    ⟨attachmentId, receiver, live, -⟩ | ⟨-, stays⟩
  · cases live.subscribed
  · exact attach_forgets reachable attaches moved stays

/-- The stop is put on its way, and then the connection is lost. -/
theorem stop_carried_forwarded :
    (∃ middle,
      Runs (World.step installation) (Carries "a2" 0) stoppingWorld middle ∧
        Runs (World.step installation) (Carries "a2" 0) middle
          (worldAfter stoppingWorld keptEvents) ∧
        middle.isPlaced "a2" 0 = true) ∨
      Carrying (worldAfter stoppingWorld keptEvents) "a2" "e1" 0 := by
  have cancels : Cancels readoptedWorld stopEvent readoptedManager "tool" false
      readoptedExecution := ⟨rfl, rfl, .service, _, rfl, rfl⟩
  have live : Live readoptedWorld "a2" "e1" readoptedManager
      ⟨"a2", "e1", [], []⟩ :=
    { running := rfl
      subscribed := rfl
      about := rfl
      streams := ⟨.stream "a2" "e1", by decide, rfl⟩
      goesOn := by decide }
  exact (stop_carried readoptedWorld_reachable cancels live
    (step_worldAfter (by decide +kernel))
    (runs_worldAfter (by decide +kernel))).1.imp_right And.left

end World

end Susm.Controller
