import Susm.Controller.Sections

/-!
# Turns of the controller

What one step of the world does.  The surroundings move, the controller ends or
is opened, or it takes one turn: the first section of a command, the check of an
attachment, or the next section of one of its tasks.
-/

namespace Susm.Controller

open Susm.Foundation
open Susm.Protocol

namespace World

def opened (host : Host) (world : World) (session : String)
    (answers : List Answer) : World :=
  { world with
    database := (openManager host session answers world.database).1
    controller :=
      (openManager host session answers world.database).2.map fun state =>
        ⟨session, state, [.initialReload]⟩ }

inductive Moved (host : Host) (world : World) : Event → World → Prop where
  | elapsed {millis : Nat} :
      Moved host world (.elapse millis) { world with now := world.now + millis }
  | processExited {process : Nat} :
      Moved host world (.processExited process)
        { world with processes := endProcess world.processes process }
  | controllerExited :
      Moved host world .controllerExited { world with controller := none }
  | startup {session : String} {answers : List Answer}
      (closed : world.controller = none) :
      Moved host world (.startup session answers)
        (world.opened host session answers)
  | command {command : Command} {answer : Answer} {manager : Manager}
      (running : world.controller = some manager)
      (serving : manager.isServing = true) :
      Moved host world (.command command answer)
        (world.settle manager manager.tasks
          (command.perform host manager.session answer
            (world.situation manager)))
  | attach {hello : Hello} {answer : Answer} {manager : Manager}
      (running : world.controller = some manager)
      (serving : manager.isServing = true) :
      Moved host world (.attach hello answer)
        (world.settle manager manager.tasks
          ((world.situation manager).leave
            (attachTasks world.database hello answer.stored)))
  | advance {index : Nat} {answer : Answer} {manager : Manager}
      {task : ManagerTask} {outcome : Outcome}
      (running : world.controller = some manager)
      (found : manager.tasks[index]? = some task)
      (made : Section host manager.session world.now answer
        (world.situation manager) task outcome) :
      Moved host world (.advance index answer)
        (world.settle manager (manager.tasks.eraseIdx index) outcome)

theorem step_moved {host : Host} {world next : World} {event : Event}
    (moved : step host world event = some next) :
    Moved host world event next := by
  cases event with
  | elapse millis =>
      cases moved
      exact .elapsed
  | processExited process =>
      cases moved
      exact .processExited
  | controllerExited =>
      cases moved
      exact .controllerExited
  | startup session answers =>
      obtain ⟨hclosed, rfl⟩ := step_startup moved
      exact .startup hclosed
  | command command answer =>
      obtain ⟨manager, hrunning, hserving, rfl⟩ := step_command moved
      exact .command hrunning hserving
  | attach hello answer =>
      obtain ⟨manager, hrunning, hserving, rfl⟩ := step_attach moved
      exact .attach hrunning hserving
  | advance index answer =>
      obtain ⟨manager, task, outcome, hrunning, hfound, hadvanced, rfl⟩ :=
        step_advance moved
      exact .advance hrunning hfound (ManagerTask.advance_section hadvanced)

theorem Reachable.invariant {host : Host} {Admits : World → Event → Prop}
    {Holds : World → Prop} {first last : World}
    (keeps : ∀ world event next, Reachable host world → Holds world →
      Admits world event → step host world event = some next → Holds next)
    (reachable : Reachable host first)
    (run : Runs (step host) Admits first last)
    (start : Holds first) : Holds last := by
  have both : Reachable host last ∧ Holds last := by
    induction run with
    | refl => exact ⟨reachable, start⟩
    | tail _ move ih =>
        obtain ⟨event, admits, moved⟩ := move
        exact ⟨ih.1.tail trivial moved, keeps _ _ _ ih.1 ih.2 admits moved⟩
  exact both.2

/-! ## Tasks -/

def advancedTask (world : World) : Event → Option ManagerTask
  | .advance index _ =>
      world.controller.bind fun manager => manager.tasks[index]?
  | _ => none

theorem advancedTask_eq {world : World} {manager : Manager} {index : Nat}
    {answer : Answer} {task : ManagerTask}
    (running : world.controller = some manager)
    (found : manager.tasks[index]? = some task) :
    world.advancedTask (.advance index answer) = some task := by
  simp [advancedTask, running, found]

theorem mem_eraseIdx_of_ne {tasks : List ManagerTask} {index : Nat}
    {advanced task : ManagerTask} (found : tasks[index]? = some advanced)
    (htask : task ∈ tasks) (hne : task ≠ advanced) :
    task ∈ tasks.eraseIdx index := by
  obtain ⟨other, hother⟩ := List.getElem?_of_mem htask
  refine List.mem_eraseIdx_iff_getElem?.mpr ⟨other, ?_, hother⟩
  rintro rfl
  exact hne (Option.some.inj (hother.symm.trans found))

/-- All tasks of the controller satisfy the condition. -/
def AllTasks (Holds : ManagerTask → Prop) (world : World) : Prop :=
  ∀ manager, world.controller = some manager →
    ∀ task ∈ manager.tasks, Holds task

theorem allTasks_settle {Holds : ManagerTask → Prop} {world : World}
    {manager : Manager} {others : List ManagerTask} {outcome : Outcome}
    (hothers : ∀ task ∈ others, Holds task)
    (houtcome : ∀ task ∈ outcome.tasks, Holds task) :
    AllTasks Holds (world.settle manager others outcome) := by
  intro next hnext task htask
  cases hnext
  rcases List.mem_append.mp htask with htask | htask
  · exact hothers task htask
  · exact houtcome task htask

theorem allTasks_step {host : Host} {Holds : ManagerTask → Prop}
    (initialReload : Holds .initialReload)
    (command : ∀ session answer situation command,
      ∀ task ∈ (Command.perform host session answer situation command).tasks,
        Holds task)
    (attach : ∀ hello stored, Holds (.attachSupervisor hello stored))
    (sections : ∀ session now answer situation task outcome,
      Section host session now answer situation task outcome → Holds task →
      ∀ other ∈ outcome.tasks, Holds other)
    {world next : World} {event : Event} (all : AllTasks Holds world)
    (moved : step host world event = some next) : AllTasks Holds next := by
  cases step_moved moved with
  | elapsed | processExited => exact all
  | controllerExited =>
      intro manager hmanager
      cases hmanager
  | startup closed =>
      intro manager hmanager task htask
      obtain ⟨state, -, rfl⟩ := Option.map_eq_some_iff.mp hmanager
      cases List.mem_singleton.mp htask
      exact initialReload
  | command running serving =>
      exact allTasks_settle (all _ running) (command _ _ _ _)
  | attach running serving =>
      refine allTasks_settle (all _ running) ?_
      intro task htask
      obtain ⟨row, -, rfl⟩ := mem_attachTasks htask
      exact attach _ _
  | advance running found made =>
      refine allTasks_settle ?_ ?_
      · intro task htask
        exact all _ running task (List.mem_of_mem_eraseIdx htask)
      · exact sections _ _ _ _ _ _ made
          (all _ running _ (List.mem_of_getElem? found))

inductive TaskFrom (host : Host) (world : World) :
    Event → ManagerTask → Prop where
  | kept {event : Event} {manager : Manager} {task : ManagerTask}
      (running : world.controller = some manager)
      (before : task ∈ manager.tasks) : TaskFrom host world event task
  | opened {session : String} {answers : List Answer}
      (closed : world.controller = none) :
      TaskFrom host world (.startup session answers) .initialReload
  | commanded {command : Command} {answer : Answer} {manager : Manager}
      {task : ManagerTask} (running : world.controller = some manager)
      (left : task ∈ (command.perform host manager.session answer
        (world.situation manager)).tasks) :
      TaskFrom host world (.command command answer) task
  | attached {hello : Hello} {answer : Answer} {manager : Manager}
      {row : StoredExecution} (running : world.controller = some manager)
      (found : world.database.getExecution hello.executionId = some row) :
      TaskFrom host world (.attach hello answer) (.attachSupervisor hello row)
  | left {index : Nat} {answer : Answer} {manager : Manager}
      {before task : ManagerTask} {outcome : Outcome}
      (running : world.controller = some manager)
      (found : manager.tasks[index]? = some before)
      (advanced : before.advance host manager.session world.now answer
        (world.situation manager) = some outcome)
      (left : task ∈ outcome.tasks) :
      TaskFrom host world (.advance index answer) task

theorem step_taskFrom {host : Host} {world next : World} {event : Event}
    (moved : step host world event = some next) {after : Manager}
    (runs : next.controller = some after) {task : ManagerTask}
    (htask : task ∈ after.tasks) : TaskFrom host world event task := by
  cases event with
  | elapse | processExited =>
      cases moved
      exact .kept runs htask
  | controllerExited =>
      cases moved
      cases runs
  | startup =>
      obtain ⟨closed, rfl⟩ := step_startup moved
      obtain ⟨state, -, rfl⟩ := Option.map_eq_some_iff.mp runs
      cases List.mem_singleton.mp htask
      exact .opened closed
  | command =>
      obtain ⟨manager, running, -, rfl⟩ := step_command moved
      cases runs
      rcases List.mem_append.mp htask with htask | htask
      · exact .kept running htask
      · exact .commanded running htask
  | attach =>
      obtain ⟨manager, running, -, rfl⟩ := step_attach moved
      cases runs
      rcases List.mem_append.mp htask with htask | htask
      · exact .kept running htask
      · obtain ⟨row, hrow, rfl⟩ := mem_attachTasks htask
        exact .attached running hrow
  | advance =>
      obtain ⟨manager, before, outcome, running, found, advanced, rfl⟩ :=
        step_advance moved
      cases runs
      rcases List.mem_append.mp htask with htask | htask
      · exact .kept running (List.mem_of_mem_eraseIdx htask)
      · exact .left running found advanced htask

end World

end Susm.Controller
