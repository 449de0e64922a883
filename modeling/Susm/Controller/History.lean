import Susm.Controller.Turns
import Susm.Foundation.EventHistory

/-!
# Histories of the controller

The steps of a run of the world in their order, each with the tasks that its
section has left.
-/

namespace Susm.Controller

open Susm.Foundation
open Susm.Foundation.EventMachine

namespace World

def produced (host : Host) (world : World) : Event → List ManagerTask
  | .command command answer =>
      match world.controller with
      | some manager =>
          (command.perform host manager.session answer
            (world.situation manager)).tasks
      | none => []
  | .attach hello answer => attachTasks world.database hello answer.stored
  | .advance index answer =>
      match world.controller.bind fun manager =>
          manager.tasks[index]?.bind fun task =>
            task.advance host manager.session world.now answer
              (world.situation manager) with
      | some outcome => outcome.tasks
      | none => []
  | _ => []

/-- An event that is not possible has no place in a history. -/
def turn (host : Host) (world : World) (event : Event) :
    Except Unit (Reaction World ManagerTask) :=
  match step host world event with
  | some next => .ok ⟨next, produced host world event⟩
  | none => .error ()

abbrev Turn := Accepted World Event ManagerTask

def turns (host : Host) (first : World) (events : List Event) : List Turn :=
  accepted (turn host) first events

def reached (host : Host) (first : World) (events : List Event) : World :=
  (run (turn host) first events).state

variable {host : Host} {world next first : World} {event : Event}

theorem turn_ok {reaction : Reaction World ManagerTask}
    (h : turn host world event = .ok reaction) :
    step host world event = some reaction.state ∧
      reaction.effects = produced host world event := by
  unfold turn at h
  split at h
  · rename_i next hnext
    cases h
    exact ⟨hnext, rfl⟩
  · cases h

theorem produced_advance {manager : Manager} {index : Nat} {answer : Answer}
    {task : ManagerTask} {outcome : Outcome}
    (running : world.controller = some manager)
    (found : manager.tasks[index]? = some task)
    (advanced : task.advance host manager.session world.now answer
      (world.situation manager) = some outcome) :
    produced host world (.advance index answer) = outcome.tasks := by
  simp [produced, running, found, advanced]

section Rule

variable {Admits : Event → Prop} {Holds : World → List Turn → Prop}

theorem turns_history
    (keeps : ∀ world history event next, Reachable host world →
      Holds world history → Admits event → step host world event = some next →
      Holds next (history ++ [⟨world, event, next, produced host world event⟩]))
    (reachable : Reachable host first) (start : Holds first [])
    {events : List Event} (admitted : ∀ event ∈ events, Admits event) :
    Reachable host (reached host first events) ∧
      Holds (reached host first events) (turns host first events) := by
  have lifted : ∀ (world : World) (history : List Turn) (event : Event)
      (reaction : Reaction World ManagerTask),
      ((∀ entry ∈ history, Admits entry.event) →
        Reachable host world ∧ Holds world history) →
      turn host world event = .ok reaction →
      (∀ entry ∈ history ++ [⟨world, event, reaction⟩], Admits entry.event) →
        Reachable host reaction.state ∧
          Holds reaction.state (history ++ [⟨world, event, reaction⟩]) := by
    intro world history event reaction held accepted admitted
    obtain ⟨moved, hproduced⟩ := turn_ok accepted
    obtain ⟨hreachable, hheld⟩ := held fun entry hentry =>
      admitted entry (List.mem_append_left _ hentry)
    refine ⟨hreachable.tail trivial moved, ?_⟩
    obtain ⟨next, effects⟩ := reaction
    cases hproduced
    exact keeps world history event next hreachable hheld
      (admitted _ (List.mem_append_right _ List.mem_cons_self)) moved
  refine accepted_history _ lifted [] (fun _ => ⟨reachable, start⟩) events ?_
  intro entry hentry
  have hevent : entry.event ∈ (turns host first events).map Accepted.event :=
    List.mem_map_of_mem hentry
  exact admitted entry.event ((accepted_sublist first events).subset hevent)

theorem turns_history_at
    (keeps : ∀ world history event next, Reachable host world →
      Holds world history → Admits event → step host world event = some next →
      Holds next (history ++ [⟨world, event, next, produced host world event⟩]))
    (reachable : Reachable host first) (start : Holds first [])
    {events : List Event} (admitted : ∀ event ∈ events, Admits event)
    {before after : List Turn} {entry : Turn}
    (split : turns host first events = before ++ entry :: after) :
    ∃ next, entry = ⟨entry.before, entry.event, next,
        produced host entry.before entry.event⟩ ∧
      Reachable host entry.before ∧ Holds entry.before before ∧
      Admits entry.event ∧
      step host entry.before entry.event = some next := by
  obtain ⟨earlier, later, hevents, rfl, hstate, -⟩ := accepted_split split
  subst hevents
  have hearlier : ∀ event ∈ earlier, Admits event := fun event hevent =>
    admitted event (List.mem_append_left _ hevent)
  obtain ⟨hreachable, hheld⟩ :=
    turns_history keeps reachable start hearlier
  obtain ⟨moved, hproduced⟩ := turn_ok (accepted_step
    (split ▸ List.mem_append_right _ List.mem_cons_self :
      entry ∈ accepted (turn host) first _))
  refine ⟨entry.reaction.state, ?_, hstate ▸ hreachable, hstate ▸ hheld,
    admitted _ (List.mem_append_right _ List.mem_cons_self), moved⟩
  rw [← hproduced]

end Rule

end World

end Susm.Controller
