import Susm.Controller.Replacements

/-!
# The end of the session

Everything that is started is started in one function, which refuses while the
session ends.  A controller that has begun to end its session therefore adds no
execution any more, whatever was asked for before or is asked for afterwards.
-/

namespace Susm.Controller

open Susm.Foundation
open Susm.Protocol

/-- A new controller is opened. -/
def Event.isStartup : Event → Bool
  | .startup .. => true
  | _ => false

namespace World

variable {host : Host} {world next first middle last : World} {event : Event}

def Goes (_ : World) (event : Event) : Prop := event.isStartup = false

instance : DecidableRel Goes :=
  fun _ event => inferInstanceAs (Decidable (event.isStartup = false))

def Ending (world : World) : Prop :=
  ∀ manager, world.controller = some manager →
    manager.state.sessionEnding = true

theorem Ending.starts (ending : Ending world) (event : Event) :
    world.starts event = none := by
  cases running : world.controller with
  | none => simp [World.starts, running]
  | some manager =>
      simp [World.starts, running, State.startable, ending manager running]

structure Shrinks (earlier later : World) : Prop where
  controller : later.controller.isSome → earlier.controller.isSome
  active : ∀ manager after id executionId,
    earlier.controller = some manager → later.controller = some after →
    after.state.activeId id = some executionId →
    manager.state.activeId id = some executionId
  rows : ∀ executionId workloadId,
    HasRow later.database executionId workloadId →
    HasRow earlier.database executionId workloadId

theorem Shrinks.refl (world : World) : Shrinks world world where
  controller := id
  active := by
    intro manager after id executionId running runs active
    cases running.symm.trans runs
    exact active
  rows := fun _ _ held => held

theorem Shrinks.trans (one : Shrinks first middle)
    (two : Shrinks middle last) : Shrinks first last where
  controller := fun h => one.controller (two.controller h)
  active := by
    intro manager after id executionId running runs active
    obtain ⟨between, hbetween⟩ := Option.isSome_iff_exists.mp
      (two.controller (Option.isSome_of_eq_some runs))
    exact one.active manager between id executionId running hbetween
      (two.active between after id executionId hbetween runs active)
  rows := fun executionId workloadId held =>
    one.rows executionId workloadId (two.rows executionId workloadId held)

theorem Ending.step (ending : Ending world) (goes : Goes world event)
    (moved : World.step host world event = some next) : Ending next := by
  intro after runs
  have made := step_moved moved
  cases running : world.controller with
  | some manager =>
      exact made.sessionEnding running runs (ending manager running)
  | none =>
      cases made with
      | elapsed | processExited => cases running.symm.trans runs
      | controllerExited => cases runs
      | startup closed => cases goes
      | command controller | attach controller | advance controller =>
          cases running.symm.trans controller

theorem Ending.shrinks (reachable : Reachable host world)
    (ending : Ending world) (goes : Goes world event)
    (moved : World.step host world event = some next) : Shrinks world next := by
  have made := step_moved moved
  constructor
  case controller =>
    intro h
    cases made with
    | elapsed | processExited => exact h
    | controllerExited => cases h
    | startup closed => cases goes
    | command controller | attach controller | advance controller =>
        exact Option.isSome_of_eq_some controller
  case active =>
    intro manager after id executionId running runs active
    cases made.place running runs id with
    | kept same => exact same.symm.trans active
    | vacated removes before empty => cases empty.symm.trans active
    | occupied starts => cases (ending.starts event).symm.trans starts
  case rows =>
    rintro executionId workloadId ⟨row, hrow, hworkload⟩
    cases hbefore : world.database.executions.lookup executionId with
    | none =>
        obtain ⟨starts, -⟩ := made.inserted hbefore hrow
        cases (ending.starts event).symm.trans starts
    | some before =>
        have held : HasRow world.database executionId before.workloadId :=
          ⟨before, hbefore, rfl⟩
        have kept := made.hasRow reachable.hasOutcome held
        rw [HasRow.unique ⟨row, hrow, hworkload⟩ kept]
        exact held

theorem Ending.run (reachable : Reachable host first) (ending : Ending first)
    (run : Runs (World.step host) Goes first last) :
    Ending last ∧ Shrinks first last := by
  refine @Reachable.invariant host Goes
    (fun world => Ending world ∧ Shrinks first world) first last ?_ reachable
    run ⟨ending, Shrinks.refl first⟩
  rintro world event next hreachable ⟨hending, hshrinks⟩ goes moved
  exact ⟨hending.step goes moved,
    hshrinks.trans (hending.shrinks hreachable goes moved)⟩

/--
From the end of the session on, the controller adds no execution: of any two
worlds that it gets into, the later one has no active execution and no row that
the earlier one does not have.
-/
theorem session_end_final {answer : Answer} (reachable : Reachable host world)
    (ended : step host world (.command .endSession answer) = some first)
    (run : Runs (World.step host) Goes first middle)
    (later : Runs (World.step host) Goes middle last) :
    Shrinks middle last := by
  have hfirst : Reachable host first := reachable.tail trivial ended
  have ending : Ending first := by
    obtain ⟨manager, -, -, rfl⟩ := step_command ended
    rintro after ⟨⟩
    exact State.sessionEnding_endSession manager.state
  have hmiddle : Reachable host middle :=
    hfirst.trans (run.mono fun _ _ _ => trivial)
  exact ((Ending.run hfirst ending run).1.run hmiddle later).2

/-- The session ends while the tool is running. -/
def endingWorld : World := worldAfter attachedWorld [.command .endSession calm]

/-- The tool is to be restarted afterwards, and its supervisor ends. -/
theorem session_end_final_restarted :
    Shrinks endingWorld
      (worldAfter endingWorld (restartEvent :: finishEvents)) := by
  have ended : step installation attachedWorld (.command .endSession calm) =
      some endingWorld := rfl
  exact session_end_final attachedWorld_reachable ended Runs.refl
    (runs_worldAfter (by decide +kernel))

example : (worldAfter endingWorld
    (restartEvent :: finishEvents ++ [.advance 1 calm])).controller.any
      (fun manager => manager.state.active = ∅) = true := by decide +kernel

end World

end Susm.Controller
