import Mathlib.Logic.Relation

/-!
# Transition systems with guarded runs

A partial step function on states.  A run is a sequence of steps each of which
is admitted in the state in which it is taken.  What every admitted step keeps
is kept by every run.
-/

namespace Susm.Foundation

universe u v

variable {State : Type u} {Event : Type v}

def Moves (step : State → Event → Option State)
    (Admits : State → Event → Prop) (first last : State) : Prop :=
  ∃ event, Admits first event ∧ step first event = some last

def Runs (step : State → Event → Option State)
    (Admits : State → Event → Prop) : State → State → Prop :=
  Relation.ReflTransGen (Moves step Admits)

namespace Runs

variable {step : State → Event → Option State}
  {Admits Narrower : State → Event → Prop} {first middle last : State}

theorem refl : Runs step Admits first first := Relation.ReflTransGen.refl

theorem trans (before : Runs step Admits first middle)
    (after : Runs step Admits middle last) : Runs step Admits first last :=
  Relation.ReflTransGen.trans before after

theorem tail {event : Event} (run : Runs step Admits first middle)
    (admits : Admits middle event) (moved : step middle event = some last) :
    Runs step Admits first last :=
  Relation.ReflTransGen.tail run ⟨event, admits, moved⟩

theorem single {event : Event} (admits : Admits first event)
    (moved : step first event = some last) : Runs step Admits first last :=
  tail refl admits moved

theorem mono (weaker : ∀ state event, Narrower state event → Admits state event)
    (run : Runs step Narrower first last) : Runs step Admits first last := by
  refine Relation.ReflTransGen.mono ?_ _ _ run
  rintro before after ⟨event, admits, moved⟩
  exact ⟨event, weaker _ _ admits, moved⟩

theorem invariant {Holds : State → Prop}
    (keeps : ∀ state event next, Holds state → Admits state event →
      step state event = some next → Holds next)
    (run : Runs step Admits first last) (start : Holds first) :
    Holds last := by
  induction run with
  | refl => exact start
  | tail _ move ih =>
      obtain ⟨event, admits, moved⟩ := move
      exact keeps _ _ _ ih admits moved

end Runs

/-- Execute the events in order; nothing when one of them is not possible. -/
def execute (step : State → Event → Option State) :
    State → List Event → Option State
  | state, [] => some state
  | state, event :: events =>
      (step state event).bind fun next => execute step next events

variable {step : State → Event → Option State}

theorem execute_runs {first last : State} {events : List Event}
    (executed : execute step first events = some last) :
    Runs step (fun _ _ => True) first last := by
  induction events generalizing first with
  | nil =>
      cases executed
      exact Runs.refl
  | cons event events ih =>
      obtain ⟨next, moved, rest⟩ := Option.bind_eq_some_iff.mp executed
      exact (Runs.single trivial moved).trans (ih rest)

theorem execute_getD_runs {first : State} {events : List Event}
    (executed : (execute step first events).isSome) :
    Runs step (fun _ _ => True) first
      ((execute step first events).getD first) := by
  obtain ⟨last, hlast⟩ := Option.isSome_iff_exists.mp executed
  rw [hlast]
  exact execute_runs hlast

/-- Execute the events in order as long as each of them is admitted. -/
def executeAdmitted (step : State → Event → Option State)
    (Admits : State → Event → Prop)
    [∀ state event, Decidable (Admits state event)] :
    State → List Event → Option State
  | state, [] => some state
  | state, event :: events =>
      if Admits state event then
        (step state event).bind fun next =>
          executeAdmitted step Admits next events
      else none

variable {Admits : State → Event → Prop}
  [∀ state event, Decidable (Admits state event)]

theorem executeAdmitted_runs {first last : State} {events : List Event}
    (executed : executeAdmitted step Admits first events = some last) :
    execute step first events = some last ∧ Runs step Admits first last := by
  induction events generalizing first with
  | nil =>
      cases executed
      exact ⟨rfl, Runs.refl⟩
  | cons event events ih =>
      unfold executeAdmitted at executed
      split at executed
      · rename_i admits
        obtain ⟨next, moved, rest⟩ := Option.bind_eq_some_iff.mp executed
        obtain ⟨hexecute, run⟩ := ih rest
        refine ⟨?_, (Runs.single admits moved).trans run⟩
        simp [execute, moved, hexecute]
      · cases executed

theorem executeAdmitted_getD_runs {first : State} {events : List Event}
    (executed : (executeAdmitted step Admits first events).isSome) :
    Runs step Admits first ((execute step first events).getD first) := by
  obtain ⟨last, hlast⟩ := Option.isSome_iff_exists.mp executed
  obtain ⟨hexecute, run⟩ := executeAdmitted_runs hlast
  rw [hexecute]
  exact run

/-- Where each step of a sound state is safe just when it is admitted, a run is
safe just when all of its steps are admitted. -/
theorem executeAdmitted_iff {Sound Safe : State → Prop}
    (keeps : ∀ state event next, Sound state →
      step state event = some next →
      Sound next ∧ (Safe next ↔ Safe state ∧ Admits state event))
    {first last : State} {events : List Event}
    (executed : execute step first events = some last)
    (sound : Sound first) (start : Safe first) :
    Safe last ↔ executeAdmitted step Admits first events = some last := by
  induction events generalizing first with
  | nil =>
      cases executed
      simp [executeAdmitted, start]
  | cons event events ih =>
      obtain ⟨next, moved, rest⟩ := Option.bind_eq_some_iff.mp executed
      obtain ⟨sound_next, safe_next⟩ := keeps first event next sound moved
      by_cases admits : Admits first event
      · simpa [executeAdmitted, admits, moved] using
          ih rest sound_next (safe_next.mpr ⟨start, admits⟩)
      · have lost : Sound next ∧ ¬Safe next :=
          ⟨sound_next, fun hsafe => admits (safe_next.mp hsafe).2⟩
        -- once a step was not safe, no later state is
        have stays : Sound last ∧ ¬Safe last := by
          refine @Runs.invariant _ _ step (fun _ _ => True) next last
            (fun state => Sound state ∧ ¬Safe state) ?_
            (execute_runs rest) lost
          intro state event after held _ moved
          obtain ⟨sound_after, safe_after⟩ := keeps _ _ _ held.1 moved
          exact ⟨sound_after, fun hsafe => held.2 (safe_after.mp hsafe).1⟩
        simp [executeAdmitted, admits, stays.2]

end Susm.Foundation
