import Mathlib.Data.Nat.Find
import Mathlib.Data.Nat.Init
import Susm.Foundation.Transition

/-!
# Endless runs

A run that never stops, with its events.  Under fairness events of some kind
are taken again and again; what only they can change stays until the next of
them is taken.
-/

namespace Susm.Foundation

universe u v w

variable {State : Type u} {Event : Type v} {View : Type w}

/-- A run without an end, each step of which is admitted. -/
structure Endless (step : State → Event → Option State)
    (Admits : State → Event → Prop) (first : State) where
  state : Nat → State
  event : Nat → Event
  start : state 0 = first
  admits : ∀ time, Admits (state time) (event time)
  moves : ∀ time, step (state time) (event time) = some (state (time + 1))

namespace Endless

variable {step : State → Event → Option State}
  {Admits : State → Event → Prop} {first : State}
  (run : Endless step Admits first)

/-- Events of this kind are taken again and again. -/
def Fair (Kind : Event → Prop) : Prop :=
  ∀ time, ∃ later, time ≤ later ∧ Kind (run.event later)

/-- Whenever the one holds, the other one holds then or later. -/
def LeadsTo (Before After : State → Prop) : Prop :=
  ∀ time, Before (run.state time) →
    ∃ later, time ≤ later ∧ After (run.state later)

variable {run} {Before Between After : State → Prop}

theorem runs_of_le (run : Endless step Admits first) (Extra : State → Prop)
    {time later : Nat} (hle : time ≤ later)
    (hextra : ∀ middle, time ≤ middle → Extra (run.state middle)) :
    Runs step (fun state event => Admits state event ∧ Extra state)
      (run.state time) (run.state later) := by
  induction later, hle using Nat.le_induction with
  | base => exact Runs.refl
  | succ later hle ih =>
      exact ih.tail ⟨run.admits later, hextra later hle⟩ (run.moves later)

theorem runs_between (run : Endless step Admits first) {time later : Nat}
    (hle : time ≤ later) :
    Runs step Admits (run.state time) (run.state later) :=
  (run.runs_of_le (fun _ => True) hle fun _ _ => trivial).mono
    fun _ _ admits => admits.1

theorem runs (run : Endless step Admits first) (time : Nat) :
    Runs step Admits first (run.state time) := by
  have hrun := run.runs_between (Nat.zero_le time)
  rwa [run.start] at hrun

namespace LeadsTo

theorem of_imp (h : ∀ state, Before state → After state) :
    run.LeadsTo Before After :=
  fun time hbefore => ⟨time, le_rfl, h _ hbefore⟩

theorem trans (front : run.LeadsTo Before Between)
    (back : run.LeadsTo Between After) : run.LeadsTo Before After := by
  intro time hbefore
  obtain ⟨middle, hmiddle, hbetween⟩ := front time hbefore
  obtain ⟨later, hlater, hafter⟩ := back middle hbetween
  exact ⟨later, le_trans hmiddle hlater, hafter⟩

end LeadsTo

variable {Kind : Event → Prop} {view : State → View}

/-- What only the events of one kind can change is there when the next of them
is taken. -/
theorem Fair.next (fair : run.Fair Kind)
    (others : ∀ time, ¬ Kind (run.event time) →
      view (run.state (time + 1)) = view (run.state time))
    (time : Nat) :
    ∃ later, time ≤ later ∧ Kind (run.event later) ∧
      view (run.state later) = view (run.state time) := by
  classical
  have hexists := fair time
  obtain ⟨hle, hkind⟩ := Nat.find_spec hexists
  refine ⟨Nat.find hexists, hle, hkind, ?_⟩
  have hquiet : ∀ later, time ≤ later → later ≤ Nat.find hexists →
      view (run.state later) = view (run.state time) := by
    intro later hlater
    induction later, hlater using Nat.le_induction with
    | base => exact fun _ => rfl
    | succ later hlater ih =>
        intro hfind
        have hother : ¬ Kind (run.event later) := fun hkind =>
          Nat.find_min hexists hfind ⟨hlater, hkind⟩
        rw [others later hother]
        exact ih (by omega)
  exact hquiet _ hle le_rfl

theorem LeadsTo.of_next (Seen : View → Prop) (fair : run.Fair Kind)
    (others : ∀ time, ¬ Kind (run.event time) →
      view (run.state (time + 1)) = view (run.state time))
    (taken : ∀ time, Seen (view (run.state time)) → Kind (run.event time) →
      After (run.state (time + 1))) :
    run.LeadsTo (fun state => Seen (view state)) After := by
  intro time hseen
  obtain ⟨later, hle, hkind, hview⟩ := fair.next others time
  rw [← hview] at hseen
  exact ⟨later + 1, Nat.le_succ_of_le hle, taken later hseen hkind⟩

end Endless

end Susm.Foundation
