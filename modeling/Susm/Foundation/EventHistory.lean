import Susm.Foundation.EventMachine

/-!
# Histories of accepted events

The accepted events of a run, each with the state it was accepted in and with
what it led to.  A rejected event leaves no trace: the run without it is the
same.
-/

namespace Susm.Foundation

universe u v w x

structure Accepted (State : Type u) (Event : Type v) (Effect : Type w) where
  before : State
  event : Event
  reaction : Reaction State Effect

namespace EventMachine

variable {State : Type u} {Event : Type v} {Effect : Type w} {Error : Type x}
  {step : State → Event → Except Error (Reaction State Effect)}

def accepted (step : State → Event → Except Error (Reaction State Effect)) :
    State → List Event → List (Accepted State Event Effect)
  | _, [] => []
  | state, event :: events =>
      match step state event with
      | .ok reaction =>
          ⟨state, event, reaction⟩ :: accepted step reaction.state events
      | .error _ => accepted step state events

@[simp] theorem accepted_nil (state : State) : accepted step state [] = [] :=
  rfl

theorem accepted_cons_ok {state : State} {event : Event} {events : List Event}
    {reaction : Reaction State Effect} (h : step state event = .ok reaction) :
    accepted step state (event :: events) =
      ⟨state, event, reaction⟩ :: accepted step reaction.state events := by
  simp [accepted, h]

theorem accepted_cons_error {state : State} {event : Event}
    {events : List Event} {error : Error} (h : step state event = .error error) :
    accepted step state (event :: events) = accepted step state events := by
  simp [accepted, h]

theorem accepted_sublist (state : State) (events : List Event) :
    ((accepted step state events).map Accepted.event).Sublist events := by
  induction events generalizing state with
  | nil => simp
  | cons event events ih =>
      cases h : step state event with
      | ok reaction =>
          rw [accepted_cons_ok h, List.map_cons]
          exact (ih reaction.state).cons_cons event
      | error error =>
          rw [accepted_cons_error h]
          exact (ih state).cons event

theorem run_effects_eq (state : State) (events : List Event) :
    (run step state events).effects =
      (accepted step state events).flatMap fun entry =>
        entry.reaction.effects := by
  induction events generalizing state with
  | nil => rfl
  | cons event events ih =>
      cases h : step state event with
      | ok reaction =>
          simp [accepted_cons_ok h, deliver_ok h, ih]
      | error error =>
          simp [accepted_cons_error h, deliver_error h, ih]

theorem run_rejected {state : State} {before after : List Event}
    {event : Event} {error : Error}
    (h : step (run step state before).state event = .error error) :
    run step state (before ++ event :: after) =
      run step state (before ++ after) := by
  induction before generalizing state with
  | nil =>
      rw [run_nil] at h
      simp [run, deliver_error h]
  | cons first before ih =>
      rw [run_cons_state] at h
      simp [run, ih h]

/--
The rule for histories: a relation between the current state and everything
accepted so far is kept by a run as soon as every accepted event keeps it.
-/
theorem accepted_history
    (Holds : State → List (Accepted State Event Effect) → Prop)
    (keeps : ∀ state history event reaction, Holds state history →
      step state event = .ok reaction →
      Holds reaction.state (history ++ [⟨state, event, reaction⟩]))
    {state : State} (history : List (Accepted State Event Effect))
    (start : Holds state history) (events : List Event) :
    Holds (run step state events).state
      (history ++ accepted step state events) := by
  induction events generalizing state history with
  | nil => simpa using start
  | cons event events ih =>
      cases h : step state event with
      | ok reaction =>
          rw [accepted_cons_ok h, run_cons_state, deliver_ok h,
            List.append_cons]
          exact ih _ (keeps state history event reaction start h)
      | error error =>
          rw [accepted_cons_error h, run_cons_state, deliver_error h]
          exact ih history start

theorem accepted_step {state : State} {events : List Event}
    {entry : Accepted State Event Effect}
    (hentry : entry ∈ accepted step state events) :
    step entry.before entry.event = .ok entry.reaction := by
  induction events generalizing state with
  | nil => simp at hentry
  | cons event events ih =>
      cases h : step state event with
      | ok reaction =>
          rw [accepted_cons_ok h] at hentry
          rcases List.mem_cons.mp hentry with rfl | hlater
          · exact h
          · exact ih hlater
      | error error =>
          rw [accepted_cons_error h] at hentry
          exact ih hentry

/-- Each entry of a history was accepted in the state that the events before it
had led to, and the events after it go on from there. -/
theorem accepted_split {state : State} {events : List Event}
    {before after : List (Accepted State Event Effect)}
    {entry : Accepted State Event Effect}
    (h : accepted step state events = before ++ entry :: after) :
    ∃ first last, events = first ++ entry.event :: last ∧
      accepted step state first = before ∧
      (run step state first).state = entry.before ∧
      accepted step entry.reaction.state last = after := by
  induction events generalizing state before with
  | nil => simp at h
  | cons event events ih =>
      cases hstep : step state event with
      | error error =>
          rw [accepted_cons_error hstep] at h
          obtain ⟨first, last, rfl, hbefore, hstate, hafter⟩ := ih h
          refine ⟨event :: first, last, rfl, ?_, ?_, hafter⟩
          · rw [accepted_cons_error hstep, hbefore]
          · rw [run_cons_state, deliver_error hstep, hstate]
      | ok reaction =>
          rw [accepted_cons_ok hstep] at h
          cases before with
          | nil =>
              obtain ⟨rfl, hafter⟩ := List.cons.inj h
              exact ⟨[], events, rfl, rfl, rfl, hafter⟩
          | cons head before =>
              obtain ⟨rfl, htail⟩ := List.cons.inj h
              obtain ⟨first, last, rfl, hbefore, hstate, hafter⟩ := ih htail
              refine ⟨event :: first, last, rfl, ?_, ?_, hafter⟩
              · rw [accepted_cons_ok hstep, hbefore]
              · rw [run_cons_state, deliver_ok hstep, hstate]

theorem accepted_history_at
    (Holds : State → List (Accepted State Event Effect) → Prop)
    (keeps : ∀ state history event reaction, Holds state history →
      step state event = .ok reaction →
      Holds reaction.state (history ++ [⟨state, event, reaction⟩]))
    {state : State} (start : Holds state []) {events : List Event}
    {before after : List (Accepted State Event Effect)}
    {entry : Accepted State Event Effect}
    (h : accepted step state events = before ++ entry :: after) :
    Holds entry.before before := by
  obtain ⟨first, last, -, rfl, hstate, -⟩ := accepted_split h
  rw [← hstate]
  exact accepted_history Holds keeps [] start first

end EventMachine

end Susm.Foundation
