import Mathlib.Data.List.Basic

/-!
# Event machines that may reject an event

A machine takes a state and an event and either accepts, giving the next state
together with the effects it asks for, or rejects with an error.  A rejected
event leaves the caller's state as it was.  A run delivers a finite list of
events in order and concatenates the effects of the accepted ones.

Runs are related to single events by one rule, `run_history`: a relation
between the current state and everything emitted so far is kept by a run as
soon as every accepted event keeps it.
-/

namespace Susm.Foundation

universe u v w x

theorem bind_eq_ok_iff {Error Value Result : Type u}
    {first : Except Error Value} {next : Value → Except Error Result}
    {result : Result} :
    first >>= next = .ok result ↔
      ∃ value, first = .ok value ∧ next value = .ok result := by
  cases first with
  | error error =>
      constructor
      · intro h
        cases h
      · rintro ⟨value, h, -⟩
        cases h
  | ok value =>
      constructor
      · intro h
        exact ⟨value, rfl, h⟩
      · rintro ⟨value, h, hnext⟩
        cases h
        exact hnext

theorem bind_eq_error_iff {Error Value Result : Type u}
    {first : Except Error Value} {next : Value → Except Error Result}
    {error : Error} :
    first >>= next = .error error ↔
      first = .error error ∨
        ∃ value, first = .ok value ∧ next value = .error error := by
  cases first with
  | error failure =>
      constructor
      · intro h
        cases h
        exact .inl rfl
      · rintro (h | ⟨value, h, -⟩)
        · cases h
          rfl
        · cases h
  | ok value =>
      constructor
      · intro h
        exact .inr ⟨value, rfl, h⟩
      · rintro (h | ⟨value, h, hnext⟩)
        · cases h
        · cases h
          exact hnext

theorem map_eq_ok_iff {Error : Type u} {Value : Type v} {Result : Type w}
    {computation : Except Error Value} {change : Value → Result}
    {result : Result} :
    computation.map change = .ok result ↔
      ∃ value, computation = .ok value ∧ change value = result := by
  cases computation with
  | error error =>
      constructor
      · intro h
        cases h
      · rintro ⟨value, h, -⟩
        cases h
  | ok value =>
      constructor
      · intro h
        cases h
        exact ⟨value, rfl, rfl⟩
      · rintro ⟨value, h, rfl⟩
        cases h
        rfl

/-- The outcome of one accepted event. -/
structure Reaction (State : Type u) (Effect : Type v) where
  state : State
  effects : List Effect
  deriving DecidableEq, Repr

namespace EventMachine

variable {State : Type u} {Event : Type v} {Effect : Type w} {Error : Type x}

/-- Deliver one event; a rejected event changes nothing and emits nothing. -/
def deliver (step : State → Event → Except Error (Reaction State Effect))
    (state : State) (event : Event) : Reaction State Effect :=
  match step state event with
  | .ok reaction => reaction
  | .error _ => ⟨state, []⟩

def run (step : State → Event → Except Error (Reaction State Effect)) :
    State → List Event → Reaction State Effect
  | state, [] => ⟨state, []⟩
  | state, event :: events =>
      let first := deliver step state event
      let rest := run step first.state events
      ⟨rest.state, first.effects ++ rest.effects⟩

variable {step : State → Event → Except Error (Reaction State Effect)}

theorem deliver_ok {state : State} {event : Event}
    {reaction : Reaction State Effect} (h : step state event = .ok reaction) :
    deliver step state event = reaction := by
  simp [deliver, h]

theorem deliver_error {state : State} {event : Event} {error : Error}
    (h : step state event = .error error) :
    deliver step state event = ⟨state, []⟩ := by
  simp [deliver, h]

@[simp] theorem run_nil (state : State) :
    run step state [] = ⟨state, []⟩ := rfl

@[simp] theorem run_cons_state (state : State) (event : Event)
    (events : List Event) :
    (run step state (event :: events)).state =
      (run step (deliver step state event).state events).state := rfl

@[simp] theorem run_cons_effects (state : State) (event : Event)
    (events : List Event) :
    (run step state (event :: events)).effects =
      (deliver step state event).effects ++
        (run step (deliver step state event).state events).effects := rfl

theorem run_append_state (state : State) (before after : List Event) :
    (run step state (before ++ after)).state =
      (run step (run step state before).state after).state := by
  induction before generalizing state with
  | nil => rfl
  | cons event before ih => simpa using ih _

/--
The history rule.  `Holds state emitted` relates the current state to all the
effects emitted so far; it survives a run whose events all satisfy `Admits`
when every accepted event of that kind keeps it.
-/
theorem run_history (Admits : Event → Prop)
    (Holds : State → List Effect → Prop)
    (keeps : ∀ state emitted event reaction, Holds state emitted →
      Admits event → step state event = .ok reaction →
      Holds reaction.state (emitted ++ reaction.effects))
    {state : State} (emitted : List Effect) (start : Holds state emitted)
    {events : List Event} (admitted : ∀ event ∈ events, Admits event) :
    Holds (run step state events).state
      (emitted ++ (run step state events).effects) := by
  induction events generalizing state emitted with
  | nil => simpa using start
  | cons event events ih =>
      have hevent : Admits event := admitted event List.mem_cons_self
      have hrest : ∀ event ∈ events, Admits event := fun later hlater =>
        admitted later (List.mem_cons_of_mem event hlater)
      rw [run_cons_effects, run_cons_state, ← List.append_assoc]
      refine ih _ ?_ hrest
      cases hstep : step state event with
      | error error => simpa [deliver_error hstep] using start
      | ok reaction =>
          rw [deliver_ok hstep]
          exact keeps state emitted event reaction start hevent hstep

theorem run_invariant (Admits : Event → Prop) (Holds : State → Prop)
    (keeps : ∀ state event reaction, Holds state → Admits event →
      step state event = .ok reaction → Holds reaction.state)
    {state : State} (start : Holds state)
    {events : List Event} (admitted : ∀ event ∈ events, Admits event) :
    Holds (run step state events).state := by
  have history := run_history Admits
    (fun state (_ : List Effect) => Holds state)
    (fun state _ event reaction held admits hstep =>
      keeps state event reaction held admits hstep)
    [] start admitted
  exact history

end EventMachine

end Susm.Foundation
