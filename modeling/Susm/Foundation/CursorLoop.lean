import Mathlib.Order.Lattice
import Mathlib.Order.Nat

/-!
# Loops that move a cursor

A round of a loop goes on with a next state or leaves the loop with the last
one.  It can panic, and a loop is run for a bounded number of rounds.  If every
round moves the cursor forward up to a size, or leaves the loop at the end, the
loop is over after one round more than there are positions in front of it.
-/

namespace Susm.Foundation

universe u v

inductive Completion (Value : Type u) where
  | returned (value : Value)
  | panicked
  | exhausted
  deriving DecidableEq, Repr

namespace Completion

variable {Value : Type u} {Result : Type v}

def bind : Completion Value → (Value → Completion Result) → Completion Result
  | .returned value, next => next value
  | .panicked, _ => .panicked
  | .exhausted, _ => .exhausted

@[simp] theorem bind_returned (value : Value)
    (next : Value → Completion Result) :
    (Completion.returned value).bind next = next value := rfl

def ofOption : Option Value → Completion Value
  | some value => .returned value
  | none => .panicked

@[simp] theorem ofOption_some (value : Value) :
    ofOption (some value) = .returned value := rfl

end Completion

instance : Monad Completion where
  pure := .returned
  bind := Completion.bind

namespace Completion

variable {Value Result : Type u}

@[simp] theorem pure_eq (value : Value) :
    (pure value : Completion Value) = .returned value := rfl

@[simp] theorem bind_eq (first : Completion Value)
    (next : Value → Completion Result) : first >>= next = first.bind next :=
  rfl

end Completion

section Loop

variable {State : Type u} {round : State → Completion (State ⊕ State)}
  {start state next last : State}

/-- At most so many rounds. -/
def repeatRounds (round : State → Completion (State ⊕ State)) :
    Nat → State → Completion State
  | 0, _ => .exhausted
  | fuel + 1, state =>
      (round state).bind fun
        | .inl next => repeatRounds round fuel next
        | .inr last => .returned last

inductive Visits (round : State → Completion (State ⊕ State)) (start : State) :
    State → Prop
  | start : Visits round start start
  | next {state next : State} (visited : Visits round start state)
      (continues : round state = .returned (.inl next)) :
      Visits round start next

theorem Visits.after (first : round start = .returned (.inl next))
    (visited : Visits round next state) : Visits round start state := by
  induction visited with
  | start => exact .next .start first
  | next _ continues ih => exact .next ih continues

theorem Visits.invariant {inv : State → Prop} (holds : inv start)
    (keeps : ∀ state next, inv state → round state = .returned (.inl next) →
      inv next) (visited : Visits round start state) : inv state := by
  induction visited with
  | start => exact holds
  | next _ continues ih => exact keeps _ _ ih continues

/--
The round does not panic.  It moves the cursor forward within the size, or the
cursor is already at the end and the round leaves the loop.
-/
inductive MovesForward (cursor : State → Nat) (size : Nat)
    (round : State → Completion (State ⊕ State)) (state : State) : Prop
  | forward (after : State) (moves : cursor state < cursor after)
      (within : cursor after ≤ size)
      (returns : round state = .returned (.inl after) ∨
        round state = .returned (.inr after))
  | ended (last : State) (atEnd : cursor state = size)
      (stays : cursor last = size)
      (leaves : round state = .returned (.inr last))

variable {cursor : State → Nat} {size : Nat}

theorem MovesForward.lt (forward : MovesForward cursor size round state)
    (continues : round state = .returned (.inl next)) :
    cursor state < cursor next ∧ cursor next ≤ size := by
  cases forward with
  | forward after moves within returns =>
      rw [continues] at returns
      rcases returns with returns | returns <;> cases returns
      exact ⟨moves, within⟩
  | ended last atEnd stays leaves =>
      rw [continues] at leaves
      cases leaves

theorem MovesForward.lt_of_leaves
    (forward : MovesForward cursor size round state)
    (leaves : round state = .returned (.inr last)) :
    cursor last ≤ size ∧ (cursor state < cursor last ∨
      cursor state = size ∧ cursor last = size) := by
  cases forward with
  | forward after moves within returns =>
      rw [leaves] at returns
      rcases returns with returns | returns <;> cases returns
      exact ⟨within, .inl moves⟩
  | ended other atEnd stays returns =>
      rw [leaves] at returns
      cases returns
      exact ⟨stays.le, .inr ⟨atEnd, stays⟩⟩

theorem repeatRounds_of_movesForward {fuel : Nat}
    (advances : ∀ state, Visits round start state →
      MovesForward cursor size round state)
    (enough : size - cursor start < fuel) :
    ∃ state last, Visits round start state ∧
      round state = .returned (.inr last) ∧
      repeatRounds round fuel start = .returned last := by
  induction fuel generalizing start with
  | zero => exact absurd enough (Nat.not_lt_zero _)
  | succ fuel ih =>
      have leaves : ∀ last, round start = .returned (.inr last) →
          ∃ state last, Visits round start state ∧
            round state = .returned (.inr last) ∧
            repeatRounds round (fuel + 1) start = .returned last := by
        intro last hround
        refine ⟨start, last, .start, hround, ?_⟩
        rw [repeatRounds, hround, Completion.bind_returned]
      cases advances start .start with
      | ended last _ _ hround => exact leaves last hround
      | forward after moves within returns =>
          rcases returns with hround | hround
          · obtain ⟨state, last, hvisited, hlast, hloop⟩ := ih
              (fun state visited => advances state (visited.after hround))
              (by omega)
            refine ⟨state, last, hvisited.after hround, hlast, ?_⟩
            rw [repeatRounds, hround, Completion.bind_returned]
            exact hloop
          · exact leaves after hround

end Loop

end Susm.Foundation
