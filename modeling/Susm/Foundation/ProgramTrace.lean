import Susm.Foundation.Program

/-!
# Traces of programs in a deterministic environment

What a program shows to an observer while a deterministic environment answers
it.  `Yields` is the big-step view: the program ends with a value after it has
shown some outputs; its rules follow the operations of programs.  `Starves` is
the view of a program whose loops run out of fuel.
-/

namespace Susm.Foundation.Program

variable {Op : Type} {Answer : Op → Type} {Error Value Result : Type}
variable {State Output : Type}

def trace (answer : State → (op : Op) → Answer op × State)
    (observe : Occurrence Op Answer → Option Output)
    (program : Program Op Answer Error Value) (state : State) : List Output :=
  (program.exec answer state).history.filterMap observe

structure Yields (answer : State → (op : Op) → Answer op × State)
    (observe : Occurrence Op Answer → Option Output)
    (program : Program Op Answer Error Value) (state : State) (value : Value)
    (outputs : List Output) (last : State) : Prop where
  result : (program.exec answer state).result = some (.ok value)
  outputs : program.trace answer observe state = outputs
  last : (program.exec answer state).state = last

variable {answer : State → (op : Op) → Answer op × State}
variable {observe : Occurrence Op Answer → Option Output}

theorem Yields.done (value : Value) (state : State) :
    Yields answer observe (.done (.ok value) : Program Op Answer Error Value)
      state value [] state :=
  ⟨rfl, rfl, rfl⟩

theorem Yields.call {op : Op} {state last : State} {reply : Answer op}
    {output : Option Output} (h : answer state op = (reply, last))
    (shown : observe ⟨op, reply⟩ = output) :
    Yields answer observe (call op : Program Op Answer Error (Answer op))
      state reply output.toList last := by
  have hreply : (answer state op).1 = reply := by rw [h]
  refine ⟨?_, ?_, ?_⟩
  · change some (Except.ok (answer state op).1) = _
    rw [hreply]
  · change List.filterMap observe [⟨op, (answer state op).1⟩] = _
    rw [hreply, List.filterMap_cons, shown]
    cases output <;> rfl
  · change (answer state op).2 = _
    rw [h]

theorem trace_bind {program : Program Op Answer Error Value}
    {next : Value → Program Op Answer Error Result} {state middle : State}
    {value : Value} {outputs : List Output}
    (first : Yields answer observe program state value outputs middle) :
    (program.bind next).trace answer observe state =
      outputs ++ (next value).trace answer observe middle := by
  unfold trace
  rw [exec_bind, Execution.andThen, first.result, first.last]
  dsimp only
  rw [List.filterMap_append]
  exact congrArg (· ++ _) first.outputs

theorem trace_bind_quiet {program : Program Op Answer Error Value}
    {next : Value → Program Op Answer Error Result} {state : State}
    (quiet : ∀ value state, (next value).trace answer observe state = []) :
    (program.bind next).trace answer observe state =
      program.trace answer observe state := by
  unfold trace at *
  rw [exec_bind, Execution.andThen]
  split
  next value _ =>
    rw [List.filterMap_append, quiet, List.append_nil]
  next => rfl
  next => rfl

theorem Yields.bind {program : Program Op Answer Error Value}
    {next : Value → Program Op Answer Error Result}
    {state middle last : State} {value : Value} {result : Result}
    {outputs more : List Output}
    (first : Yields answer observe program state value outputs middle)
    (second : Yields answer observe (next value) middle result more last) :
    Yields answer observe (program.bind next) state result (outputs ++ more)
      last := by
  refine ⟨?_, ?_, ?_⟩
  · rw [exec_bind, Execution.andThen, first.result, first.last]
    exact second.result
  · rw [trace_bind first, second.outputs]
  · rw [exec_bind, Execution.andThen, first.result, first.last]
    exact second.last

theorem Yields.silent_bind {program : Program Op Answer Error Value}
    {next : Value → Program Op Answer Error Result}
    {state middle last : State} {value : Value} {result : Result}
    {outputs : List Output}
    (first : Yields answer observe program state value [] middle)
    (second : Yields answer observe (next value) middle result outputs last) :
    Yields answer observe (program.bind next) state result outputs last :=
  first.bind second

theorem Yields.bind_silent {program : Program Op Answer Error Value}
    {next : Value → Program Op Answer Error Result}
    {state middle last : State} {value : Value} {result : Result}
    {outputs : List Output}
    (first : Yields answer observe program state value outputs middle)
    (second : Yields answer observe (next value) middle result [] last) :
    Yields answer observe (program.bind next) state result outputs last := by
  have composed := first.bind second
  rwa [List.append_nil] at composed

theorem trace_iterate_inl {Local : Type}
    {body : Local → Program Op Answer Error (Local ⊕ Result)}
    {start next : Local} {state middle : State} {outputs : List Output}
    (round : Yields answer observe (body start) state (.inl next) outputs
      middle) (fuel : Nat) :
    (iterate body (fuel + 1) start).trace answer observe state =
      outputs ++ (iterate body fuel next).trace answer observe middle :=
  trace_bind round

theorem trace_iterate_inr {Local : Type}
    {body : Local → Program Op Answer Error (Local ⊕ Result)} {start : Local}
    {result : Result} {state last : State} {outputs : List Output}
    (round : Yields answer observe (body start) state (.inr result) outputs
      last) (fuel : Nat) :
    (iterate body (fuel + 1) start).trace answer observe state = outputs :=
  (trace_bind round).trans (List.append_nil outputs)

theorem Yields.iterate {Local : Type}
    {body : Local → Program Op Answer Error (Local ⊕ Result)} {start : Local}
    {result : Result} {state last : State} {outputs : List Output}
    (round : Yields answer observe (body start) state (.inr result) outputs
      last) (fuel : Nat) :
    Yields answer observe (iterate body (fuel + 1) start) state result outputs
      last :=
  round.bind_silent (.done result last)

/-! ## Programs that run out of fuel -/

/-- The program gets no further after it has shown the outputs. -/
structure Starves (answer : State → (op : Op) → Answer op × State)
    (observe : Occurrence Op Answer → Option Output)
    (program : Program Op Answer Error Value) (state : State)
    (outputs : List Output) : Prop where
  result : (program.exec answer state).result = none
  outputs : program.trace answer observe state = outputs

theorem Starves.exhausted (state : State) :
    Starves answer observe (.exhausted : Program Op Answer Error Value) state
      [] :=
  ⟨rfl, rfl⟩

theorem Starves.bind {program : Program Op Answer Error Value}
    {next : Value → Program Op Answer Error Result} {state : State}
    {outputs : List Output} (first : Starves answer observe program state
      outputs) :
    Starves answer observe (program.bind next) state outputs := by
  have hexec : (program.bind next).exec answer state =
      ⟨none, (program.exec answer state).history,
        (program.exec answer state).state⟩ := by
    rw [exec_bind, Execution.andThen, first.result]
  refine ⟨?_, ?_⟩
  · rw [hexec]
  · rw [trace, hexec]
    exact first.outputs

theorem Yields.starves {program : Program Op Answer Error Value}
    {next : Value → Program Op Answer Error Result} {state middle : State}
    {value : Value} {outputs more : List Output}
    (first : Yields answer observe program state value outputs middle)
    (second : Starves answer observe (next value) middle more) :
    Starves answer observe (program.bind next) state (outputs ++ more) := by
  refine ⟨?_, ?_⟩
  · rw [exec_bind, Execution.andThen, first.result, first.last]
    exact second.result
  · rw [trace_bind first, second.outputs]

theorem Starves.iterate {Local : Type}
    {body : Local → Program Op Answer Error (Local ⊕ Result)} {start : Local}
    {state : State}
    (round : Yields answer observe (body start) state (.inl start) [] state)
    (fuel : Nat) :
    Starves answer observe (iterate body fuel start) state [] := by
  induction fuel with
  | zero => exact .exhausted state
  | succ fuel ih => exact round.starves ih

theorem Starves.iterate_round {Local : Type}
    {body : Local → Program Op Answer Error (Local ⊕ Result)} {start : Local}
    {state : State} (round : Starves answer observe (body start) state [])
    (fuel : Nat) :
    Starves answer observe (Program.iterate body fuel start) state [] := by
  cases fuel with
  | zero => exact .exhausted state
  | succ fuel => exact round.bind

end Susm.Foundation.Program
