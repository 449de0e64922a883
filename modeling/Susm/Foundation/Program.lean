import Mathlib.Data.List.Basic

/-!
# Programs that talk to an environment

A program performs operations; the environment answers each of them freely.
What a program has done when it is interrupted is a history of operations with
their answers, so that stopping after any history is a crash at that point.

`wp` is the rule of postconditions for such programs.  A monitor follows the
history, says which answers are assumed and which operations are allowed;
loops are bounded by fuel and are covered by the invariant rule.
-/

namespace Susm.Foundation

/-- A computation that ends, has run out of fuel, or performs an operation. -/
inductive Program (Op : Type) (Answer : Op → Type) (Error Value : Type) where
  | done (result : Except Error Value)
  | exhausted
  | perform (op : Op) (next : Answer op → Program Op Answer Error Value)

/-- An operation together with the answer it got. -/
abbrev Occurrence (Op : Type) (Answer : Op → Type) := (op : Op) × Answer op

namespace Program

variable {Op : Type} {Answer : Op → Type} {Error Value Result : Type}

def bind (next : Value → Program Op Answer Error Result) :
    Program Op Answer Error Value → Program Op Answer Error Result
  | .done (.ok value) => next value
  | .done (.error error) => .done (.error error)
  | .exhausted => .exhausted
  | .perform op rest => .perform op fun answer => (rest answer).bind next

instance : Monad (Program Op Answer Error) where
  pure value := .done (.ok value)
  bind program next := program.bind next

def call (op : Op) : Program Op Answer Error (Answer op) :=
  .perform op fun answer => .done (.ok answer)

/-- The `?` operator. -/
def orFail (result : Except Error Value) : Program Op Answer Error Value :=
  .done result

/-- Repeat the body until it returns a result, for at most so many rounds. -/
def iterate {Local : Type}
    (body : Local → Program Op Answer Error (Local ⊕ Result)) :
    Nat → Local → Program Op Answer Error Result
  | 0, _ => .exhausted
  | fuel + 1, start =>
      (body start).bind fun
        | .inl next => iterate body fuel next
        | .inr result => .done (.ok result)

@[simp] theorem pure_eq (value : Value) :
    (pure value : Program Op Answer Error Value) = .done (.ok value) := rfl

@[simp] theorem bind_eq (program : Program Op Answer Error Value)
    (next : Value → Program Op Answer Error Result) :
    program >>= next = program.bind next := rfl

theorem bind_bind {Last : Type} (program : Program Op Answer Error Value)
    (next : Value → Program Op Answer Error Result)
    (last : Result → Program Op Answer Error Last) :
    (program.bind next).bind last =
      program.bind fun value => (next value).bind last := by
  induction program with
  | done result => cases result <;> rfl
  | exhausted => rfl
  | perform op rest ih => exact congrArg (perform op) (funext ih)

/-! ## Histories -/

/-- From the first program the history leads to the second. -/
inductive Steps : Program Op Answer Error Value →
    List (Occurrence Op Answer) → Program Op Answer Error Value → Prop
  | refl (program : Program Op Answer Error Value) : Steps program [] program
  | step {op : Op} {next : Answer op → Program Op Answer Error Value}
      {answer : Answer op} {history : List (Occurrence Op Answer)}
      {last : Program Op Answer Error Value}
      (rest : Steps (next answer) history last) :
      Steps (.perform op next) (⟨op, answer⟩ :: history) last

def Reaches (program : Program Op Answer Error Value)
    (history : List (Occurrence Op Answer)) : Prop :=
  ∃ last, Steps program history last

/-! ## Environments with a state -/

/-- What a deterministic environment makes of a program. -/
structure Execution (Op : Type) (Answer : Op → Type)
    (Error Value State : Type) where
  result : Option (Except Error Value)
  history : List (Occurrence Op Answer)
  state : State

def exec {State : Type} (answer : State → (op : Op) → Answer op × State) :
    Program Op Answer Error Value → State →
      Execution Op Answer Error Value State
  | .done result, state => ⟨some result, [], state⟩
  | .exhausted, state => ⟨none, [], state⟩
  | .perform op next, state =>
      let given := answer state op
      let rest := (next given.1).exec answer given.2
      { rest with history := ⟨op, given.1⟩ :: rest.history }

theorem exec_perform {State : Type}
    (answer : State → (op : Op) → Answer op × State) (op : Op)
    (next : Answer op → Program Op Answer Error Value) (state : State) :
    (perform op next).exec answer state =
      let rest := (next (answer state op).1).exec answer (answer state op).2
      { rest with history := ⟨op, (answer state op).1⟩ :: rest.history } :=
  rfl

def Execution.andThen {State : Type}
    (first : Execution Op Answer Error Value State)
    (next : Value → State → Execution Op Answer Error Result State) :
    Execution Op Answer Error Result State :=
  match first.result with
  | some (.ok value) =>
      let rest := next value first.state
      { rest with history := first.history ++ rest.history }
  | some (.error error) => ⟨some (.error error), first.history, first.state⟩
  | none => ⟨none, first.history, first.state⟩

theorem exec_bind {State : Type}
    (answer : State → (op : Op) → Answer op × State)
    (program : Program Op Answer Error Value)
    (next : Value → Program Op Answer Error Result) (state : State) :
    (program.bind next).exec answer state =
      (program.exec answer state).andThen fun value state =>
        (next value).exec answer state := by
  induction program generalizing state with
  | done result =>
      cases result with
      | ok value => rfl
      | error error => rfl
  | exhausted => rfl
  | perform op rest ih =>
      rw [bind, exec_perform, ih, exec_perform]
      generalize (rest (answer state op).1).exec answer (answer state op).2 =
        first
      obtain ⟨_ | error | value, history, last⟩ := first <;> rfl

theorem exec_reaches {State : Type}
    (answer : State → (op : Op) → Answer op × State)
    (program : Program Op Answer Error Value) (state : State) (count : Nat) :
    program.Reaches ((program.exec answer state).history.take count) := by
  induction program generalizing state count with
  | done result =>
      simp only [exec, List.take_nil]
      exact ⟨_, .refl _⟩
  | exhausted =>
      simp only [exec, List.take_nil]
      exact ⟨_, .refl _⟩
  | perform op next ih =>
      cases count with
      | zero =>
          rw [List.take_zero]
          exact ⟨_, .refl _⟩
      | succ count =>
          obtain ⟨last, hlast⟩ := ih (answer state op).1 (answer state op).2 count
          exact ⟨last, .step hlast⟩

theorem exec_reaches_all {State : Type}
    (answer : State → (op : Op) → Answer op × State)
    (program : Program Op Answer Error Value) (state : State) :
    program.Reaches (program.exec answer state).history := by
  have hreaches := program.exec_reaches answer state
    (program.exec answer state).history.length
  rwa [List.take_length] at hreaches

theorem exec_answers {State : Type}
    (answer : State → (op : Op) → Answer op × State)
    (program : Program Op Answer Error Value) (state : State) :
    ∀ occurrence ∈ (program.exec answer state).history,
      ∃ state, (answer state occurrence.1).1 = occurrence.2 := by
  induction program generalizing state with
  | done result => nofun
  | exhausted => nofun
  | perform op next ih =>
      rintro occurrence (_ | ⟨_, later⟩)
      · exact ⟨state, rfl⟩
      · exact ih _ _ occurrence later

/-! ## Monitors -/

/--
A monitor follows a history: which answers the environment may give, which
operations the program may perform, and the state after an occurrence.
-/
structure Monitor (Op : Type) (Answer : Op → Type) (State : Type) where
  admits : State → (op : Op) → Answer op → Prop
  permits : State → Op → Prop
  after : State → (op : Op) → Answer op → State

section Monitor

variable {State : Type} (monitor : Monitor Op Answer State)

def Monitor.Admits : State → List (Occurrence Op Answer) → Prop
  | _, [] => True
  | state, ⟨op, answer⟩ :: history =>
      monitor.admits state op answer ∧
        Monitor.Admits (monitor.after state op answer) history

/-- Every operation in the history is one that the monitor allows. -/
def Monitor.Permits : State → List (Occurrence Op Answer) → Prop
  | _, [] => True
  | state, ⟨op, answer⟩ :: history =>
      monitor.permits state op ∧
        Monitor.Permits (monitor.after state op answer) history

/-- The weakest precondition of a program under the monitor. -/
def wp (post : Except Error Value → State → Prop) :
    Program Op Answer Error Value → State → Prop
  | .done result, state => post result state
  | .exhausted, _ => True
  | .perform op next, state =>
      monitor.permits state op ∧
        ∀ answer, monitor.admits state op answer →
          (next answer).wp post (monitor.after state op answer)

variable {monitor}

theorem wp_permits {post : Except Error Value → State → Prop}
    {program last : Program Op Answer Error Value} {state : State}
    {history : List (Occurrence Op Answer)}
    (h : program.wp monitor post state) (steps : Steps program history last)
    (admitted : monitor.Admits state history) :
    monitor.Permits state history := by
  induction steps generalizing state with
  | refl => trivial
  | step rest ih => exact ⟨h.1, ih (h.2 _ admitted.1) admitted.2⟩

theorem Monitor.Permits.forall {state : State}
    {history : List (Occurrence Op Answer)}
    (h : monitor.Permits state history) {Allowed : Op → Prop}
    (allowed : ∀ state op, monitor.permits state op → Allowed op) :
    ∀ occurrence ∈ history, Allowed occurrence.1 := by
  induction history generalizing state with
  | nil => simp
  | cons occurrence history ih =>
      exact List.forall_mem_cons.mpr ⟨allowed state _ h.1, ih h.2⟩

theorem wp_mono {post weaker : Except Error Value → State → Prop}
    {program : Program Op Answer Error Value} {state : State}
    (h : program.wp monitor post state)
    (implies : ∀ result state, post result state → weaker result state) :
    program.wp monitor weaker state := by
  induction program generalizing state with
  | done result => exact implies result state h
  | exhausted => trivial
  | perform op next ih =>
      exact ⟨h.1, fun answer admitted => ih answer (h.2 answer admitted)⟩

/-- The postcondition of a first stage whose success continues. -/
def andThen (continues : Value → State → Prop)
    (fails : Except Error Result → State → Prop) :
    Except Error Value → State → Prop
  | .ok value, state => continues value state
  | .error error, state => fails (.error error) state

theorem wp_bind {post : Except Error Result → State → Prop}
    {program : Program Op Answer Error Value}
    {next : Value → Program Op Answer Error Result} {state : State}
    (h : program.wp monitor
      (andThen (fun value => (next value).wp monitor post) post) state) :
    (program.bind next).wp monitor post state := by
  induction program generalizing state with
  | done result =>
      cases result with
      | ok value => exact h
      | error error => exact h
  | exhausted => trivial
  | perform op rest ih =>
      exact ⟨h.1, fun answer admitted => ih answer (h.2 answer admitted)⟩

/-- A postcondition of the successful end only. -/
def onOk (post : Value → State → Prop) : Except Error Value → State → Prop
  | .ok value, state => post value state
  | .error _, _ => True

theorem wp_seq {middle : Value → State → Prop} {post : Result → State → Prop}
    {program : Program Op Answer Error Value}
    {next : Value → Program Op Answer Error Result} {state : State}
    (first : program.wp monitor (onOk middle) state)
    (rest : ∀ value state, middle value state →
      (next value).wp monitor (onOk post) state) :
    (program.bind next).wp monitor (onOk post) state := by
  refine wp_bind (wp_mono first ?_)
  rintro (error | value) state hmiddle
  · trivial
  · exact rest value state hmiddle

/-- What a round of a loop owes: the invariant again, or the postcondition. -/
def round {Local : Type} (inv : Local → State → Prop)
    (post : Except Error Result → State → Prop) :
    Except Error (Local ⊕ Result) → State → Prop
  | .ok (.inl next), state => inv next state
  | .ok (.inr result), state => post (.ok result) state
  | .error error, state => post (.error error) state

theorem wp_iterate {Local : Type}
    {body : Local → Program Op Answer Error (Local ⊕ Result)}
    {post : Except Error Result → State → Prop}
    (inv : Local → State → Prop)
    (keeps : ∀ start state, inv start state →
      (body start).wp monitor (round inv post) state)
    (fuel : Nat) {start : Local} {state : State} (h : inv start state) :
    (iterate body fuel start).wp monitor post state := by
  induction fuel generalizing start state with
  | zero => trivial
  | succ fuel ih =>
      refine wp_bind (wp_mono (keeps start state h) ?_)
      rintro (error | next | result) state hround
      · exact hround
      · exact ih hround
      · exact hround

theorem wp_loop {Local : Type}
    {body : Local → Program Op Answer Error (Local ⊕ Result)}
    {post : Result → State → Prop} (inv : Local → State → Prop)
    (keeps : ∀ start state, inv start state →
      (body start).wp monitor (onOk (Sum.elim inv post)) state)
    (fuel : Nat) {start : Local} {state : State} (h : inv start state) :
    (iterate body fuel start).wp monitor (onOk post) state := by
  refine wp_iterate inv (fun start state hinv => ?_) fuel h
  refine wp_mono (keeps start state hinv) ?_
  rintro (error | next | result) state hround <;> exact hround

theorem wp_call {op : Op} {post : Except Error (Answer op) → State → Prop}
    {state : State} (permitted : monitor.permits state op)
    (h : ∀ answer, monitor.admits state op answer →
      post (.ok answer) (monitor.after state op answer)) :
    (call op : Program Op Answer Error (Answer op)).wp monitor post state :=
  ⟨permitted, h⟩

/-! ## Programs that only do what is allowed -/

/-- Whatever the monitor saw before, every operation is allowed and the result
satisfies the postcondition. -/
def Ensures (monitor : Monitor Op Answer State)
    (post : Except Error Value → Prop)
    (program : Program Op Answer Error Value) : Prop :=
  ∀ state, program.wp monitor (fun result _ => post result) state

abbrev Safe (monitor : Monitor Op Answer State)
    (program : Program Op Answer Error Value) : Prop :=
  Ensures monitor (fun _ => True) program

theorem Ensures.done {post : Except Error Value → Prop}
    {result : Except Error Value} (h : post result) :
    Ensures monitor post (.done result : Program Op Answer Error Value) :=
  fun _ => h

theorem Safe.done (result : Except Error Value) :
    Safe monitor (.done result : Program Op Answer Error Value) :=
  fun _ => trivial

theorem Safe.call {op : Op} (permitted : ∀ state, monitor.permits state op) :
    Safe monitor (Program.call op : Program Op Answer Error (Answer op)) :=
  fun state => wp_call (permitted state) fun _ _ => trivial

theorem Ensures.bind {post : Except Error Result → Prop}
    {program : Program Op Answer Error Value}
    {next : Value → Program Op Answer Error Result}
    (first : Safe monitor program)
    (fails : ∀ error, post (.error error))
    (rest : ∀ value, Ensures monitor post (next value)) :
    Ensures monitor post (program.bind next) := by
  intro state
  refine wp_bind (wp_mono (first state) ?_)
  rintro (error | value) state -
  · exact fails error
  · exact rest value state

theorem Safe.bind {program : Program Op Answer Error Value}
    {next : Value → Program Op Answer Error Result}
    (first : Safe monitor program) (rest : ∀ value, Safe monitor (next value)) :
    Safe monitor (program.bind next) :=
  Ensures.bind first (fun _ => trivial) rest

/-! ## Programs of some operations only -/

def Only (kind : Op → Prop) : Program Op Answer Error Value → Prop
  | .done _ | .exhausted => True
  | .perform op next => kind op ∧ ∀ answer, (next answer).Only kind

section Only

variable {kind : Op → Prop}

theorem Only.done (result : Except Error Value) :
    (.done result : Program Op Answer Error Value).Only kind :=
  trivial

theorem Only.call {op : Op} (h : kind op) :
    (Program.call op : Program Op Answer Error (Answer op)).Only kind :=
  ⟨h, fun _ => trivial⟩

theorem Only.bind {program : Program Op Answer Error Value}
    {next : Value → Program Op Answer Error Result}
    (first : program.Only kind) (rest : ∀ value, (next value).Only kind) :
    (program.bind next).Only kind := by
  induction program with
  | done result =>
      cases result with
      | ok value => exact rest value
      | error error => trivial
  | exhausted => trivial
  | perform op next ih =>
      exact ⟨first.1, fun answer => ih answer (first.2 answer)⟩

theorem Only.mono {other : Op → Prop} {program : Program Op Answer Error Value}
    (only : program.Only kind) (implies : ∀ op, kind op → other op) :
    program.Only other := by
  induction program with
  | done result => trivial
  | exhausted => trivial
  | perform op next ih =>
      exact ⟨implies op only.1, fun answer => ih answer (only.2 answer)⟩

theorem Only.wp {program : Program Op Answer Error Value}
    (only : program.Only kind) (permitted : ∀ state op, kind op →
      monitor.permits state op)
    (unnoticed : ∀ state op answer, kind op →
      monitor.after state op answer = state) (state : State) :
    program.wp monitor (onOk fun _ last => last = state) state := by
  induction program with
  | done result => cases result <;> trivial
  | exhausted => trivial
  | perform op next ih =>
      refine ⟨permitted state op only.1, fun answer _ => ?_⟩
      rw [unnoticed state op answer only.1]
      exact ih answer (only.2 answer)

end Only

end Monitor

end Program

end Susm.Foundation
