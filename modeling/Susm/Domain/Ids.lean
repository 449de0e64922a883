import Susm.Foundation.Duration

/-!
# Identifiers and counters

The counters of the domain are non-zero integers of a fixed width; the
identifiers are UUIDs and hashes.  Each keeps a type of its own through a
phantom kind, so that an attempt number is never taken for a retry ordinal.
-/

namespace Susm.Domain

open Susm.Foundation

inductive CounterKind where
  | attempt
  | retry
  | incarnation
  | revision
  deriving DecidableEq, Repr

/-- The exclusive bound of the integer that stores a counter of the kind. -/
def CounterKind.limit : CounterKind → Nat
  | .attempt | .retry | .incarnation => 2 ^ 32
  | .revision => 2 ^ 64

structure Counter (kind : CounterKind) where
  get : Nat
  pos : 0 < get
  lt : get < kind.limit
  deriving DecidableEq, Repr

namespace Counter

variable {kind : CounterKind}

@[ext] theorem ext {first second : Counter kind}
    (h : first.get = second.get) : first = second := by
  cases first
  cases second
  cases h
  rfl

theorem one_lt_limit (kind : CounterKind) : 1 < kind.limit := by
  cases kind <;> decide

/-- `FIRST`, the smallest non-zero value. -/
def first : Counter kind := ⟨1, Nat.one_pos, one_lt_limit kind⟩

@[irreducible] def new (value : Nat) : Option (Counter kind) :=
  if h : 0 < value ∧ value < kind.limit then some ⟨value, h.1, h.2⟩ else none

/-- `checked_add(1)` followed by the non-zero check. -/
def next (counter : Counter kind) : Option (Counter kind) :=
  (checked kind.limit (counter.get + 1)).bind new

@[simp] theorem get_first : (first : Counter kind).get = 1 := rfl

theorem new_eq_some_iff {value : Nat} {counter : Counter kind} :
    new value = some counter ↔ value = counter.get := by
  unfold new
  constructor
  · intro h
    split at h
    · cases h
      rfl
    · contradiction
  · rintro rfl
    rw [dif_pos ⟨counter.pos, counter.lt⟩]

theorem new_eq_none_iff {value : Nat} :
    (new value : Option (Counter kind)) = none ↔
      value = 0 ∨ kind.limit ≤ value := by
  simp [new]
  omega

theorem next_eq_some_iff {counter successor : Counter kind} :
    counter.next = some successor ↔ counter.get + 1 = successor.get := by
  unfold next
  rw [Option.bind_eq_some_iff]
  constructor
  · rintro ⟨value, hchecked, hnew⟩
    rw [(checked_eq_some_iff.mp hchecked).2, new_eq_some_iff.mp hnew]
  · intro h
    have hlt : counter.get + 1 < kind.limit := h ▸ successor.lt
    exact ⟨counter.get + 1, checked_of_lt hlt, new_eq_some_iff.mpr h⟩

theorem next_eq_none_iff {counter : Counter kind} :
    counter.next = none ↔ kind.limit ≤ counter.get + 1 := by
  unfold next
  by_cases h : counter.get + 1 < kind.limit
  · simp [h, new]
  · rw [checked_eq_none_iff.mpr (by omega)]
    simp
    omega

end Counter

abbrev AttemptNumber := Counter .attempt
abbrev RetryOrdinal := Counter .retry
abbrev SupervisorIncarnation := Counter .incarnation
abbrev IntentRevision := Counter .revision

inductive IdentifierKind where
  | managerSession
  | execution
  | supervisor
  deriving DecidableEq, Repr

structure Identifier (kind : IdentifierKind) where
  uuid : BitVec 128
  deriving DecidableEq, Repr

abbrev ManagerSessionId := Identifier .managerSession
abbrev ExecutionId := Identifier .execution
abbrev SupervisorId := Identifier .supervisor

structure WorkloadId where
  value : String
  deriving DecidableEq, Repr

inductive HashKind where
  | configGeneration
  | processDefinition
  | executionConfig
  deriving DecidableEq, Repr

/-- A SHA-256 value of the given kind, as its thirty-two bytes. -/
structure Sha256 (kind : HashKind) where
  bytes : Vector UInt8 32
  deriving DecidableEq, Repr

abbrev ConfigGeneration := Sha256 .configGeneration
abbrev ProcessDefinitionHash := Sha256 .processDefinition
abbrev ExecutionConfigHash := Sha256 .executionConfig

end Susm.Domain
