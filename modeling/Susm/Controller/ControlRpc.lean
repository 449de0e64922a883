import Mathlib.Data.String.Basic
import Susm.Controller.State
import Susm.Domain.WorkloadIds
import Susm.Foundation.Decimal
import Susm.Foundation.PartitionPoint

/-!
# The list methods of the control service

`list_workloads` and `list_executions` answer one page and the cursor of the
next.  An index outside a list is a panic of its own, apart from the statuses.
-/

namespace Susm.Controller

open Susm.Foundation
open Susm.Domain

/-- The gRPC codes in use. -/
inductive Code where
  | invalidArgument
  | notFound
  | alreadyExists
  | failedPrecondition
  | internal
  | unauthenticated
  deriving DecidableEq, Repr

structure Status where
  code : Code
  message : String
  deriving DecidableEq, Repr

/-- How a request can fail. -/
inductive RpcFailure where
  | status (status : Status)
  | panic
  deriving DecidableEq, Repr

abbrev Rpc := Except RpcFailure

def invalidArgument (message : String) : RpcFailure :=
  .status ⟨.invalidArgument, message⟩

def mapError (error : ManagerError) : RpcFailure :=
  .status ⟨match error with
    | .notFound _ => .notFound
    | .alreadyActive _ => .alreadyExists
    | .definitionMissing _ | .wrongKind .. | .kindChangeActive _
    | .supervisorIdentityMismatch | .sessionEnding => .failedPrecondition
    | .config => .invalidArgument
    | .storage _ | .io | .invalidSystemTime => .internal, error.message⟩

def authenticate (known : Bool) : Rpc Unit :=
  if known then .ok ()
  else
    .error (.status ⟨.unauthenticated,
      "named-pipe caller identity is missing"⟩)

def workloadId (value : String) : Rpc String :=
  match WorkloadId.parse value with
  | .ok _ => .ok value
  | .error error => .error (invalidArgument error.message)

def pageSize (value : Nat) : Rpc Nat :=
  if value = 0 then .ok 100
  else if value ≤ 1000 then .ok value
  else .error (invalidArgument "page_size must not exceed 1000")

theorem pageSize_of_le {value : Nat} (hpos : 0 < value)
    (hle : value ≤ 1000) : pageSize value = .ok value := by
  simp [pageSize, hpos.ne', hle]

/-- `items[index - 1]` -/
def itemBefore {Item : Type} (items : List Item) (index : Nat) : Rpc Item :=
  match if index = 0 then none else items[index - 1]? with
  | some item => .ok item
  | none => .error .panic

/-- `items[first..last]` -/
def sliceOf {Item : Type} (items : List Item) (first last : Nat) :
    Rpc (List Item) :=
  if first ≤ last ∧ last ≤ items.length then
    .ok ((items.drop first).take (last - first))
  else .error .panic

/-! ## Workloads -/

structure ListWorkloadsRequest where
  pageSize : Nat
  cursor : String
  deriving DecidableEq, Repr

structure ListWorkloadsResponse where
  workloads : List Workload
  nextCursor : String
  deriving DecidableEq, Repr

/-- The records in the order of their identifiers. -/
def State.records (state : State) : List (String × WorkloadRecord) :=
  state.workloads.toList.insertionSort fun first second => first.1 ≤ second.1

def State.listWorkloads (state : State) : List Workload :=
  state.records.map fun (id, record) =>
    workloadView id record (state.active.lookup id)

def pageStart (workloads : List Workload) (cursor : String) : Nat :=
  if cursor = "" then 0
  else partitionPoint (fun workload => workload.workloadId ≤ cursor) workloads

def listWorkloads (known : Bool) (state : State)
    (request : ListWorkloadsRequest) : Rpc ListWorkloadsResponse := do
  authenticate known
  let size ← pageSize request.pageSize
  let workloads := state.listWorkloads
  let start := pageStart workloads request.cursor
  -- no list is so long that the sum would saturate
  let last := min (start + size) workloads.length
  let nextCursor ←
    if last < workloads.length then
      (itemBefore workloads last).map Workload.workloadId
    else .ok ""
  let page ← sliceOf workloads start last
  return ⟨page, nextCursor⟩

/-! ## Executions -/

structure ListExecutionsRequest where
  workloadId : String
  pageSize : Nat
  cursor : String
  deriving DecidableEq, Repr

structure Execution where
  executionId : String
  workloadId : String
  state : StateName
  supervisorProcessId : Nat
  workloadProcessId : Nat
  attempt : Nat
  startedUnixMs : Int
  endedUnixMs : Int
  exitCode : Option UInt32
  error : String
  deriving DecidableEq, Repr

structure ListExecutionsResponse where
  executions : List Execution
  nextCursor : String
  deriving DecidableEq, Repr

def executionView (id : String) (value : StoredExecution) : Execution where
  executionId := id
  workloadId := value.workloadId
  state := value.state
  supervisorProcessId := value.supervisorProcessId
  workloadProcessId := value.workloadProcessId
  attempt := value.attempt
  startedUnixMs := value.startedUnixMs
  endedUnixMs := value.endedUnixMs
  exitCode := value.exitCode
  error := value.error

/-- A row of the table with its primary key. -/
abbrev ExecutionRow := String × StoredExecution

/-- `ORDER BY started_unix_ms DESC`; rows that started together may come in any
order. -/
structure RowOrder where
  sort : List ExecutionRow → List ExecutionRow
  perm : ∀ rows, (sort rows).Perm rows
  sorted : ∀ rows, (sort rows).Pairwise fun first second =>
    second.2.startedUnixMs ≤ first.2.startedUnixMs

namespace Database

def executionsOf (database : Database) (workloadId : String) :
    List ExecutionRow :=
  database.executions.toList.filter fun row => row.2.workloadId = workloadId

/-- The condition on `started_unix_ms` holds when there is no bound. -/
def listExecutions (database : Database) (order : RowOrder)
    (workloadId : String) (limit : Nat) (before : Option Int) :
    List ExecutionRow :=
  (order.sort ((database.executionsOf workloadId).filter fun row =>
    before.all fun bound => row.2.startedUnixMs < bound)).take limit

end Database

def State.listExecutions (state : State) (database : Database)
    (order : RowOrder) (workloadId : String) (limit : Nat)
    (before : Option Int) : Except ManagerError (List Execution) :=
  if (state.workloads.lookup workloadId).isNone then
    .error (.notFound workloadId)
  else
    .ok ((database.listExecutions order workloadId limit before).map
      fun row => executionView row.1 row.2)

/-- An empty cursor is no bound, any other one a 64-bit integer. -/
def executionCursor (cursor : String) : Rpc (Option Int) :=
  if cursor = "" then .ok none
  else
    match Decimal.parseInt (2 ^ 63) cursor.toList with
    | some before => .ok (some before)
    | none => .error (invalidArgument "execution cursor is invalid")

def listExecutions (known : Bool) (state : State) (database : Database)
    (order : RowOrder) (request : ListExecutionsRequest) :
    Rpc ListExecutionsResponse := do
  authenticate known
  let id ← workloadId request.workloadId
  let before ← executionCursor request.cursor
  let size ← pageSize request.pageSize
  let executions ←
    (state.listExecutions database order id size before).mapError mapError
  let nextCursor :=
    match executions.getLast?.filter fun _ => executions.length = size with
    | some execution =>
        String.ofList (Decimal.writeInt execution.startedUnixMs)
    | none => ""
  return ⟨executions, nextCursor⟩

end Susm.Controller
