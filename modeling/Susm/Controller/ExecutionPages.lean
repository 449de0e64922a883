import Susm.Controller.ControlRpc
import Susm.Controller.Installation
import Susm.Foundation.KeysetPaging

/-!
# Paging through the execution history

A client follows the cursors of `list_executions` until there is none.  The
cursor is the start time of the last execution on a page; what the client gets
is all of the history exactly when no page ends between two executions that
started in the same millisecond.
-/

namespace Susm.Controller

open Susm.Foundation
open Susm.Foundation.KeysetPaging
open Susm.Domain

/-- Follow the cursors, for at most so many pages. -/
def followExecutions (respond : String → Rpc ListExecutionsResponse) :
    Nat → String → Option (List ListExecutionsResponse)
  | 0, _ => none
  | fuel + 1, cursor =>
      match respond cursor with
      | .error _ => none
      | .ok response =>
          if response.nextCursor = "" then some [response]
          else
            (followExecutions respond fuel response.nextCursor).map
              (response :: ·)

/-- Following the cursors ends and gives every execution once, latest first. -/
def PagesComplete (respond : String → Rpc ListExecutionsResponse)
    (executions : List Execution) : Prop :=
  ∃ fuel responses, followExecutions respond fuel "" = some responses ∧
    (responses.flatMap ListExecutionsResponse.executions).Perm executions ∧
    (responses.flatMap ListExecutionsResponse.executions).Pairwise
      fun first second => second.startedUnixMs ≤ first.startedUnixMs

namespace Database

variable (database : Database) (workloadId : String)

def history : List Execution :=
  (database.executionsOf workloadId).map fun row => executionView row.1 row.2

/-- The start times of the history, latest first. -/
def startTimes : List Int :=
  ((database.executionsOf workloadId).map fun row =>
    row.2.startedUnixMs).insertionSort (· ≥ ·)

end Database

/-- Start times are signed 64-bit integers. -/
def IsStartTime (value : Int) : Prop := -2 ^ 63 ≤ value ∧ value < 2 ^ 63

section Pages

variable {state : State} {database : Database} {order : RowOrder}
  {id : String} {size : Nat}

def startOf (row : ExecutionRow) : Int := row.2.startedUnixMs

def historyQuery (database : Database) (order : RowOrder) (id : String) :
    Query startOf (database.executionsOf id) where
  answer before := order.sort ((database.executionsOf id).filter fun row =>
    before.all fun bound => row.2.startedUnixMs < bound)
  perm _ := order.perm _
  descending _ := order.sorted _

def cursorText : Option Int → String
  | none => ""
  | some bound => String.ofList (Decimal.writeInt bound)

theorem executionCursor_cursorText {before : Option Int}
    (bounded : ∀ bound ∈ before, IsStartTime bound) :
    executionCursor (cursorText before) = .ok before := by
  cases before with
  | none => rfl
  | some bound =>
      obtain ⟨hlower, hupper⟩ := bounded bound rfl
      have hne : cursorText (some bound) ≠ "" := by
        intro h
        have hnil := congrArg String.toList h
        exact Decimal.writeInt_ne_nil bound (by simpa [cursorText] using hnil)
      rw [executionCursor, if_neg hne, cursorText, String.toList_ofList,
        Decimal.parseInt_writeInt hlower hupper]

theorem cursorText_eq_empty_iff {before : Option Int} :
    cursorText before = "" ↔ before = none := by
  cases before with
  | none => simp [cursorText]
  | some bound =>
      simp [cursorText, String.ofList_eq_empty_iff, Decimal.writeInt_ne_nil]

def pageResponse (size : Nat) (page : List ExecutionRow) :
    ListExecutionsResponse where
  executions := page.map fun row => executionView row.1 row.2
  nextCursor := cursorText (nextCursor startOf size page)

theorem listExecutions_page {parsed : WorkloadId}
    (valid : WorkloadId.parse id = .ok parsed)
    (present : (state.workloads.lookup id).isSome) (hpos : 0 < size)
    (hsize : size ≤ 1000) {before : Option Int}
    (bounded : ∀ bound ∈ before, IsStartTime bound) :
    listExecutions true state database order
        ⟨id, size, cursorText before⟩ =
      .ok (pageResponse size
        (((historyQuery database order id).answer before).take size)) := by
  have hpage : database.listExecutions order id size before =
      ((historyQuery database order id).answer before).take size := rfl
  have hpresent : (state.workloads.lookup id).isNone = false := by
    simpa using present
  simp only [listExecutions, authenticate, workloadId, valid,
    executionCursor_cursorText bounded, pageSize_of_le hpos hsize,
    State.listExecutions, hpresent, hpage, bind, Except.bind, Except.mapError,
    pageResponse, nextCursor, Bool.false_eq_true, if_true, if_false]
  generalize ((historyQuery database order id).answer before).take size = page
  rw [List.getLast?_map, List.length_map]
  by_cases hfull : page.length = size
  · cases page.getLast? <;>
      simp [hfull, cursorText, executionView, startOf, Option.filter,
        Except.pure, pure]
  · cases page.getLast? <;>
      simp [hfull, cursorText, Option.filter, Except.pure, pure]

/-- Every row of the history starts at a 64-bit time. -/
def Database.StartsBounded (database : Database) (id : String) : Prop :=
  ∀ row ∈ database.executionsOf id, IsStartTime row.2.startedUnixMs

theorem nextCursor_bounded (starts : database.StartsBounded id)
    {before : Option Int} {bound : Int}
    (h : nextCursor startOf size
      (((historyQuery database order id).answer before).take size) =
        some bound) : IsStartTime bound := by
  have cut := cut_of_nextCursor
    ((historyQuery database order id).descending before) h
  obtain ⟨row, hrow, rfl⟩ := Option.map_eq_some_iff.mp cut.last
  have hanswer : row ∈ (historyQuery database order id).answer before :=
    List.mem_of_mem_take (List.mem_of_getLast? hrow)
  have hrows := ((historyQuery database order id).perm before).mem_iff.mp
    hanswer
  exact starts row (List.mem_of_mem_filter hrows)

theorem followExecutions_eq {parsed : WorkloadId}
    (valid : WorkloadId.parse id = .ok parsed)
    (present : (state.workloads.lookup id).isSome) (hpos : 0 < size)
    (hsize : size ≤ 1000) (starts : database.StartsBounded id) (fuel : Nat)
    {before : Option Int} (bounded : ∀ bound ∈ before, IsStartTime bound) :
    followExecutions (fun cursor =>
        listExecutions true state database order ⟨id, size, cursor⟩) fuel
        (cursorText before) =
      (walk startOf (historyQuery database order id).answer size fuel
        before).map (List.map (pageResponse size)) := by
  induction fuel generalizing before with
  | zero => rfl
  | succ fuel ih =>
      rw [followExecutions, walk,
        listExecutions_page valid present hpos hsize bounded]
      dsimp only [pageResponse]
      cases hnext : nextCursor startOf size
          (((historyQuery database order id).answer before).take size) with
      | none => simp [cursorText, pageResponse, hnext]
      | some bound =>
          have hbound := nextCursor_bounded starts hnext
          have hne : cursorText (some bound) ≠ "" := by
            simp [cursorText_eq_empty_iff]
          have hrest := @ih (some bound) (by simpa using hbound)
          rw [if_neg hne, hrest]
          simp [Function.comp_def, pageResponse, hnext]

theorem historyQuery_all (database : Database) (order : RowOrder)
    (id : String) :
    ((historyQuery database order id).answer none).Perm
      (database.executionsOf id) := by
  have hperm := (historyQuery database order id).perm none
  rwa [show (database.executionsOf id).filter (below startOf none) =
    database.executionsOf id by simp [below]] at hperm

theorem startTimes_eq (database : Database) (order : RowOrder) (id : String) :
    ((historyQuery database order id).answer none).map startOf =
      database.startTimes id := by
  have htable := (historyQuery_all database order id).map startOf
  have hsort := List.perm_insertionSort (· ≥ ·)
    ((database.executionsOf id).map startOf)
  have hanswer : (((historyQuery database order id).answer none).map
      startOf).Pairwise (· ≥ ·) :=
    List.pairwise_map.mpr ((historyQuery database order id).descending none)
  have hsorted := List.pairwise_insertionSort (· ≥ ·)
    ((database.executionsOf id).map startOf)
  refine (htable.trans hsort.symm).eq_of_pairwise ?_ hanswer hsorted
  intro first second _ _ hge hle
  exact le_antisymm hle hge

theorem pageResponse_executions (pages : List (List ExecutionRow)) :
    (pages.map (pageResponse size)).flatMap
        ListExecutionsResponse.executions =
      pages.flatten.map fun row => executionView row.1 row.2 := by
  induction pages with
  | nil => rfl
  | cons page pages ih =>
      rw [List.map_cons, List.flatMap_cons, ih, List.flatten_cons,
        List.map_append]
      rfl

section Complete

variable {parsed : WorkloadId} (valid : WorkloadId.parse id = .ok parsed)
  (present : (state.workloads.lookup id).isSome) (hpos : 0 < size)
  (hsize : size ≤ 1000) (starts : database.StartsBounded id)

include valid present hpos hsize starts

theorem followExecutions_first (order : RowOrder) (fuel : Nat) :
    followExecutions (fun cursor =>
        listExecutions true state database order ⟨id, size, cursor⟩) fuel "" =
      (walk startOf (historyQuery database order id).answer size fuel
        none).map (List.map (pageResponse size)) := by
  have unbounded : ∀ bound ∈ (none : Option Int), IsStartTime bound := by simp
  exact followExecutions_eq valid present hpos hsize starts fuel unbounded

theorem cleanCuts_of_complete
    (complete : PagesComplete (fun cursor =>
        listExecutions true state database order ⟨id, size, cursor⟩)
        (database.history id)) :
    CleanCuts size (database.startTimes id) := by
  obtain ⟨fuel, responses, hresponses, hperm, -⟩ := complete
  rw [followExecutions_first valid present hpos hsize starts] at hresponses
  obtain ⟨pages, hwalk, rfl⟩ := Option.map_eq_some_iff.mp hresponses
  rw [← startTimes_eq database order id]
  refine (walk_count hpos fuel hwalk).2.mp ?_
  have hlength := hperm.length_eq
  rw [pageResponse_executions, Database.history, List.length_map,
    List.length_map] at hlength
  rw [hlength, (historyQuery_all database order id).length_eq]

theorem complete_of_cleanCuts
    (clean : CleanCuts size (database.startTimes id)) :
    PagesComplete (fun cursor =>
        listExecutions true state database order ⟨id, size, cursor⟩)
      (database.history id) := by
  rw [← startTimes_eq database order id] at clean
  obtain ⟨pages, hwalk⟩ := walk_ends hpos (Nat.lt_succ_self
    ((historyQuery database order id).answer none).length)
  obtain ⟨hperm, hsorted⟩ := walk_clean hpos _ hwalk clean
  have hfollow := followExecutions_first valid present hpos hsize starts order
    ((historyQuery database order id).answer none).length.succ
  rw [hwalk] at hfollow
  refine ⟨_, _, hfollow, ?_, ?_⟩
  · rw [pageResponse_executions]
    exact (hperm.trans (historyQuery_all database order id)).map _
  · rw [pageResponse_executions]
    exact List.pairwise_map.mpr hsorted

end Complete

end Pages

/--
For executions that all start at 64-bit times and a page size that is allowed,
paging is complete exactly when no page ends inside a group of equal times.
-/
theorem pagesComplete_iff {state : State} {database : Database}
    {order : RowOrder} {id : String} {parsed : WorkloadId} {size : Nat}
    (valid : WorkloadId.parse id = .ok parsed)
    (present : (state.workloads.lookup id).isSome) (hpos : 0 < size)
    (hsize : size ≤ 1000) (starts : database.StartsBounded id) :
    PagesComplete (fun cursor =>
        listExecutions true state database order ⟨id, size, cursor⟩)
        (database.history id) ↔
      CleanCuts size (database.startTimes id) :=
  ⟨cleanCuts_of_complete valid present hpos hsize starts,
    complete_of_cleanCuts valid present hpos hsize starts⟩

/-! ## Executions that start together -/

def latestFirst : RowOrder where
  sort rows := rows.insertionSort fun first second =>
    second.2.startedUnixMs ≤ first.2.startedUnixMs
  perm rows := List.perm_insertionSort _ rows
  sorted rows := by
    have hsorted := List.pairwise_insertionSort
      (fun first second : ExecutionRow =>
        second.2.startedUnixMs ≤ first.2.startedUnixMs) rows
    exact hsorted

def completedAt (startedUnixMs : Int) : StoredExecution where
  workloadId := "tool"
  state := .completed
  supervisorProcessId := 7
  workloadProcessId := 0
  attempt := 1
  startedUnixMs := startedUnixMs
  endedUnixMs := startedUnixMs
  exitCode := some 0
  error := ""
  snapshot := toolDefinition
  committedSequence := 2

def twoExecutions (first second : Int) : Database where
  configGeneration := none
  workloads := AList.singleton "tool" toolRow
  executions :=
    (AList.singleton "e1" (completedAt first)).insert "e2"
      (completedAt second)

def toolState : State where
  workloads := AList.singleton "tool" toolRecord
  active := ∅
  revision := 1
  sessionEnding := false
  cancelled := []
  receivers := []

theorem toolId_parsed : WorkloadId.parse "tool" = .ok ⟨"tool"⟩ := by
  decide

theorem toolState_present : (toolState.workloads.lookup "tool").isSome := by
  decide

theorem executionsOf_twoExecutions (first second : Int) :
    (twoExecutions first second).executionsOf "tool" =
      [("e2", completedAt second), ("e1", completedAt first)] := rfl

theorem startsBounded_twoExecutions {first second : Int}
    (hfirst : IsStartTime first) (hsecond : IsStartTime second) :
    (twoExecutions first second).StartsBounded "tool" := by
  intro row hmem
  rw [executionsOf_twoExecutions] at hmem
  rcases List.mem_pair.mp hmem with rfl | rfl
  · exact hsecond
  · exact hfirst

/-- Two executions that start in the same millisecond, read one by one. -/
theorem history_lost :
    ¬ PagesComplete (fun cursor =>
        listExecutions true toolState (twoExecutions 5 5) latestFirst
          ⟨"tool", 1, cursor⟩) ((twoExecutions 5 5).history "tool") := by
  intro complete
  have htime : IsStartTime 5 := ⟨by decide, by decide⟩
  have clean := cleanCuts_of_complete toolId_parsed toolState_present
    Nat.one_pos (by decide)
    (startsBounded_twoExecutions htime htime) complete
  have htimes : (twoExecutions 5 5).startTimes "tool" = [5, 5] := by
    decide +kernel
  rw [htimes] at clean
  exact clean 1 Nat.one_pos (by decide) rfl

/-- The same with an execution that starts later than the other. -/
theorem pagesComplete_iff_apart :
    PagesComplete (fun cursor =>
        listExecutions true toolState (twoExecutions 5 7) latestFirst
          ⟨"tool", 1, cursor⟩) ((twoExecutions 5 7).history "tool") := by
  have hstarts : (twoExecutions 5 7).StartsBounded "tool" :=
    startsBounded_twoExecutions ⟨by decide, by decide⟩ ⟨by decide, by decide⟩
  refine (pagesComplete_iff toolId_parsed toolState_present Nat.one_pos
    (by decide) hstarts).mpr ?_
  have htimes : (twoExecutions 5 7).startTimes "tool" = [7, 5] := by
    decide +kernel
  rw [htimes]
  intro count hcount hlength
  have hone : count = 1 := by
    simp at hlength
    omega
  subst hone
  decide

end Susm.Controller
