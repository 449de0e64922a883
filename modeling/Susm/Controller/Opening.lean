import Susm.Controller.ExecutionRows
import Susm.Controller.Turns

/-!
# Opening the tables

What `Manager::open` does to the rows of executions, and which entries it makes
of them.
-/

namespace Susm.Controller

open Susm.Foundation
open Susm.Protocol

variable {host : Host} {session : String}

/-! ## Rows -/

/-- A row is kept, or was unfinished and has been closed. -/
def Closes (before after : Option StoredExecution) : Prop :=
  after = before ∨ ∃ row changed, before = some row ∧ row.endedUnixMs = 0 ∧
    after = some changed ∧ SameExecution row changed ∧
    changed.state.isOutcome = true

theorem staleRow_isOutcome (row : StoredExecution) (ended : Int) :
    (staleRow row ended).state.isOutcome = true := by
  unfold staleRow
  cases row.snapshot.kind <;> rfl

theorem Closes.finish {tables database : Database} {id other : String}
    {execution : StoredExecution}
    (closes : Closes (tables.executions.lookup other)
      (database.executions.lookup other))
    (unfinished : ∃ row, tables.executions.lookup id = some row ∧
      row.endedUnixMs = 0)
    (houtcome : execution.state.isOutcome = true) :
    Closes (tables.executions.lookup other)
      ((database.finishExecution id execution).executions.lookup other) := by
  simp only [Database.finishExecution, Map.lookup_modify]
  split
  swap
  · exact closes
  subst other
  obtain ⟨first, hfirst, hended⟩ := unfinished
  rcases closes with hsame | ⟨row, changed, hrow, -, hchanged, same, -⟩
  · rw [hsame, hfirst]
    exact .inr ⟨first, _, rfl, hended, rfl, ⟨rfl, rfl, rfl⟩, houtcome⟩
  · rw [hchanged, hrow]
    exact .inr ⟨row, _, rfl, by simp_all, rfl,
      same.trans ⟨rfl, rfl, rfl⟩, houtcome⟩

theorem openExecutions_closes {tables : Database}
    {rows : List (String × StoredExecution)} {answers : List Answer}
    {database : Database} {opening : Opening}
    (unfinished : ∀ entry ∈ rows, ∃ row,
      tables.executions.lookup entry.1 = some row ∧ row.endedUnixMs = 0)
    (closes : ∀ id, Closes (tables.executions.lookup id)
      (database.executions.lookup id)) :
    ∀ id, Closes (tables.executions.lookup id)
      ((openExecutions host session rows answers database
        opening).1.executions.lookup id) := by
  induction rows generalizing answers database opening with
  | nil =>
      intro id
      simpa [openExecutions] using closes id
  | cons entry rows ih =>
      obtain ⟨id, row⟩ := entry
      have hrest : ∀ entry ∈ rows, ∃ row,
          tables.executions.lookup entry.1 = some row ∧ row.endedUnixMs = 0 :=
        fun entry hentry => unfinished entry (List.mem_cons_of_mem _ hentry)
      unfold openExecutions
      split
      · exact ih hrest closes
      split
      · exact closes
      split
      · refine ih hrest fun other => ?_
        exact (closes other).finish (unfinished _ List.mem_cons_self)
          (staleRow_isOutcome row _)
      · exact closes

theorem openManager_closes (answers : List Answer) (database : Database)
    (id : String) :
    Closes (database.executions.lookup id)
      ((openManager host session answers database).1.executions.lookup id) := by
  refine openExecutions_closes ?_ (fun _ => .inl rfl) id
  intro entry hentry
  exact ⟨entry.2, Database.mem_loadActiveExecutions.mp hentry⟩

/-! ## One row for a workload -/

def OneUnfinished (database : Database) : Prop :=
  ∀ first second one two, database.executions.lookup first = some one →
    database.executions.lookup second = some two → one.endedUnixMs = 0 →
    two.endedUnixMs = 0 → one.workloadId = two.workloadId → first = second

theorem loadActiveExecutions_nodup (database : Database) :
    database.loadActiveExecutions.Nodup := by
  unfold Database.loadActiveExecutions
  exact (List.perm_insertionSort _ _).nodup_iff.mpr
    (database.executions.toList_nodup.filter _)

theorem OneUnfinished.distinct {database : Database}
    (one : OneUnfinished database) :
    database.loadActiveExecutions.Pairwise fun first second =>
      first.2.workloadId ≠ second.2.workloadId := by
  refine (loadActiveExecutions_nodup database).pairwise_of_forall_ne ?_
  rintro ⟨first, row⟩ hfirst ⟨second, other⟩ hsecond hne hsame
  obtain ⟨hrow, hended⟩ := Database.mem_loadActiveExecutions.mp hfirst
  obtain ⟨hother, hended'⟩ := Database.mem_loadActiveExecutions.mp hsecond
  have hid := one first second row other hrow hother hended hended' hsame
  subst hid
  cases hrow.symm.trans hother
  exact hne rfl

/-! ## Entries -/

theorem openExecutions_entry {rows : List (String × StoredExecution)}
    {answers : List Answer} {database : Database} {opening result : Opening}
    {workloadId : String} {active : ActiveExecution}
    (h : (openExecutions host session rows answers database opening).2 =
      some result)
    (found : result.active.lookup workloadId = some active) :
    opening.active.lookup workloadId = some active ∨
      ∃ id row, (id, row) ∈ rows ∧ row.workloadId = workloadId ∧
        row.snapshot.managerSessionId = session ∧
        active = openedExecution host id row := by
  induction rows generalizing answers database opening with
  | nil =>
      cases h
      exact .inl found
  | cons entry rows ih =>
      obtain ⟨id, row⟩ := entry
      have hlater : (∃ id row, (id, row) ∈ rows ∧ row.workloadId = workloadId ∧
            row.snapshot.managerSessionId = session ∧
            active = openedExecution host id row) →
          ∃ other stored, (other, stored) ∈ (id, row) :: rows ∧
            stored.workloadId = workloadId ∧
            stored.snapshot.managerSessionId = session ∧
            active = openedExecution host other stored := by
        rintro ⟨other, stored, hmem, hrest⟩
        exact ⟨other, stored, List.mem_cons_of_mem _ hmem, hrest⟩
      unfold openExecutions at h
      split at h
      · rename_i hsession
        rcases ih h with hfound | hfound
        · rw [Map.lookup_insert_eq] at hfound
          split at hfound
          · rename_i hworkload
            cases hfound
            exact .inr ⟨id, row, List.mem_cons_self, hworkload.symm, hsession,
              rfl⟩
          · exact .inl hfound
        · exact .inr (hlater hfound)
      split at h
      · cases h
      split at h
      · exact (ih h).imp_right hlater
      · cases h

variable {answers : List Answer} {database : Database} {state : State}

theorem openManager_entry
    (opened : (openManager host session answers database).2 = some state)
    {workloadId : String} {active : ActiveExecution}
    (found : state.active.lookup workloadId = some active) :
    ∃ id row, database.executions.lookup id = some row ∧
      row.endedUnixMs = 0 ∧ row.workloadId = workloadId ∧
      row.snapshot.managerSessionId = session ∧
      active = openedExecution host id row := by
  obtain ⟨opening, hopening, rfl⟩ := Option.map_eq_some_iff.mp opened
  rcases openExecutions_entry hopening found with
    hempty | ⟨id, row, hmem, hworkload, hsession, rfl⟩
  · simp at hempty
  · obtain ⟨hrow, hended⟩ := Database.mem_loadActiveExecutions.mp hmem
    exact ⟨id, row, hrow, hended, hworkload, hsession, rfl⟩

theorem openExecutions_spares {rows : List (String × StoredExecution)}
    {answers : List Answer} {database : Database} {opening : Opening}
    {id : String} {row : StoredExecution}
    (found : database.executions.lookup id = some row)
    (own : ∀ entry ∈ rows, entry.1 = id →
      entry.2.snapshot.managerSessionId = session) :
    (openExecutions host session rows answers database
      opening).1.executions.lookup id = some row := by
  induction rows generalizing answers database opening with
  | nil => exact found
  | cons entry rows ih =>
      obtain ⟨other, stored⟩ := entry
      have hrest : ∀ entry ∈ rows, entry.1 = id →
          entry.2.snapshot.managerSessionId = session :=
        fun entry hentry => own entry (List.mem_cons_of_mem _ hentry)
      unfold openExecutions
      split
      · exact ih found hrest
      rename_i hforeign
      split
      · exact found
      split
      · refine ih ?_ hrest
        have hother : id ≠ other := by
          rintro rfl
          exact hforeign (own _ List.mem_cons_self rfl)
        simp only [Database.finishExecution, Map.lookup_modify]
        rw [if_neg hother]
        exact found
      · exact found

theorem openManager_spares {id : String} {row : StoredExecution}
    (found : database.executions.lookup id = some row)
    (own : row.snapshot.managerSessionId = session) :
    (openManager host session answers database).1.executions.lookup id =
      some row := by
  refine openExecutions_spares found ?_
  rintro ⟨other, stored⟩ hentry rfl
  cases (Database.mem_loadActiveExecutions.mp hentry).1.symm.trans found
  exact own

theorem openExecutions_other {rows : List (String × StoredExecution)}
    {answers : List Answer} {database : Database} {opening result : Opening}
    {workloadId : String}
    (h : (openExecutions host session rows answers database opening).2 =
      some result)
    (others : ∀ entry ∈ rows, entry.2.workloadId ≠ workloadId) :
    result.active.lookup workloadId = opening.active.lookup workloadId := by
  induction rows generalizing answers database opening with
  | nil =>
      cases h
      rfl
  | cons entry rows ih =>
      obtain ⟨id, row⟩ := entry
      have hrest : ∀ entry ∈ rows, entry.2.workloadId ≠ workloadId :=
        fun entry hentry => others entry (List.mem_cons_of_mem _ hentry)
      have hrow : workloadId ≠ row.workloadId :=
        (others _ List.mem_cons_self).symm
      unfold openExecutions at h
      split at h
      · rw [ih h hrest, Map.lookup_insert_eq, if_neg hrow]
      split at h
      · cases h
      split at h
      · have hkept := ih h hrest
        exact hkept
      · cases h

def Ended (database : Database) (id : String) : Prop :=
  ∀ row, database.executions.lookup id = some row → row.endedUnixMs ≠ 0

theorem Ended.finish {database : Database} {id other : String}
    {execution : StoredExecution}
    (ended : other = id ∨ Ended database other)
    (h : execution.endedUnixMs ≠ 0) :
    Ended (database.finishExecution id execution) other := by
  intro row hrow
  simp only [Database.finishExecution, Map.lookup_modify] at hrow
  split at hrow
  · obtain ⟨before, -, rfl⟩ := Option.map_eq_some_iff.mp hrow
    exact h
  · rename_i hother
    exact (ended.resolve_left hother) row hrow

theorem openExecutions_ended {rows : List (String × StoredExecution)}
    {answers : List Answer} {database : Database} {opening : Opening}
    {id : String}
    (clock : ∀ answer ∈ answers, unixMs answer.systemTime ≠ some 0)
    (ended : Ended database id) :
    Ended (openExecutions host session rows answers database opening).1 id := by
  induction rows generalizing answers database opening with
  | nil => simpa [openExecutions] using ended
  | cons entry rows ih =>
      unfold openExecutions
      split
      · exact ih clock ended
      split
      · exact ended
      rename_i answer answers
      split
      · rename_i time htime _
        refine ih (fun other hother => clock other
          (List.mem_cons_of_mem _ hother)) (Ended.finish (.inr ended) ?_)
        rintro rfl
        exact clock answer List.mem_cons_self htime
      · exact ended

theorem openExecutions_tracks {rows : List (String × StoredExecution)}
    {answers : List Answer} {database : Database} {opening result : Opening}
    (distinct : rows.Pairwise fun first second =>
      first.2.workloadId ≠ second.2.workloadId)
    (h : (openExecutions host session rows answers database opening).2 =
      some result) {id : String} {row : StoredExecution}
    (hrow : (id, row) ∈ rows) :
    (row.snapshot.managerSessionId = session ∧
      result.active.lookup row.workloadId =
        some (openedExecution host id row)) ∨
      (row.snapshot.managerSessionId ≠ session ∧
        ((∀ answer ∈ answers, unixMs answer.systemTime ≠ some 0) →
          Ended (openExecutions host session rows answers database opening).1
            id)) := by
  induction rows generalizing answers database opening with
  | nil => cases hrow
  | cons entry rows ih =>
      obtain ⟨first, stored⟩ := entry
      obtain ⟨hfirst, hrest⟩ := List.pairwise_cons.mp distinct
      unfold openExecutions at h ⊢
      split
      · rename_i hsession
        rw [if_pos hsession] at h
        rcases List.mem_cons.mp hrow with heq | hrow
        · cases heq
          refine .inl ⟨hsession, ?_⟩
          rw [openExecutions_other h fun other hother =>
            (hfirst other hother).symm]
          exact AList.lookup_insert _
        · exact ih hrest h hrow
      · rename_i hsession
        rw [if_neg hsession] at h
        cases answers with
        | nil => cases h
        | cons answer answers =>
            dsimp only at h ⊢
            split
            · rename_i time htime hstored
              rw [htime, hstored] at h
              rcases List.mem_cons.mp hrow with heq | hrow
              · cases heq
                refine .inr ⟨hsession, fun clock => ?_⟩
                refine openExecutions_ended (fun other hother =>
                  clock other (List.mem_cons_of_mem _ hother)) ?_
                refine Ended.finish (.inl rfl) ?_
                rintro rfl
                exact clock answer List.mem_cons_self htime
              · refine (ih hrest h hrow).imp_right ?_
                rintro ⟨hstale, hended⟩
                refine ⟨hstale, fun clock => hended fun other hother => ?_⟩
                exact clock other (List.mem_cons_of_mem _ hother)
            · rename_i hfailed
              split at h
              · rename_i time htime hstored
                exact absurd hstored (hfailed time htime)
              · cases h

theorem openManager_keeps (one : OneUnfinished database)
    (opened : (openManager host session answers database).2 = some state)
    {id : String} {row : StoredExecution}
    (found : database.executions.lookup id = some row)
    (unfinished : row.endedUnixMs = 0)
    (current : row.snapshot.managerSessionId = session) :
    state.active.lookup row.workloadId =
      some (openedExecution host id row) := by
  obtain ⟨opening, hopening, rfl⟩ := Option.map_eq_some_iff.mp opened
  rcases openExecutions_tracks one.distinct hopening
    (Database.mem_loadActiveExecutions.mpr ⟨found, unfinished⟩) with
    ⟨-, htracked⟩ | ⟨hsession, -⟩
  · exact htracked
  · exact absurd current hsession

theorem openManager_tracks (one : OneUnfinished database)
    (clock : ∀ answer ∈ answers, unixMs answer.systemTime ≠ some 0)
    (opened : (openManager host session answers database).2 = some state)
    {id : String} {row : StoredExecution}
    (found : (openManager host session answers database).1.executions.lookup
      id = some row) (unfinished : row.endedUnixMs = 0) :
    ∃ before, state.active.lookup row.workloadId =
      some (openedExecution host id before) := by
  obtain ⟨opening, hopening, rfl⟩ := Option.map_eq_some_iff.mp opened
  have hbefore : ∃ before, database.executions.lookup id = some before ∧
      before.endedUnixMs = 0 ∧ SameExecution before row := by
    rcases @openManager_closes host _ answers database id with
      hsame | ⟨before, changed, hrow, hended, hchanged, same, -⟩
    · exact ⟨row, hsame.symm.trans found, unfinished, .refl row⟩
    · cases found.symm.trans hchanged
      exact ⟨before, hrow, hended, same⟩
  obtain ⟨before, hrow, hended, same⟩ := hbefore
  rcases openExecutions_tracks one.distinct hopening
    (Database.mem_loadActiveExecutions.mpr ⟨hrow, hended⟩) with
    ⟨-, htracked⟩ | ⟨-, hclosed⟩
  · rw [same.workloadId]
    exact ⟨before, htracked⟩
  · exact absurd unfinished (hclosed clock row found)

theorem openManager_fresh
    (opened : (openManager host session answers database).2 = some state) :
    state.sessionEnding = false ∧ state.cancelled = [] ∧
      state.receivers = [] := by
  obtain ⟨opening, -, rfl⟩ := Option.map_eq_some_iff.mp opened
  exact ⟨rfl, rfl, rfl⟩

end Susm.Controller
