import Mathlib.Data.List.Basic

/-!
# Transactions

Statements run on a working copy of the tables.  The copy takes the place of
the tables when the last statement and the commit succeed; otherwise it is
dropped and the tables are as before.
-/

namespace Susm.Foundation

universe u v

variable {Error : Type u} {Tables : Type v}

structure Statement (Error : Type u) (Tables : Type v) where
  change : Tables → Tables
  failure : Option Error

namespace Statement

/-- The working copy behind a statement. -/
def run (statement : Statement Error Tables) (tables : Tables) :
    Except Error Tables :=
  match statement.failure with
  | none => .ok (statement.change tables)
  | some error => .error error

def runAll (statements : List (Statement Error Tables)) (tables : Tables) :
    Except Error Tables :=
  statements.foldlM (fun tables statement => statement.run tables) tables

theorem run_eq_ok {statement : Statement Error Tables}
    {tables after : Tables} :
    statement.run tables = .ok after ↔
      statement.failure = none ∧ after = statement.change tables := by
  unfold run
  cases statement.failure with
  | none => exact ⟨fun h => ⟨rfl, (Except.ok.inj h).symm⟩, fun h => h.2 ▸ rfl⟩
  | some error => exact ⟨nofun, nofun⟩

theorem runAll_eq_ok {statements : List (Statement Error Tables)}
    {tables after : Tables} :
    runAll statements tables = .ok after ↔
      (∀ statement ∈ statements, statement.failure = none) ∧
        after = statements.foldl (fun tables statement =>
          statement.change tables) tables := by
  induction statements generalizing tables with
  | nil =>
      refine ⟨fun h => ⟨List.forall_mem_nil _, (Except.ok.inj h).symm⟩, ?_⟩
      rintro ⟨-, rfl⟩
      rfl
  | cons statement statements ih =>
      unfold runAll at ih ⊢
      rw [List.foldlM_cons, List.forall_mem_cons, List.foldl_cons]
      cases hrun : statement.run tables with
      | error error =>
          refine ⟨nofun, fun h => ?_⟩
          rw [run_eq_ok.mpr ⟨h.1.1, rfl⟩] at hrun
          cases hrun
      | ok next =>
          obtain ⟨succeeds, rfl⟩ := run_eq_ok.mp hrun
          rw [and_iff_right succeeds]
          exact ih

end Statement

/-- The result of a transaction and the tables that everybody sees then. -/
def transact (commit : Option Error)
    (statements : List (Statement Error Tables)) (tables : Tables) :
    Except Error Unit × Tables :=
  match Statement.runAll statements tables with
  | .error error => (.error error, tables)
  | .ok after =>
      match commit with
      | none => (.ok (), after)
      | some error => (.error error, tables)

variable {commit : Option Error} {statements : List (Statement Error Tables)}
  {tables : Tables}

theorem transact_cases :
    ((∀ statement ∈ statements, statement.failure = none) ∧ commit = none ∧
      transact commit statements tables =
        (.ok (), statements.foldl (fun tables statement =>
          statement.change tables) tables)) ∨
    ∃ error, transact commit statements tables = (.error error, tables) := by
  unfold transact
  cases hrun : Statement.runAll statements tables with
  | error error => exact .inr ⟨error, rfl⟩
  | ok after =>
      obtain ⟨succeed, rfl⟩ := Statement.runAll_eq_ok.mp hrun
      cases commit with
      | none => exact .inl ⟨succeed, rfl, rfl⟩
      | some error => exact .inr ⟨error, rfl⟩

end Susm.Foundation
