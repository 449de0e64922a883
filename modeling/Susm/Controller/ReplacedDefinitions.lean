import Susm.Controller.WorkloadRows
import Susm.Foundation.Transactions

/-!
# Accepting a configuration

The statements of `replace_definitions` in one transaction, any of which may
fail.  What an accepted configuration changes is the definition, for every
workload, and the kind of the workloads that it defines.
-/

namespace Susm.Controller

open Susm.Foundation
open Susm.Protocol

/-! ## The statements -/

/-- The statements that SQLite fails to execute. -/
structure ReplaceFailures where
  query : Option StorageError
  begins : Option StorageError
  clear : Option StorageError
  upsert : Nat → Option StorageError
  metadata : Option StorageError
  commit : Option StorageError

namespace Database

/-- `UPDATE workloads SET definition = NULL` -/
def clearDefinitions (database : Database) : Database :=
  { database with
    workloads := database.workloads.mapValues fun _ row =>
      { row with definition := none } }

/-- The statements between the beginning of the transaction and its commit. -/
def replaceStatements (failures : ReplaceFailures) (generation : List UInt8)
    (definitions : List (String × StoredWorkload)) :
    List (Statement StorageError Database) :=
  ⟨clearDefinitions, failures.clear⟩ ::
    definitions.zipIdx.map (fun (definition, index) =>
      ⟨fun database =>
        { database with
          workloads := upsertDefinition database.workloads definition },
        failures.upsert index⟩) ++
    [⟨fun database => { database with configGeneration := some generation },
      failures.metadata⟩]

/-- `replace_definitions`, statement by statement. -/
def replaceDefinitionsWith (failures : ReplaceFailures) (database : Database)
    (generation : List UInt8) (definitions : List (String × StoredWorkload)) :
    Except StorageError Bool × Database :=
  match failures.query with
  | some error => (.error error, database)
  | none =>
      if database.configGeneration = some generation then (.ok false, database)
      else
        match failures.begins with
        | some error => (.error error, database)
        | none =>
            let (result, database) := transact failures.commit
              (replaceStatements failures generation definitions) database
            (result.map fun _ => true, database)

end Database

/-! ## What a configuration says of a workload -/

def Candidate.definition? (candidate : Candidate) (id : String) :
    Option ExecutionConfiguration :=
  candidate.definitions.reverse.find? fun definition =>
    definition.workloadId = id

def acceptedRow (defined : Option ExecutionConfiguration) :
    Option StoredWorkload → Option StoredWorkload
  | none => defined.map fun definition =>
      { kind := definition.kind
        definition := some definition
        enabled := false
        lastTriggeredSession := ""
        lastOutcome := none }
  | some row => some
      { row with
        kind := (defined.map ExecutionConfiguration.kind).getD row.kind
        definition := defined }

/-- An accepted configuration changes definitions and nothing else. -/
structure Accepts (candidate : Candidate) (before after : Database) :
    Prop where
  rows : ∀ id, (after.workloads.lookup id).isSome ↔
    (before.workloads.lookup id).isSome ∨ (candidate.definition? id).isSome
  definition : ∀ id row, after.workloads.lookup id = some row →
    row.definition = candidate.definition? id
  kind : ∀ id row, after.workloads.lookup id = some row →
    ∀ definition, candidate.definition? id = some definition →
      row.kind = definition.kind
  kept : ∀ id old row, before.workloads.lookup id = some old →
    after.workloads.lookup id = some row →
      row.enabled = old.enabled ∧
      row.lastTriggeredSession = old.lastTriggeredSession ∧
      row.lastOutcome = old.lastOutcome ∧
      (candidate.definition? id = none → row.kind = old.kind)
  added : ∀ id row, before.workloads.lookup id = none →
    after.workloads.lookup id = some row →
      row.enabled = false ∧ row.lastTriggeredSession = "" ∧
      row.lastOutcome = none
  generation : after.configGeneration = some candidate.generation
  executions : after.executions = before.executions

namespace Database

variable {database : Database} {candidate : Candidate}

theorem lookup_upsert_stored (workloads : Map String StoredWorkload)
    (definition : ExecutionConfiguration) (id : String) :
    (upsertDefinition workloads (definition.workloadId,
      { kind := definition.kind
        definition := some definition
        enabled := false
        lastTriggeredSession := ""
        lastOutcome := none })).lookup id =
      if definition.workloadId = id then
        acceptedRow (some definition) (workloads.lookup id)
      else workloads.lookup id := by
  rw [lookup_upsertDefinition]
  by_cases h : id = definition.workloadId
  · rw [if_pos h, if_pos h.symm]
    cases workloads.lookup id <;> rfl
  · rw [if_neg h, if_neg (Ne.symm h)]

theorem acceptedRow_acceptedRow (first second : Option ExecutionConfiguration)
    (row : Option StoredWorkload) (later : second ≠ none) :
    acceptedRow second (acceptedRow first row) = acceptedRow second row := by
  cases second with
  | none => exact absurd rfl later
  | some definition =>
      cases row with
      | none => cases first <;> rfl
      | some row => rfl

theorem lookup_upserts (definitions : List ExecutionConfiguration)
    (workloads : Map String StoredWorkload) (id : String) :
    ((Candidate.stored ⟨[], definitions⟩).foldl upsertDefinition
      workloads).lookup id =
      match Candidate.definition? ⟨[], definitions⟩ id with
      | none => workloads.lookup id
      | some definition =>
          acceptedRow (some definition) (workloads.lookup id) := by
  induction definitions generalizing workloads with
  | nil => rfl
  | cons definition definitions ih =>
      have split : Candidate.definition? ⟨[], definition :: definitions⟩ id =
          (Candidate.definition? ⟨[], definitions⟩ id).or
            (if definition.workloadId = id then some definition else none) := by
        simp [Candidate.definition?, List.find?_append, List.find?_singleton]
      unfold Candidate.stored at ih ⊢
      rw [List.map_cons, List.foldl_cons, ih, lookup_upsert_stored, split]
      cases Candidate.definition? ⟨[], definitions⟩ id with
      | none =>
          by_cases h : definition.workloadId = id
          · simp [h]
          · simp [h]
      | some later =>
          by_cases h : definition.workloadId = id
          · simp only [if_pos h, Option.some_or]
            exact acceptedRow_acceptedRow _ _ _ (Option.some_ne_none later)
          · simp [h]

def accepted (database : Database) (candidate : Candidate) : Database :=
  { database with
    configGeneration := some candidate.generation
    workloads := candidate.stored.foldl upsertDefinition
      (database.clearDefinitions).workloads }

theorem foldl_upserts (failures : ReplaceFailures)
    (definitions : List (String × StoredWorkload)) (start : Nat)
    (database : Database) :
    ((definitions.zipIdx start).map (fun (definition, index) =>
        (⟨fun database =>
          { database with
            workloads := upsertDefinition database.workloads definition },
          failures.upsert index⟩ : Statement StorageError Database))).foldl
      (fun tables statement => statement.change tables) database =
      { database with
        workloads := definitions.foldl upsertDefinition database.workloads } := by
  induction definitions generalizing start database with
  | nil => rfl
  | cons definition definitions ih =>
      rw [List.zipIdx_cons, List.map_cons, List.foldl_cons, ih]
      rfl

theorem foldl_replaceStatements (failures : ReplaceFailures) :
    (replaceStatements failures candidate.generation candidate.stored).foldl
        (fun tables statement => statement.change tables) database =
      database.accepted candidate := by
  rw [replaceStatements, List.cons_append, List.foldl_cons, List.foldl_append,
    foldl_upserts]
  rfl

theorem lookup_accepted (id : String) :
    (database.accepted candidate).workloads.lookup id =
      acceptedRow (candidate.definition? id) (database.workloads.lookup id) := by
  have cleared : database.clearDefinitions.workloads.lookup id =
      acceptedRow none (database.workloads.lookup id) := by
    rw [clearDefinitions, Map.lookup_mapValues]
    cases database.workloads.lookup id <;> rfl
  have upserts := lookup_upserts candidate.definitions
    database.clearDefinitions.workloads id
  change (candidate.stored.foldl upsertDefinition
    database.clearDefinitions.workloads).lookup id = _
  refine upserts.trans ?_
  change (match candidate.definition? id with
    | none => database.clearDefinitions.workloads.lookup id
    | some definition => acceptedRow (some definition)
        (database.clearDefinitions.workloads.lookup id)) = _
  rw [cleared]
  cases candidate.definition? id with
  | none => rfl
  | some definition =>
      exact acceptedRow_acceptedRow _ _ _ (Option.some_ne_none definition)

theorem accepted_accepts (database : Database) (candidate : Candidate) :
    Accepts candidate database (database.accepted candidate) := by
  have row : ∀ id row,
      (database.accepted candidate).workloads.lookup id = some row →
        acceptedRow (candidate.definition? id)
          (database.workloads.lookup id) = some row := by
    intro id row hrow
    rw [← lookup_accepted, hrow]
  constructor
  case rows =>
    intro id
    rw [lookup_accepted]
    cases database.workloads.lookup id <;>
      cases candidate.definition? id <;> simp [acceptedRow]
  case definition =>
    intro id _ hrow
    have := row id _ hrow
    cases hold : database.workloads.lookup id with
    | none =>
        rw [hold] at this
        obtain ⟨definition, hdefinition, rfl⟩ := Option.map_eq_some_iff.mp this
        exact hdefinition.symm
    | some old =>
        rw [hold] at this
        cases this
        rfl
  case kind =>
    intro id _ hrow definition hdefinition
    have := row id _ hrow
    rw [hdefinition] at this
    cases hold : database.workloads.lookup id <;> rw [hold] at this <;>
      cases this <;> rfl
  case kept =>
    intro id old _ hold hrow
    have := row id _ hrow
    rw [hold] at this
    cases this
    refine ⟨rfl, rfl, rfl, fun undefined => ?_⟩
    rw [undefined]
    rfl
  case added =>
    intro id _ hnone hrow
    have := row id _ hrow
    rw [hnone] at this
    obtain ⟨definition, -, rfl⟩ := Option.map_eq_some_iff.mp this
    exact ⟨rfl, rfl, rfl⟩
  case generation => rfl
  case executions => rfl

/-! ## The transaction -/

/-- Nothing is written for the stored generation or behind a failure; otherwise
exactly the definitions are. -/
structure ReplacesDefinitions (failures : ReplaceFailures)
    (database : Database) (candidate : Candidate)
    (result : Except StorageError Bool) (after : Database) : Prop where
  stored : failures.query = none →
    database.configGeneration = some candidate.generation →
      result = .ok false ∧ after = database
  unchanged : result = .ok false → after = database ∧
    database.configGeneration = some candidate.generation
  changed : result = .ok true →
    database.configGeneration ≠ some candidate.generation ∧
      Accepts candidate database after
  failed : ∀ error, result = .error error → after = database

theorem replaceDefinitionsWith_replaces (failures : ReplaceFailures)
    (database : Database) (candidate : Candidate) :
    ReplacesDefinitions failures database candidate
      (database.replaceDefinitionsWith failures candidate.generation
        candidate.stored).1
      (database.replaceDefinitionsWith failures candidate.generation
        candidate.stored).2 := by
  unfold replaceDefinitionsWith
  cases hquery : failures.query with
  | some error =>
      refine ⟨fun absent => ?_, nofun, nofun, fun _ _ => rfl⟩
      rw [hquery] at absent
      cases absent
  | none =>
      by_cases hsame :
          database.configGeneration = some candidate.generation
      · simp only [if_pos hsame]
        exact ⟨fun _ _ => ⟨rfl, rfl⟩, fun _ => ⟨rfl, hsame⟩, nofun, nofun⟩
      simp only [if_neg hsame]
      cases failures.begins with
      | some error =>
          exact ⟨fun _ same => absurd same hsame, nofun, nofun, fun _ _ => rfl⟩
      | none =>
          rcases @transact_cases _ _ failures.commit
              (replaceStatements failures candidate.generation
                candidate.stored) database with
            ⟨-, -, done⟩ | ⟨error, done⟩
          · simp only [done, foldl_replaceStatements]
            exact ⟨fun _ same => absurd same hsame, nofun,
              fun _ => ⟨hsame, accepted_accepts database candidate⟩, nofun⟩
          · simp only [done]
            exact ⟨fun _ same => absurd same hsame, nofun, nofun,
              fun _ _ => rfl⟩

theorem replaceDefinitionsWith_eq (failures : ReplaceFailures)
    (query : failures.query = none) (begins : failures.begins = none)
    (statements : ∀ statement ∈ replaceStatements failures
      candidate.generation candidate.stored, statement.failure = none)
    (commit : failures.commit = none) :
    database.replaceDefinitionsWith failures candidate.generation
        candidate.stored =
      (.ok (database.replaceDefinitions candidate.generation
          candidate.stored).1,
        (database.replaceDefinitions candidate.generation
          candidate.stored).2) := by
  have run : Statement.runAll (replaceStatements failures
      candidate.generation candidate.stored) database =
        .ok (database.accepted candidate) :=
    Statement.runAll_eq_ok.mpr
      ⟨statements, (foldl_replaceStatements failures).symm⟩
  unfold replaceDefinitionsWith replaceDefinitions
  rw [query, begins, commit]
  simp only [transact, run]
  by_cases hsame : database.configGeneration = some candidate.generation
  · simp [hsame]
  · simp only [if_neg hsame]
    rfl

end Database

end Susm.Controller
