import Susm.Config.DirectoryStates
import Susm.Controller.AcceptedConfigurations
import Susm.Controller.ReplacedDefinitions

/-!
# Reloads

The directory is loaded, every definition becomes a row, and the store replaces
its definitions unless it has seen the generation before.  Whether or not a
reload is reported as a change, the store then holds what was loaded.
-/

namespace Susm.Controller

open Susm.Foundation
open Susm.Domain
open Susm.Protocol
open Susm.Config
open Susm.Installer

/-- The rows that `reload` makes of a configuration. -/
def reloaded (host : Host) (loaded : CandidateConfig) : Candidate where
  generation := loaded.generation
  definitions := loaded.definitions.entries.map fun entry =>
    definitionSnapshot host entry.2

/-- The store holds these definitions and no others. -/
structure Mirrors (database : Database) (candidate : Candidate) : Prop where
  generation : database.configGeneration = some candidate.generation
  definitions : ∀ id,
    (database.workloads.lookup id).bind StoredWorkload.definition =
      candidate.definition? id

inductive Written (database : Database) : Database → Prop where
  | enabled (id : String) (enabled : Bool) :
      Written database (database.setEnabled id enabled).2
  | inserted {id : String} {execution : StoredExecution} {next : Database}
      (inserts : database.insertExecution id execution = .ok next) :
      Written database next
  | claimed {id session : String} {execution : StoredExecution}
      {next : Database}
      (claims : database.insertEnabledJobExecution id execution session =
        .ok (true, next)) :
      Written database next
  | supervisor (id : String) (processId : Nat) :
      Written database (database.setExecutionSupervisor id processId)
  | finished (id : String) (execution : StoredExecution) :
      Written database (database.finishExecution id execution)
  | observed {id : String} {sequence : Nat} {update : ObservationUpdate}
      {committed : Bool} {next : Database}
      (commits : database.commitObservation id sequence update =
        .ok (committed, next)) :
      Written database next

/-- What is written leaves the definitions as they are. -/
structure KeepsDefinitions (before after : Database) : Prop where
  generation : after.configGeneration = before.configGeneration
  definitions : ∀ id,
    (after.workloads.lookup id).bind StoredWorkload.definition =
      (before.workloads.lookup id).bind StoredWorkload.definition

/-- A store after loads of a directory, the last one first, that the store did
not fail to take. -/
inductive Reloaded (libraries : Libraries)
    (parse : String → Except String RawDefinition) (host : Host) (root : Path) :
    Database → List CandidateConfig → Prop where
  | fresh {database : Database} (empty : database.configGeneration = none) :
      Reloaded libraries parse host root database []
  | other {database next : Database} {loads : List CandidateConfig}
      (before : Reloaded libraries parse host root database loads)
      (written : Written database next) :
      Reloaded libraries parse host root next loads
  | taken {database next : Database} {loads : List CandidateConfig}
      {history : History} {loaded : CandidateConfig} {changed : Bool}
      (failures : ReplaceFailures)
      (before : Reloaded libraries parse host root database loads)
      (success : loadDirectory libraries parse history root = .ok loaded)
      (replaced : database.replaceDefinitionsWith failures
        (reloaded host loaded).generation (reloaded host loaded).stored =
        (.ok changed, next)) :
      Reloaded libraries parse host root next (loaded :: loads)
  | failed {database next : Database} {loads : List CandidateConfig}
      {loaded : CandidateConfig} {error : StorageError}
      (failures : ReplaceFailures)
      (before : Reloaded libraries parse host root database loads)
      (replaced : database.replaceDefinitionsWith failures
        (reloaded host loaded).generation (reloaded host loaded).stored =
        (.error error, next)) :
      Reloaded libraries parse host root next loads

variable {libraries : Libraries} {parse : String → Except String RawDefinition}
  {host : Host} {root : Path} {database next : Database}
  {candidate : Candidate} {failures : ReplaceFailures}

/-- What a load gives has passed the checks and has its generation. -/
structure IsLoaded (libraries : Libraries) (loaded : CandidateConfig) :
    Prop where
  accepted : AllAccepted libraries loaded.definitions
  generation : configGeneration libraries.sha256 loaded.definitions =
    some loaded.generation

theorem isLoaded_of_loads {history : History} {loaded : CandidateConfig}
    (success : loadDirectory libraries parse history root = .ok loaded) :
    IsLoaded libraries loaded := by
  obtain ⟨names, again, items, others, entries, load⟩ :=
    loadDirectory_eq_ok.mp success
  refine ⟨fun entry hentry => ?_, load.generation⟩
  obtain ⟨snapshot, -, moment, -, -, holds⟩ :=
    load.holds.of_mem_right (load.perm_entries.mem_iff.mp hentry)
  obtain ⟨bytes, -, -, defines⟩ := holds.contents
  obtain ⟨source, -, defines⟩ := bind_eq_ok_iff.mp defines
  obtain ⟨raw, -, defines⟩ := bind_eq_ok_iff.mp defines
  exact intoDefinition_accepted (mapError_eq_ok.mp defines)

theorem IsLoaded.eq_of_generation {first second : CandidateConfig}
    (one : IsLoaded libraries first) (other : IsLoaded libraries second)
    (same : first.generation = second.generation)
    (distinct : ¬Collide libraries.sha256 (configFeed first.definitions)
      (configFeed second.definitions)) : first = second := by
  obtain ⟨bytes, hfirst, hsecond⟩ := eq_of_hash_eq one.generation
    (same ▸ other.generation) distinct
  have definitions := eq_of_configFeed one.accepted other.accepted hfirst
    hsecond
  obtain ⟨_, _⟩ := first
  obtain ⟨_, _⟩ := second
  cases same
  cases definitions
  rfl

theorem replaced_cases {result : Except StorageError Bool}
    (replaced : database.replaceDefinitionsWith failures candidate.generation
      candidate.stored = (result, next)) :
    (result = .ok true ∧ next = database.accepted candidate) ∨
      (result = .ok false ∧ next = database ∧
        database.configGeneration = some candidate.generation) ∨
      ((∃ error, result = .error error) ∧ next = database) := by
  unfold Database.replaceDefinitionsWith at replaced
  split at replaced
  · cases replaced
    exact .inr (.inr ⟨⟨_, rfl⟩, rfl⟩)
  · split at replaced
    · rename_i same
      cases replaced
      exact .inr (.inl ⟨rfl, rfl, same⟩)
    · split at replaced
      · cases replaced
        exact .inr (.inr ⟨⟨_, rfl⟩, rfl⟩)
      · rcases @transact_cases _ _ failures.commit
            (Database.replaceStatements failures candidate.generation
              candidate.stored) database with ⟨-, -, done⟩ | ⟨error, done⟩
        · rw [done, Database.foldl_replaceStatements] at replaced
          cases replaced
          exact .inl ⟨rfl, rfl⟩
        · rw [done] at replaced
          cases replaced
          exact .inr (.inr ⟨⟨error, rfl⟩, rfl⟩)

theorem accepted_mirrors (database : Database) (candidate : Candidate) :
    Mirrors (database.accepted candidate) candidate := by
  refine ⟨rfl, fun id => ?_⟩
  rw [Database.lookup_accepted]
  cases database.workloads.lookup id with
  | none => cases candidate.definition? id <;> rfl
  | some row => rfl

theorem keepsDefinitions_of_standing
    (generation : next.configGeneration = database.configGeneration)
    (standing : ∀ id, (next.standing id).bind StoredWorkload.definition =
      (database.standing id).bind StoredWorkload.definition) :
    KeepsDefinitions database next := by
  refine ⟨generation, fun id => ?_⟩
  have held (database : Database) :
      (database.standing id).bind StoredWorkload.definition =
        (database.workloads.lookup id).bind StoredWorkload.definition := by
    rw [Database.standing]
    cases database.workloads.lookup id <;> rfl
  rw [← held next, ← held database]
  exact standing id

theorem configGeneration_claimed {id session : String}
    {execution : StoredExecution}
    (claims : database.insertEnabledJobExecution id execution session =
      .ok (true, next)) : next.configGeneration = database.configGeneration := by
  unfold Database.insertEnabledJobExecution at claims
  split at claims
  · cases claims
  split at claims
  · obtain ⟨inserted, inserts, same⟩ := map_eq_ok_iff.mp claims
    cases same
    obtain ⟨-, -, rfl⟩ := Database.insertExecution_ok inserts
    rfl
  · cases claims

theorem Written.keeps (written : Written database next) :
    KeepsDefinitions database next := by
  cases written with
  | enabled target enabled =>
      refine keepsDefinitions_of_standing rfl fun id => ?_
      rw [Database.standing_setEnabled]
      cases database.standing id with
      | none => rfl
      | some row =>
          rw [Option.map_some, Option.bind_some, Option.bind_some]
          split <;> rfl
  | inserted inserts =>
      obtain ⟨-, -, rfl⟩ := Database.insertExecution_ok inserts
      exact ⟨rfl, fun _ => rfl⟩
  | @claimed executionId session execution _ claims =>
      obtain ⟨row, found, -, -, -, standing⟩ :=
        Database.insertEnabledJobExecution_true claims
      refine keepsDefinitions_of_standing ?_ fun id => ?_
      · exact configGeneration_claimed claims
      · rw [standing]
        split
        · rename_i same
          rw [same, Database.standing, found]
          rfl
        · rfl
  | supervisor | finished =>
      exact keepsDefinitions_of_standing rfl fun id => by simp
  | observed commits =>
      refine keepsDefinitions_of_standing ?_ fun id => ?_
      · obtain ⟨row, -, ⟨-, rfl, -⟩ | ⟨-, -, rfl⟩⟩ :=
          Database.commitObservation_ok commits <;> rfl
      · rw [Database.standing_commitObservation commits]

theorem Mirrors.keep (mirrors : Mirrors database candidate)
    (keeps : KeepsDefinitions database next) : Mirrors next candidate :=
  ⟨keeps.generation.trans mirrors.generation,
    fun id => (keeps.definitions id).trans (mirrors.definitions id)⟩

/-- No two of the loads have different encodings with one hash. -/
def Distinct (libraries : Libraries) (loads : List CandidateConfig) : Prop :=
  ∀ first ∈ loads, ∀ second ∈ loads, ¬Collide libraries.sha256
    (configFeed first.definitions) (configFeed second.definitions)

def GoesBy (libraries : Libraries) (host : Host) (database : Database) :
    List CandidateConfig → Prop
  | [] => database.configGeneration = none
  | loaded :: _ =>
      IsLoaded libraries loaded ∧ Mirrors database (reloaded host loaded)

theorem Reloaded.goesBy {loads : List CandidateConfig}
    (run : Reloaded libraries parse host root database loads)
    (distinct : Distinct libraries loads) :
    GoesBy libraries host database loads := by
  induction run with
  | fresh empty => exact empty
  | @other database next loads before written ih =>
      have keeps := written.keeps
      have goesBy := ih distinct
      cases loads with
      | nil => exact keeps.generation.trans goesBy
      | cons loaded loads => exact ⟨goesBy.1, goesBy.2.keep keeps⟩
  | failed failures before replaced ih =>
      rcases replaced_cases replaced with ⟨⟨⟩, -⟩ | ⟨⟨⟩, -⟩ | ⟨-, rfl⟩
      exact ih distinct
  | @taken database next loads history loaded changed failures before success
      replaced ih =>
      have isLoaded := isLoaded_of_loads success
      refine ⟨isLoaded, ?_⟩
      rcases replaced_cases replaced with ⟨-, rfl⟩ | ⟨-, rfl, same⟩ |
        ⟨⟨error, ⟨⟩⟩, -⟩
      · exact accepted_mirrors database (reloaded host loaded)
      · have goesBy := ih fun first hfirst second hsecond =>
          distinct first (List.mem_cons_of_mem _ hfirst) second
            (List.mem_cons_of_mem _ hsecond)
        cases loads with
        | nil =>
            rw [GoesBy, same] at goesBy
            cases goesBy
        | cons earlier loads =>
            obtain ⟨wasLoaded, mirrors⟩ := goesBy
            have generation : earlier.generation = loaded.generation :=
              Option.some.inj (mirrors.generation.symm.trans same)
            have alike := wasLoaded.eq_of_generation isLoaded generation
              (distinct _ (by simp) _ (by simp))
            exact alike ▸ mirrors

/--
After any number of reloads, each of which may fail at any statement, and of
other writes that leave definitions alone, the store holds exactly the
definitions that were loaded last, also when that reload was not reported as a
change.
-/
theorem store_mirrors {loaded : CandidateConfig} {loads : List CandidateConfig}
    (run : Reloaded libraries parse host root database (loaded :: loads))
    (distinct : Distinct libraries (loaded :: loads)) :
    Mirrors database (reloaded host loaded) :=
  (run.goesBy distinct).2

/-! ## Two reloads -/

theorem not_collide_self (sha256 : List UInt8 → List UInt8)
    (feed : Feed UInt8) : ¬ Collide sha256 feed feed := by
  rintro ⟨left, right, hleft, hright, differ, -⟩
  exact differ (Option.some.inj (hleft.symm.trans hright))

theorem not_collide_of_generation {sha256 : List UInt8 → List UInt8}
    {first second : Definitions}
    (differ : configGeneration sha256 first ≠ configGeneration sha256 second) :
    ¬ Collide sha256 (configFeed first) (configFeed second) := by
  rintro ⟨left, right, hleft, hright, -, same⟩
  refine differ ?_
  rw [configGeneration, configGeneration, hleft, hright, Option.map_some,
    Option.map_some, same]

/-- The sample directory before and after its files are written. -/
def firstLoad : CandidateConfig := sampleLoad fun _ => sampleFolder "a" 1

def secondLoad : CandidateConfig := sampleLoad sampleHistory

theorem differentLoads :
    configGeneration sampleLibraries.sha256 secondLoad.definitions ≠
        configGeneration sampleLibraries.sha256 firstLoad.definitions ∧
      secondLoad.generation ≠ firstLoad.generation := by
  decide +kernel

theorem distinctLoads : Distinct sampleLibraries [secondLoad, firstLoad] := by
  have differ := differentLoads.1
  simp only [Distinct, List.forall_mem_cons, List.not_mem_nil, false_implies,
    implies_true, and_true]
  exact ⟨⟨not_collide_self _ _, not_collide_of_generation differ⟩,
    not_collide_of_generation differ.symm, not_collide_self _ _⟩

theorem replaced_of_changed {database : Database} {candidate : Candidate}
    (changed : database.configGeneration ≠ some candidate.generation) :
    database.replaceDefinitionsWith
        ⟨none, none, none, fun _ => none, none, none⟩
        candidate.generation candidate.stored =
      (.ok true, database.accepted candidate) := by
  rw [Database.replaceDefinitionsWith_eq _ rfl rfl ?_ rfl]
  · rw [Database.replaceDefinitions, if_neg changed]
    rfl
  · intro statement hstatement
    simp only [Database.replaceStatements, List.mem_append, List.mem_cons,
      List.mem_map, List.not_mem_nil, or_false] at hstatement
    obtain (rfl | ⟨-, -, rfl⟩) | rfl := hstatement <;> rfl

/-- The second load replaces the first one. -/
theorem store_mirrors_sample :
    secondLoad.generation ≠ firstLoad.generation ∧
      Mirrors ((Database.empty.accepted (reloaded exampleHost
          firstLoad)).accepted (reloaded exampleHost secondLoad))
        (reloaded exampleHost secondLoad) := by
  have first : Reloaded sampleLibraries sampleParse exampleHost sampleRoot
      (Database.empty.accepted (reloaded exampleHost firstLoad))
      [firstLoad] :=
    .taken _ (.fresh rfl) (sampleLoad_loads (by decide +kernel))
      (replaced_of_changed nofun)
  have second : Reloaded sampleLibraries sampleParse exampleHost sampleRoot
      ((Database.empty.accepted (reloaded exampleHost firstLoad)).accepted
        (reloaded exampleHost secondLoad)) [secondLoad, firstLoad] :=
    .taken _ first (sampleLoad_loads (by decide +kernel))
      (replaced_of_changed fun same =>
        differentLoads.2 (Option.some.inj same).symm)
  exact ⟨differentLoads.2, store_mirrors second distinctLoads⟩

end Susm.Controller
