import Susm.Controller.Turns

/-!
# Rows of workloads

What one turn of the controller does to the row of a workload.  Every
transaction may store its last outcome; its other columns are written by a
reload, by an enablement and by the trigger of an enabled job.
-/

namespace Susm.Controller

open Susm.Foundation
open Susm.Protocol

/-- The columns that the end of an execution does not write. -/
def StoredWorkload.standing (row : StoredWorkload) : StoredWorkload :=
  { row with lastOutcome := none }

namespace Database

variable {database after : Database} {id : String}

def standing (database : Database) (id : String) : Option StoredWorkload :=
  (database.workloads.lookup id).map StoredWorkload.standing

def lastTriggered (database : Database) (id : String) : Option String :=
  (database.workloads.lookup id).map StoredWorkload.lastTriggeredSession

theorem lastTriggered_eq (database : Database) (id : String) :
    database.lastTriggered id =
      (database.standing id).map StoredWorkload.lastTriggeredSession := by
  simp [lastTriggered, standing, StoredWorkload.standing, Function.comp_def]

theorem lookup_setLastOutcome (workloads : Map String StoredWorkload)
    (target other : String) (outcome : StateName) :
    ((setLastOutcome workloads target outcome).lookup other).map
        StoredWorkload.standing =
      (workloads.lookup other).map StoredWorkload.standing := by
  rw [setLastOutcome, Map.lookup_modify]
  split
  · cases workloads.lookup other <;> rfl
  · rfl

@[simp] theorem standing_finishExecution {executionId : String}
    {execution : StoredExecution} :
    (database.finishExecution executionId execution).standing id =
      database.standing id :=
  lookup_setLastOutcome _ _ _ _

@[simp] theorem standing_setExecutionSupervisor {executionId : String}
    {processId : Nat} :
    (database.setExecutionSupervisor executionId processId).standing id =
      database.standing id := rfl

theorem standing_setEnabled (target : String) (enabled : Bool) :
    (database.setEnabled target enabled).2.standing id =
      (database.standing id).map fun row =>
        if id = target then { row with enabled := enabled } else row := by
  simp only [standing, setEnabled, Map.lookup_modify]
  split <;> cases database.workloads.lookup id <;> rfl

theorem standing_insertExecution {executionId : String}
    {execution : StoredExecution}
    (h : database.insertExecution executionId execution = .ok after) :
    after.standing id = database.standing id := by
  obtain ⟨-, -, rfl⟩ := insertExecution_ok h
  rfl

theorem standing_commitObservation {executionId : String} {sequence : Nat}
    {update : ObservationUpdate} {committed : Bool}
    (h : database.commitObservation executionId sequence update =
      .ok (committed, after)) :
    after.standing id = database.standing id := by
  obtain ⟨row, -, ⟨-, rfl, -⟩ | ⟨-, -, rfl⟩⟩ := commitObservation_ok h
  · rfl
  · cases update with
    | acknowledge | progress => rfl
    | terminal terminal => exact lookup_setLastOutcome _ _ _ _

theorem insertEnabledJobExecution_true {executionId session : String}
    {execution : StoredExecution}
    (h : database.insertEnabledJobExecution executionId execution session =
      .ok (true, after)) :
    ∃ row, database.workloads.lookup execution.workloadId = some row ∧
      row.kind = .job ∧ row.enabled = true ∧
      row.lastTriggeredSession ≠ session ∧
      ∀ id, after.standing id =
        if id = execution.workloadId then
          some { row with lastTriggeredSession := session }.standing
        else database.standing id := by
  unfold insertEnabledJobExecution at h
  split at h
  · cases h
  rename_i row hrow
  split at h
  · rename_i hclaims
    obtain ⟨inserted, hinsert, htrue⟩ := map_eq_ok_iff.mp h
    cases htrue
    obtain ⟨-, -, rfl⟩ := insertExecution_ok hinsert
    refine ⟨row, hrow, hclaims.1, hclaims.2.1, hclaims.2.2, fun id => ?_⟩
    simp only [standing, Map.lookup_insert_eq]
    split <;> rfl
  · cases h

/-! ## Definitions -/

theorem lookup_upsertDefinition (workloads : Map String StoredWorkload)
    (item : String × StoredWorkload) (id : String) :
    (upsertDefinition workloads item).lookup id =
      if id = item.1 then
        some
          (match workloads.lookup id with
          | none =>
              { item.2 with lastTriggeredSession := "", lastOutcome := none }
          | some row =>
              { row with
                kind := item.2.kind
                definition := item.2.definition })
      else workloads.lookup id := by
  unfold upsertDefinition
  by_cases h : id = item.1
  · subst h
    cases hrow : workloads.lookup item.1 <;> simp
  · rw [if_neg h]
    cases workloads.lookup item.1 <;> exact AList.lookup_insert_ne h

theorem lastTriggered_replaceDefinitions {generation : List UInt8}
    {definitions : List (String × StoredWorkload)} {session : String}
    (h : database.lastTriggered id = some session) :
    (database.replaceDefinitions generation definitions).2.lastTriggered id =
      some session := by
  have upserted : ∀ workloads : Map String StoredWorkload,
      (workloads.lookup id).map StoredWorkload.lastTriggeredSession =
        some session →
      ((definitions.foldl upsertDefinition workloads).lookup id).map
        StoredWorkload.lastTriggeredSession = some session := by
    induction definitions with
    | nil => exact fun _ held => held
    | cons item definitions ih =>
        intro workloads held
        refine ih _ ?_
        obtain ⟨row, hrow, hsession⟩ := Option.map_eq_some_iff.mp held
        rw [lookup_upsertDefinition, hrow]
        split <;> simpa using hsession
  unfold replaceDefinitions
  split
  · exact h
  · refine upserted _ ?_
    rw [Map.lookup_mapValues, Option.map_map]
    exact h

end Database

/-! ## Sections -/

section Sections

variable {host : Host} {session : String} {now : Nat} {answer : Answer}
  {situation : Situation} {outcome : Outcome} {id : String}

theorem start_inserted (host : Host) (session : String) (answer : Answer)
    (state : State) (database : Database) (id : String)
    (expectedKind : WorkloadKind) (exclusive : Bool)
    (enabledManagerSession : Option String) :
    let started := start host session answer state database id expectedKind
      exclusive enabledManagerSession
    started.database = database ∨
      ∃ execution, execution.workloadId = id ∧
        insertStarted database answer.uuid execution enabledManagerSession
          answer.stored = .ok (true, started.database) := by
  intro started
  have hstarted : started = start host session answer state database id
    expectedKind exclusive enabledManagerSession := rfl
  clear_value started
  unfold start at hstarted
  dsimp only at hstarted
  split at hstarted
  · exact .inl (hstarted ▸ rfl)
  split at hstarted
  · exact .inl (hstarted ▸ rfl)
  split at hstarted
  · exact .inl (hstarted ▸ rfl)
  · exact .inl (hstarted ▸ rfl)
  · split at hstarted <;> exact .inl (hstarted ▸ rfl)
  split at hstarted
  · exact .inl (hstarted ▸ rfl)
  split at hstarted
  · exact .inl (hstarted ▸ rfl)
  split at hstarted
  · exact .inl (hstarted ▸ rfl)
  · rename_i after hinsert
    exact .inl (hstarted ▸ insertStarted_false hinsert)
  · rename_i after hinsert
    subst hstarted
    exact .inr ⟨_, rfl, hinsert⟩

theorem insertStarted_plain {database after : Database} {executionId : String}
    {execution : StoredExecution} {stored : Bool}
    (h : insertStarted database executionId execution none stored =
      .ok (true, after)) : after.standing id = database.standing id := by
  unfold insertStarted at h
  split at h
  · obtain ⟨inserted, hinserted, htrue⟩ := map_eq_ok_iff.mp h
    cases htrue
    exact Database.standing_insertExecution hinserted
  · cases h

theorem insertStarted_enabled {database after : Database}
    {executionId : String} {execution : StoredExecution} {stored : Bool}
    (h : insertStarted database executionId execution (some session) stored =
      .ok (true, after)) :
    database.insertEnabledJobExecution executionId execution session =
      .ok (true, after) := by
  unfold insertStarted at h
  split at h
  · exact h
  · cases h

theorem insertStarted_workload {database after : Database}
    {executionId : String} {execution : StoredExecution}
    {enabledManagerSession : Option String} {stored : Bool}
    (h : insertStarted database executionId execution enabledManagerSession
      stored = .ok (true, after)) :
    (database.workloads.lookup execution.workloadId).isSome := by
  cases enabledManagerSession with
  | some session =>
      obtain ⟨row, hrow, -⟩ := Database.insertEnabledJobExecution_true
        (insertStarted_enabled h)
      simp [hrow]
  | none =>
      unfold insertStarted at h
      split at h
      · obtain ⟨inserted, hinserted, -⟩ := map_eq_ok_iff.mp h
        exact (Database.insertExecution_ok hinserted).2.1
      · cases h

/-- What one section does to the row of a workload. -/
inductive StandingAfter (session : String) (task : ManagerTask)
    (database after : Database) (id : String) : Prop where
  | kept (same : after.standing id = database.standing id)
  | replaced {generation : List UInt8}
      {definitions : List (String × StoredWorkload)} {caller : Caller}
      (reloads : task = .replaceDefinitions generation definitions caller)
      (tables :
        after = (database.replaceDefinitions generation definitions).2)
  | claimed {jobs : List String} {row : StoredWorkload}
      (triggers : task = .startEnabledJobs (id :: jobs))
      (found : database.workloads.lookup id = some row)
      (job : row.kind = .job) (enabled : row.enabled = true)
      (first : row.lastTriggeredSession ≠ session)
      (claims : after.standing id =
        some { row with lastTriggeredSession := session }.standing)

theorem startSection_standing {expectedKind : WorkloadKind}
    {exclusive : Bool} {next : List ManagerTask} {workloadId : String} :
    (startSection host session answer situation workloadId expectedKind
      exclusive none next).database.standing id =
        situation.database.standing id := by
  unfold startSection
  rcases start_inserted host session answer situation.state situation.database
    workloadId expectedKind exclusive none with hsame | ⟨_, -, hinserted⟩
  · exact congrArg (Database.standing · id) hsame
  · exact insertStarted_plain hinserted

theorem Section.standing {task : ManagerTask}
    (made : Section host session now answer situation task outcome)
    (id : String) :
    StandingAfter session task situation.database outcome.database id := by
  cases made with
  | replaceDefinitions => exact .replaced rfl rfl
  | startService | rerunIdle | replacementStart =>
      exact .kept startSection_standing
  | @startJob workloadId jobs =>
      rcases start_inserted host session answer situation.state
        situation.database workloadId .job true (some session) with
        hsame | ⟨execution, rfl, hinserted⟩
      · exact .kept (congrArg (Database.standing · id) hsame)
      · obtain ⟨row, hrow, hjob, henabled, hfirst, hclaims⟩ :=
          Database.insertEnabledJobExecution_true
            (insertStarted_enabled hinserted)
        have hid := hclaims id
        split at hid
        · subst id
          exact .claimed rfl hrow hjob henabled hfirst hid
        · exact .kept hid
  | recordRepeated committed | recordEnded committed
  | recordAdvanced committed =>
      exact .kept (Database.standing_commitObservation committed)
  | terminalFinished | completeFinished =>
      exact .kept Database.standing_finishExecution
  | _ => exact .kept rfl

theorem Command.standing (command : Command) (id : String) :
    (∃ target enabled, command = .setEnabled target enabled ∧
      (command.perform host session answer situation).database =
        (situation.database.setEnabled target enabled).2) ∨
      (command.perform host session answer situation).database.standing id =
        situation.database.standing id := by
  cases command with
  | startService workloadId | runJob workloadId =>
      exact .inr startSection_standing
  | setEnabled target enabled =>
      simp only [Command.perform]
      split
      · exact .inl ⟨target, enabled, rfl, rfl⟩
      · exact .inr rfl
  | _ => exact .inr rfl

end Sections

/-! ## Opening -/

theorem openExecutions_standing {host : Host} {session : String}
    {rows : List (String × StoredExecution)} {answers : List Answer}
    {database : Database} {opening : Opening} {id : String} :
    (openExecutions host session rows answers database opening).1.standing id =
      database.standing id := by
  induction rows generalizing answers database opening with
  | nil => rfl
  | cons entry rows ih =>
      unfold openExecutions
      split
      · exact ih
      split
      · rfl
      split
      · rw [ih, Database.standing_finishExecution]
      · rfl

theorem openManager_standing (host : Host) (session : String)
    (answers : List Answer) (database : Database) (id : String) :
    (openManager host session answers database).1.standing id =
      database.standing id :=
  openExecutions_standing

/-! ## Turns -/

namespace World

variable {host : Host} {world next : World} {event : Event} {id : String}

/-- What one turn does to the row of a workload. -/
inductive StandingMoved (world : World) (event : Event) (next : World)
    (id : String) : Prop where
  | kept (same : next.database.standing id = world.database.standing id)
  | enabled {target : String} {enabled : Bool} {answer : Answer}
      (command : event = .command (.setEnabled target enabled) answer)
      (tables : next.database = (world.database.setEnabled target enabled).2)
  | advanced {manager : Manager} {task : ManagerTask}
      (running : world.controller = some manager)
      (found : world.advancedTask event = some task)
      (after : StandingAfter manager.session task world.database
        next.database id)

theorem Moved.standing (moved : Moved host world event next) (id : String) :
    StandingMoved world event next id := by
  cases moved with
  | elapsed | processExited | controllerExited => exact .kept rfl
  | startup closed => exact .kept (openManager_standing _ _ _ _ id)
  | @command command answer manager running serving =>
      rcases @Command.standing host manager.session answer
        (world.situation manager) command id with
        ⟨target, enabled, rfl, htables⟩ | hsame
      · exact .enabled rfl htables
      · exact .kept hsame
  | attach running serving => exact .kept rfl
  | advance running found made =>
      exact .advanced running (advancedTask_eq running found)
        (made.standing id)

end World

end Susm.Controller
