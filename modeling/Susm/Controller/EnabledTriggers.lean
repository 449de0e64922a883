import Susm.Controller.History
import Susm.Controller.Installation
import Susm.Controller.WorkloadRows

/-!
# Enabled triggers

An enabled job is started once in a session.  The session that has last
triggered the job is stored with the row of the new execution, in one
transaction, and no other transaction touches it.
-/

namespace Susm.Controller

open Susm.Foundation
open Susm.Protocol

/-! ## The reservation -/

/--
`Manager::start` with the reservation that it makes before the storage call and
takes back when nothing has been inserted.
-/
def startReserving (host : Host) (session : String) (answer : Answer)
    (state : State) (database : Database) (id : String)
    (expectedKind : WorkloadKind) (exclusive : Bool)
    (enabledManagerSession : Option String) : Started :=
  let refuse := fun reply => Started.mk reply state database none
  if state.sessionEnding then refuse (.error .sessionEnding)
  else
    match state.workloads.lookup id with
    | none => refuse (.error (.notFound id))
    | some record =>
        match ensureKind id record expectedKind, record.definition,
            state.active.lookup id, unixMs answer.systemTime with
        | .error error, _, _, _ => refuse (.error error)
        | .ok (), none, _, _ => refuse (.error (.definitionMissing id))
        | .ok (), some _, some active, _ =>
            if exclusive then refuse (.error (.alreadyActive id))
            else refuse (.ok (false, workloadView id record (some active)))
        | .ok (), some definition, none, time =>
            if !answer.written then refuse (.error .io)
            else
              match time with
              | none => refuse (.error .invalidSystemTime)
              | some started =>
                  let executionId := answer.uuid
                  let definition :=
                    startedDefinition host session executionId definition
                  let active := startingExecution host executionId definition
                  let reserved := state.setActive id active
                  match insertStarted database executionId
                    (startingRow id started definition) enabledManagerSession
                    answer.stored with
                  | .error error =>
                      ⟨.error (.storage error), reserved.removeActive id,
                        database, none⟩
                  | .ok (false, database) =>
                      ⟨.ok (false, workloadView id record none),
                        reserved.removeActive id, database, none⟩
                  | .ok (true, database) =>
                      ⟨.ok (true, workloadView id record (some active)),
                        reserved.bump, database,
                        some (startedRun id executionId started definition)⟩

theorem removeActive_setActive {state : State} {id : String}
    {active : ActiveExecution} (idle : state.active.lookup id = none) :
    (state.setActive id active).removeActive id = state := by
  unfold State.setActive State.removeActive
  rw [Map.erase_insert idle]

theorem startReserving_eq (host : Host) (session : String) (answer : Answer)
    (state : State) (database : Database) (id : String)
    (expectedKind : WorkloadKind) (exclusive : Bool)
    (enabledManagerSession : Option String) :
    startReserving host session answer state database id expectedKind exclusive
        enabledManagerSession =
      start host session answer state database id expectedKind exclusive
        enabledManagerSession := by
  unfold startReserving start
  dsimp only
  congr 1
  cases state.workloads.lookup id with
  | none => rfl
  | some record =>
      dsimp only
      cases ensureKind id record expectedKind with
      | error error => rfl
      | ok checked =>
          cases record.definition with
          | none => rfl
          | some definition =>
              cases idle : state.active.lookup id with
              | some active => rfl
              | none =>
                  dsimp only
                  generalize hback :
                    (state.setActive id _).removeActive id = back
                  obtain rfl : state = back :=
                    (removeActive_setActive idle).symm.trans hback
                  rfl

structure TriggerKeeps (state : State) (database : Database)
    (started : Started) : Prop where
  active : started.state.active = state.active
  executions : started.database.executions = database.executions
  claim : ∀ error, started.reply = .error error →
    ∀ id, started.database.lastTriggered id = database.lastTriggered id

theorem start_keeps {host : Host} {session : String} {answer : Answer}
    {state : State} {database : Database} {id : String}
    {expectedKind : WorkloadKind} {exclusive : Bool}
    {enabledManagerSession : Option String} {started : Started}
    (h : start host session answer state database id expectedKind exclusive
      enabledManagerSession = started)
    (idle : started.database.executions = database.executions ∨
      ∃ error, started.reply = .error error) :
    TriggerKeeps state database started := by
  subst h
  rcases start_cases host session answer state database id expectedKind
    exclusive enabledManagerSession with
    ⟨-, hstate, hdatabase, -⟩ | ⟨record, accepted, time, creates⟩
  · exact ⟨by rw [hstate], by rw [hdatabase], fun _ _ _ => by rw [hdatabase]⟩
  exfalso
  rcases idle with hexecutions | ⟨error, herror⟩
  · have hunused := creates.unused
    rw [← hexecutions, creates.executions, Map.lookup_insert_eq] at hunused
    simp at hunused
  · obtain ⟨view, hreply⟩ := creates.reply
    cases hreply.symm.trans herror

/-! ## Triggered rows -/

/-- The section that starts the next enabled job. -/
def ManagerTask.isTrigger : ManagerTask → Bool
  | .startEnabledJobs (_ :: _) => true
  | _ => false

namespace World

variable {host : Host} {world next first : World} {event : Event}
  {session id : String} {others : List ManagerTask}

def createdRows (id : String) (entry : Turn) :
    List (String × StoredExecution) :=
  entry.reaction.state.database.executions.toList.filter fun row =>
    row.2.workloadId = id ∧
      (entry.before.database.executions.lookup row.1).isNone

def triggers (entry : Turn) : Bool :=
  (entry.before.advancedTask entry.event).any ManagerTask.isTrigger

def triggeredRows (id : String) (history : List Turn) :
    List (String × StoredExecution) :=
  history.flatMap fun entry =>
    if triggers entry then createdRows id entry else []

def Belongs (session : String) (world : World) : Prop :=
  ∀ manager, world.controller = some manager → manager.session = session

def SessionOnly (session : String) : Event → Prop
  | .startup opened _ => opened = session
  | _ => True

instance (session : String) : DecidablePred (SessionOnly session) := fun event =>
  match event with
  | .startup opened _ => inferInstanceAs (Decidable (opened = session))
  | .elapse _ | .processExited _ | .controllerExited | .command ..
  | .attach .. | .advance .. => .isTrue trivial

theorem Moved.belongs (moved : Moved host world event next)
    (belongs : Belongs session world) (only : SessionOnly session event) :
    Belongs session next := by
  intro after runs
  cases moved with
  | elapsed | processExited => exact belongs after runs
  | controllerExited => cases runs
  | startup closed =>
      obtain ⟨state, -, rfl⟩ := Option.map_eq_some_iff.mp runs
      exact only
  | command running | attach running | advance running =>
      have same := belongs _ running
      cases runs
      exact same

theorem Moved.lastTriggered (moved : Moved host world event next)
    (belongs : Belongs session world)
    (triggered : world.database.lastTriggered id = some session) :
    next.database.lastTriggered id = some session := by
  have before := triggered
  rw [Database.lastTriggered_eq] at before
  obtain ⟨row, hrow, hsession⟩ := Option.map_eq_some_iff.mp before
  cases moved.standing id with
  | kept same =>
      rw [Database.lastTriggered_eq, same]
      exact before
  | enabled command tables =>
      rw [Database.lastTriggered_eq, tables, Database.standing_setEnabled, hrow]
      simp only [Option.map_some]
      split <;> simpa using hsession
  | advanced running found after =>
      cases after with
      | kept same =>
          rw [Database.lastTriggered_eq, same]
          exact before
      | replaced reloads tables =>
          rw [tables]
          exact Database.lastTriggered_replaceDefinitions triggered
      | claimed claims found job enabled first last =>
          rw [Database.lastTriggered_eq, last, belongs _ running]
          rfl

theorem createdRows_same {entry : Turn}
    (same : entry.reaction.state.database.executions =
      entry.before.database.executions) : createdRows id entry = [] := by
  rw [createdRows, same]
  refine List.filter_eq_nil_iff.mpr ?_
  rintro ⟨executionId, row⟩ hrow
  simp [Map.mem_toList.mp hrow]

theorem createdRows_insert {entry : Turn} {executionId : String}
    {row : StoredExecution}
    (unused : entry.before.database.executions.lookup executionId = none)
    (inserted : entry.reaction.state.database.executions =
      entry.before.database.executions.insert executionId row) :
    createdRows id entry =
      if row.workloadId = id then [(executionId, row)] else [] := by
  have old : (entry.before.database.executions.toList.filter fun row =>
      row.2.workloadId = id ∧
        (entry.before.database.executions.lookup row.1).isNone) = [] := by
    refine List.filter_eq_nil_iff.mpr ?_
    rintro ⟨executionId, row⟩ hrow
    simp [Map.mem_toList.mp hrow]
  rw [createdRows, inserted, Map.toList_insert unused, List.filter_cons, old]
  simp [unused]

theorem created_trigger {manager : Manager} {answer : Answer}
    {outcome : Outcome} {job : String} {jobs : List String}
    {effects : List ManagerTask}
    (made : Section host manager.session world.now answer
      (world.situation manager) (.startEnabledJobs (job :: jobs)) outcome) :
    createdRows id ⟨world, event,
        ⟨world.settle manager others outcome, effects⟩⟩ = [] ∨
      (createdRows id ⟨world, event,
        ⟨world.settle manager others outcome, effects⟩⟩).length = 1 ∧
        world.database.lastTriggered id ≠ some manager.session ∧
        outcome.database.lastTriggered id = some manager.session := by
  cases made with
  | givesUp made => cases made
  | runCancelled waiting => rcases waiting with h | h | h <;> cases h
  | startJob =>
      rcases start_cases host manager.session answer manager.state
        world.database job .job true (some manager.session) with
        ⟨-, -, hdatabase, -⟩ | ⟨record, accepted, time, creates⟩
      · exact .inl (createdRows_same (congrArg Database.executions hdatabase))
      have hcreated := creates.executions
      rcases start_inserted host manager.session answer manager.state
        world.database job .job true (some manager.session) with
        hsame | ⟨execution, rfl, hinserted⟩
      · rw [hsame] at hcreated
        have hunused := creates.unused
        rw [hcreated, Map.lookup_insert_eq] at hunused
        simp at hunused
      obtain ⟨row, hrow, -, -, hfirst, hclaims⟩ :=
        Database.insertEnabledJobExecution_true
          (insertStarted_enabled hinserted)
      rw [createdRows_insert creates.unused hcreated]
      by_cases hid : execution.workloadId = id
      · subst id
        refine .inr ⟨by simp [startingRow], ?_, ?_⟩
        · simpa [Database.lastTriggered, hrow] using hfirst
        · have hclaim := hclaims execution.workloadId
          rw [if_pos rfl] at hclaim
          rw [Database.lastTriggered_eq]
          exact congrArg (Option.map StoredWorkload.lastTriggeredSession) hclaim
      · exact .inl (if_neg hid)

theorem Moved.triggered {effects : List ManagerTask}
    (moved : Moved host world event next) (belongs : Belongs session world)
    (trigger : (world.advancedTask event).any ManagerTask.isTrigger = true) :
    createdRows id ⟨world, event, next, effects⟩ = [] ∨
      (createdRows id ⟨world, event, next, effects⟩).length = 1 ∧
        world.database.lastTriggered id ≠ some session ∧
        next.database.lastTriggered id = some session := by
  cases moved with
  | @advance index answer manager task outcome running found made =>
      rw [advancedTask_eq running found] at trigger
      cases task with
      | startEnabledJobs jobs =>
          cases jobs with
          | nil => cases trigger
          | cons job jobs =>
              obtain rfl := belongs _ running
              exact created_trigger made
      | _ => cases trigger
  | _ => cases trigger

theorem triggeredRows_concat {history : List Turn} {entry : Turn} :
    triggeredRows id (history ++ [entry]) =
      triggeredRows id history ++
        if triggers entry then createdRows id entry else [] := by
  simp [triggeredRows]

structure Triggering (session : String) (world : World)
    (history : List Turn) : Prop where
  belongs : Belongs session world
  once : ∀ id, (triggeredRows id history).length ≤ 1
  stored : ∀ id, triggeredRows id history ≠ [] →
    world.database.lastTriggered id = some session

theorem Triggering.step {history : List Turn} {effects : List ManagerTask}
    (held : Triggering session world history)
    (only : SessionOnly session event)
    (moved : World.step host world event = some next) :
    Triggering session next (history ++ [⟨world, event, next, effects⟩]) := by
  have made := step_moved moved
  have kept : ∀ id, triggeredRows id history ≠ [] →
      next.database.lastTriggered id = some session := fun id some =>
    made.lastTriggered held.belongs (held.stored id some)
  have rows : ∀ id, triggeredRows id
        (history ++ [⟨world, event, next, effects⟩]) =
          triggeredRows id history ∨
      (triggeredRows id
        (history ++ [⟨world, event, next, effects⟩])).length = 1 ∧
        next.database.lastTriggered id = some session := by
    intro id
    rw [triggeredRows_concat]
    split
    · rename_i trigger
      rcases made.triggered held.belongs trigger with
        hnone | ⟨hone, hbefore, hafter⟩
      · exact .inl (by rw [hnone, List.append_nil])
      · have hempty : triggeredRows id history = [] := by
          by_contra hsome
          exact hbefore (held.stored id hsome)
        exact .inr ⟨by rw [hempty, List.nil_append, hone], hafter⟩
    · exact .inl (List.append_nil _)
  constructor
  case belongs => exact made.belongs held.belongs only
  case once =>
    intro id
    rcases rows id with hsame | ⟨hone, -⟩
    · exact hsame ▸ held.once id
    · exact hone.le
  case stored =>
    intro id hsome
    rcases rows id with hsame | ⟨-, hstored⟩
    · exact kept id (hsame ▸ hsome)
    · exact hstored

structure TriggersOnce (host : Host) (history : List Turn) : Prop where
  once : ∀ id, (triggeredRows id history).length ≤ 1
  reserves : ∀ entry ∈ history, ∀ index answer manager id jobs,
    entry.event = .advance index answer →
    entry.before.controller = some manager →
    manager.tasks[index]? = some (.startEnabledJobs (id :: jobs)) →
    ∃ after started,
      entry.reaction.state.controller = some after ∧
      startReserving host manager.session answer manager.state
        entry.before.database id .job true (some manager.session) = started ∧
      after.state = started.state ∧
      entry.reaction.state.database = started.database ∧
      (started.database.executions = entry.before.database.executions ∨
          (∃ error, started.reply = .error error) →
        TriggerKeeps manager.state entry.before.database started)

/--
While one manager session lasts, however often its controller ends and is
started again, the enabled trigger creates at most one execution of a job; when
it creates none or fails, what is active and what is stored stay as they were.
-/
theorem triggers_once (reachable : Reachable host first)
    (belongs : Belongs session first) {events : List Event}
    (only : ∀ event ∈ events, SessionOnly session event) :
    TriggersOnce host (turns host first events) := by
  have keeps : ∀ (world : World) (history : List Turn) (event : Event)
      (next : World), Reachable host world →
      Triggering session world history → SessionOnly session event →
      World.step host world event = some next →
      Triggering session next
        (history ++ [⟨world, event, next, produced host world event⟩]) :=
    fun _ _ _ _ _ held only moved => held.step only moved
  have start : Triggering session first [] :=
    ⟨belongs, fun _ => Nat.zero_le _, fun _ h => absurd rfl h⟩
  have held := (turns_history keeps reachable start only).2
  constructor
  case once => exact held.once
  case reserves =>
    intro entry hentry index answer manager id jobs hevent running found
    obtain ⟨before, after, hsplit⟩ := List.append_of_mem hentry
    obtain ⟨next, hform, -, -, -, moved⟩ :=
      turns_history_at keeps reachable start only hsplit
    rw [hform]
    rw [hevent] at moved
    obtain ⟨runs, task, outcome, hruns, hfound, advanced, rfl⟩ :=
      step_advance moved
    cases running.symm.trans hruns
    cases found.symm.trans hfound
    cases advanced
    refine ⟨_, _, rfl, startReserving_eq .., rfl, rfl, ?_⟩
    exact start_keeps rfl

/-- A job whose supervisor cannot be prepared. -/
def jobDefinition : ExecutionConfiguration :=
  setExecutionHash installation
    { toolDefinition with workloadId := "task", kind := .job }

/-- The job is enabled and the controller ends; the next one triggers the job,
which ends at once, and the one after that does not. -/
def triggerEvents : List Event :=
  startupEvents [jobDefinition] ++
    [.command (.setEnabled "task" true) calm, .advance 0 calm,
      .controllerExited, .startup sampleSession [],
      .advance 0 (loadCandidate [jobDefinition])] ++
    List.replicate 5 (.advance 0 calm) ++
    [.advance 0 { calm with uuid := "e1" },
      .advance 0 { calm with written := false }] ++
    List.replicate 4 (.advance 0 calm) ++
    [.controllerExited, .startup sampleSession [],
      .advance 0 (loadCandidate [jobDefinition])] ++
    List.replicate 7 (.advance 0 { calm with uuid := "e2" })

theorem triggers_once_job :
    TriggersOnce installation
        (turns installation World.initial triggerEvents) ∧
      (triggeredRows "task" (turns installation World.initial
        triggerEvents)).map Prod.fst = ["e1"] := by
  have belongs : Belongs sampleSession World.initial := fun _ running => by
    cases running
  exact ⟨triggers_once Runs.refl belongs (by decide +kernel),
    by decide +kernel⟩

end World

end Susm.Controller
