import Susm.Controller.Installation
import Susm.Controller.PolicySteps

/-!
# Agreement on policies

The hash of an active execution is that of the accepted definition from the end
of the first reload on.  Where it counts as acknowledged and nothing is on its
way, the process that is attached enforces the policy of the definition.
-/

namespace Susm.Controller

open Susm.Foundation
open Susm.Protocol
open Susm.Supervisor

namespace Fleet

variable {host : Host} {fleet next : Fleet} {event : Event}

/-! ## Accepted definitions -/

/-- The hashes are those of the accepted definitions, but for a controller that
is in its first reload, and to which nothing is attached. -/
def Agrees (host : Host) (world : World) : Prop :=
  ∀ manager, world.controller = some manager →
    manager.tasks.any reloadsFirst = false ∧ manager.state.Agreed host ∨
      (∃ task, manager.tasks = [task] ∧ reloadsFirst task = true) ∧
        manager.state.receivers = []

theorem reloadsFirst_isStartup {task : ManagerTask}
    (h : reloadsFirst task = true) : task.isStartup = true := by
  unfold reloadsFirst at h
  split at h <;> first | rfl | cases h

theorem reloadsFirst_append {tasks more : List ManagerTask}
    (before : tasks.any reloadsFirst = false)
    (new : ∀ task ∈ more, reloadsFirst task = false) :
    (tasks ++ more).any reloadsFirst = false := by
  rw [List.any_append, before, Bool.false_or]
  exact List.any_eq_false.mpr fun task htask => by simp [new task htask]

theorem Agrees.serving (held : Agrees host fleet.world) {manager : Manager}
    (running : fleet.world.controller = some manager)
    (serving : manager.isServing = true) :
    manager.tasks.any reloadsFirst = false ∧ manager.state.Agreed host := by
  refine (held manager running).resolve_right ?_
  rintro ⟨⟨task, htasks, hfirst⟩, -⟩
  have htask := List.all_eq_true.mp serving task (by simp [htasks])
  rw [reloadsFirst_isStartup hfirst] at htask
  cases htask

theorem Agrees.advance (held : Agrees host fleet.world) {manager : Manager}
    {index : Nat} {answer : Answer} {task : ManagerTask} {outcome : Outcome}
    (reloads : fleet.ReloadsInStep host (.advance index answer))
    (running : fleet.world.controller = some manager)
    (found : manager.tasks[index]? = some task)
    (advanced : task.advance host manager.session fleet.world.now answer
      (fleet.world.situation manager) = some outcome) :
    Agrees host (fleet.world.settle manager (manager.tasks.eraseIdx index)
      outcome) := by
  intro after runs
  cases runs
  have made := ManagerTask.advance_section advanced
  rcases held manager running with
    ⟨done, agreed⟩ | ⟨⟨only, hsingle, hfirst⟩, hempty⟩
  · have serves : ∀ other ∈ manager.tasks, reloadsFirst other = false :=
      fun other hother => by simpa using List.any_eq_false.mp done other hother
    have stays : (manager.tasks.eraseIdx index).any reloadsFirst = false :=
      List.any_eq_false.mpr fun other hother => by
        simp [serves other (List.mem_of_mem_eraseIdx hother)]
    refine .inl ⟨reloadsFirst_append stays fun other hother => ?_,
      made.agreed (.inr agreed)⟩
    refine Bool.eq_false_iff.mpr fun first => ?_
    have htask := World.reloadsFirst_succeeds made hother first
    rw [serves task (List.mem_of_getElem? found)] at htask
    cases htask
  · have hrest := World.eraseIdx_of_single found hsingle
    have hsame : task = only := by
      rw [hsingle] at found
      exact List.mem_singleton.mp (List.mem_of_getElem? found)
    subst hsame
    cases World.firstReload running found hfirst advanced with
    | @goesOn other htasks hother hstate =>
        refine .inr ⟨⟨other, ?_, hother⟩, ?_⟩
        · simp [hrest, htasks]
        · exact (congrArg State.receivers hstate).trans hempty
    | givenUp abandons reloaded htasks hstate =>
        refine .inl ⟨?_, ?_⟩
        · simp [hrest, htasks, reloadsFirst]
        · have agreed := (reloads _ reloaded).1 abandons
          rw [← hstate] at agreed
          exact agreed
    | reconciled reloaded htasks agreed beliefs =>
        refine .inl ⟨?_, agreed⟩
        simp [hrest, htasks, reloadsFirst]

theorem Agrees.step (held : Agrees host fleet.world)
    (reloads : fleet.ReloadsInStep host event) {world : World}
    (moved : World.step host fleet.world event = some world) :
    Agrees host world := by
  cases event with
  | elapse | processExited =>
      cases moved
      exact held
  | controllerExited =>
      cases moved
      intro after runs
      cases runs
  | startup session answers =>
      obtain ⟨-, rfl⟩ := World.step_startup moved
      intro after runs
      obtain ⟨state, hstate, rfl⟩ := Option.map_eq_some_iff.mp runs
      obtain ⟨opening, -, rfl⟩ := Option.map_eq_some_iff.mp hstate
      exact .inr ⟨⟨_, rfl, rfl⟩, rfl⟩
  | command command answer =>
      obtain ⟨manager, running, hserving, rfl⟩ := World.step_command moved
      intro after runs
      cases runs
      obtain ⟨done, agreed⟩ := held.serving running hserving
      refine .inl ⟨reloadsFirst_append done fun task htask => ?_,
        @Command.agreed host manager.session answer
          (fleet.world.situation manager) command agreed⟩
      cases Command.leaves htask <;> rfl
  | attach hello answer =>
      obtain ⟨manager, running, hserving, rfl⟩ := World.step_attach moved
      intro after runs
      cases runs
      obtain ⟨done, agreed⟩ := held.serving running hserving
      refine .inl ⟨reloadsFirst_append done fun task htask => ?_, agreed⟩
      obtain ⟨row, -, rfl⟩ := World.mem_attachTasks htask
      rfl
  | advance index answer =>
      obtain ⟨manager, task, outcome, running, found, advanced, rfl⟩ :=
        World.step_advance moved
      exact held.advance reloads running found advanced

/-! ## Agreement -/

/-- What holds in every fleet that the admitted events lead to. -/
structure Holds (host : Host) (fleet : Fleet) : Prop where
  reachable : World.Reachable host fleet.world
  matched : Matched fleet
  inStep : InStep host fleet
  agrees : Agrees host fleet.world

theorem Holds.step (held : Holds host fleet) {event : FleetEvent}
    (admits : Admits host fleet event)
    (moved : Fleet.step host fleet event = some next) : Holds host next := by
  by_cases hworldly : ∃ worldly listening, event = .world worldly listening
  · obtain ⟨worldly, listening, rfl⟩ := hworldly
    have hworld := (step_world moved).1
    exact
      { reachable := held.reachable.tail trivial hworld
        matched := held.matched.step_world moved
        inStep := held.inStep.step_world held.reachable held.matched admits
          moved
        agrees := held.agrees.step admits.2.2.2 hworld }
  · have own : ∀ worldly listening, event ≠ .world worldly listening :=
      fun worldly listening same => hworldly ⟨worldly, listening, same⟩
    obtain ⟨hworld, matched, inStep⟩ :=
      step_own own held.matched held.inStep admits moved
    exact ⟨hworld ▸ held.reachable, matched, inStep, hworld ▸ held.agrees⟩

theorem run_holds
    (run : Runs (Fleet.step host) (Admits host) Fleet.initial fleet) :
    Holds host fleet := by
  refine run.invariant ?_ ?_
  · intro fleet event next held admits moved
    exact held.step admits moved
  · refine ⟨Runs.refl, ⟨rfl, ?_⟩, ?_, ?_⟩
    · intro process enforcer attachmentId found
      cases found
    · intro process enforcer hash found
      cases found
    · intro manager running
      cases running

def PoliciesCollide (host : Host) (first second : ExecutionConfiguration) :
    Prop :=
  policyFields first ≠ policyFields second ∧
    (policyUpdate host first).policyHash = (policyUpdate host second).policyHash

instance {first second : ExecutionConfiguration} :
    Decidable (PoliciesCollide host first second) :=
  inferInstanceAs (Decidable (_ ∧ _))

def acknowledging (executionId : String) : ManagerTask → Bool
  | .recordCheck _ other _ observation
  | .recordCommit _ other _ observation _
  | .recordProgress _ other _ observation =>
      other = executionId ∧ observation.kind = .policyApplied
  | _ => false

/--
The process is attached for an active execution whose policy is not pending and
whose definition is there, and neither a command nor an acknowledgement is on
its way.
-/
structure AtRest (fleet : Fleet) (process : Nat) (enforcer : Enforcer)
    (definition : ExecutionConfiguration) (manager : Manager) (id : String)
    (active : ActiveExecution) : Prop where
  serving : fleet.world.controller = some manager
  entry : manager.state.active.lookup id = some active
  synced : active.policySyncPending = false
  available : manager.state.definition id = some definition
  running : ∃ processId, fleet.world.processes[process]? =
    some ⟨active.executionId, processId, true⟩
  found : fleet.enforcers[process]? = some enforcer
  attached : active.attachmentId.isSome
  linked : enforcer.link = active.attachmentId
  arrived : fleet.incoming enforcer = []
  seen : enforcer.runner.unseen = none
  seenByWriter : ∀ writer ∈ enforcer.writer, writer.unseen = none
  committed : ∀ applied ∈ fleet.applied,
    applied.executionId = active.executionId →
      (fleet.world.database.executions.lookup active.executionId).any
        fun row => applied.sequence ≤ row.committedSequence
  recorded : ∀ task ∈ manager.tasks,
    acknowledging active.executionId task = false

end Fleet

/-- The runner and the log writer of a process have the policy of the
definition. -/
def Enforcer.Enforces (enforcer : Enforcer)
    (definition : ExecutionConfiguration) : Prop :=
  policyFields enforcer.runner.configuration = policyFields definition ∧
    ∀ writer ∈ enforcer.writer,
      loggingFields (policyFields writer.configuration) =
        loggingFields (policyFields definition)

instance (enforcer : Enforcer) (definition : ExecutionConfiguration) :
    Decidable (enforcer.Enforces definition) :=
  inferInstanceAs (Decidable (_ ∧ _))

theorem Enforcer.Heads.enforces {host : Host} {enforcer : Enforcer}
    {definition : ExecutionConfiguration}
    (heads : enforcer.Heads host [] (policyUpdate host definition).policyHash)
    (seen : enforcer.runner.unseen = none)
    (seenByWriter : ∀ writer ∈ enforcer.writer, writer.unseen = none)
    (distinct : ¬ Fleet.PoliciesCollide host enforcer.runner.configuration
      definition) : enforcer.Enforces definition := by
  have held : ∀ {Part : Type} (part : PolicyUpdate → Part) (copy : PolicyCopy),
      copy.unseen = none →
      copy.heading part [] = some (part (policyFields copy.configuration)) := by
    intro Part part copy hunseen
    rw [PolicyCopy.heading_nil, PolicyCopy.held, hunseen, Option.getD_none]
  have hhash : (policyUpdate host enforcer.runner.configuration).policyHash =
      (policyUpdate host definition).policyHash :=
    Option.some.inj ((held _ _ seen).symm.trans heads.1)
  have hfields : policyFields enforcer.runner.configuration =
      policyFields definition := by
    by_contra hdifferent
    exact distinct ⟨hdifferent, hhash⟩
  refine ⟨hfields, fun writer hwriter => ?_⟩
  have hlogging := heads.2 writer hwriter
  rw [held _ _ (seenByWriter writer hwriter), held _ _ seen, hfields]
    at hlogging
  exact Option.some.inj hlogging

namespace Fleet

variable {host : Host} {fleet : Fleet} {process : Nat} {enforcer : Enforcer}
  {definition : ExecutionConfiguration} {manager : Manager} {id : String}
  {active : ActiveExecution}

end Fleet

/-! ## A policy that is acknowledged -/

/-- The same service with more time to stop. -/
def patientDefinition : ExecutionConfiguration :=
  setExecutionHash installation { toolDefinition with stopTimeoutMs := 9_000 }

def patientPolicy : PolicyUpdate := policyUpdate installation patientDefinition

/-- The world moves, and no process begins to listen. -/
def unheard (events : List Event) : List FleetEvent :=
  events.map fun event => .world event none

/-- An observation arrives on the stream, and is recorded. -/
def observedEvents (observation : SupervisorObservation) : List Event :=
  .advance 1 { calm with observation := some observation } ::
    List.replicate 3 (.advance 1 calm)

def listeningEvents : List FleetEvent :=
  unheard (startupEvents [toolDefinition] ++ startEvents "e1" 7 ++
      [.attach (sampleHello "e1" 7) calm]) ++
    [.world (.advance 1 { calm with uuid := "a1" }) (some 0)]

/-- The attempt begins, a reload brings the new policy to the supervisor, and
the supervisor acknowledges it. -/
def acknowledgedEvents : List FleetEvent :=
  .startWriter 0 ::
    unheard (observedEvents ⟨1, .attemptStarted, none, "", 1, 42⟩ ++
      .command .reload (loadCandidate [patientDefinition]) ::
        List.replicate 3 (.advance 2 calm) ++ [.advance 1 calm]) ++
    [.receive 0, .apply 0 true (some 2), .applyLogging 0] ++
    unheard (observedEvents
      ⟨2, .policyApplied, none, hex patientPolicy.policyHash, 1, 42⟩)

/-- What the specification file of the supervisor says. -/
def specifiedDefinition : ExecutionConfiguration :=
  (startedRun "tool" "e1" 1_000 runningDefinition).definition

def patientEnforcer (attachmentId : String) : Enforcer where
  runner := ⟨applyPolicy specifiedDefinition patientPolicy, none⟩
  writer := some ⟨applyLoggingPolicy specifiedDefinition patientPolicy, none⟩
  link := some attachmentId
  inbox := []

def patientRow : StoredExecution :=
  { runningRow with
    state := .running
    workloadProcessId := 42
    attempt := 1
    committedSequence := 2 }

def patientExecution : ActiveExecution :=
  { runningExecution with
    state := .running
    workloadProcessId := 42
    attempt := 1
    policyHash := patientPolicy.policyHash }

def patientManager : Manager :=
  { attachedManager with
    state :=
      { attachedManager.state with
        workloads := AList.singleton "tool"
          { toolRecord with definition := some patientDefinition }
        active := AList.singleton "tool" patientExecution
        revision := 7
        receivers := [⟨"a1", "e1", [], [.updatePolicy patientPolicy]⟩] } }

/-- The new policy has been acknowledged. -/
def patientFleet : Fleet where
  world :=
    { attachedWorld with
      controller := some patientManager
      database :=
        { configGeneration :=
            some (Sha256.digest (Protobuf.configuration patientDefinition))
          workloads := AList.singleton "tool"
            { toolRow with definition := some patientDefinition }
          executions := AList.singleton "e1" patientRow } }
  enforcers := [patientEnforcer "a1"]
  applied := [⟨"e1", 2, hex patientPolicy.policyHash⟩]

namespace Fleet

theorem patientFleet_admitted :
    executeAdmitted (Fleet.step installation) (Admits installation)
      Fleet.initial (listeningEvents ++ acknowledgedEvents) =
        some patientFleet := by
  decide +kernel

theorem patientFleet_atRest :
    patientFleet.AtRest 0 (patientEnforcer "a1") patientDefinition
      patientManager "tool" patientExecution where
  serving := rfl
  entry := by decide +kernel
  synced := rfl
  available := by decide +kernel
  running := ⟨7, rfl⟩
  found := rfl
  attached := rfl
  linked := rfl
  arrived := by decide +kernel
  seen := rfl
  seenByWriter := by decide +kernel
  committed := by decide +kernel
  recorded := by decide +kernel

end Fleet

/-! ## A policy that is reverted while no controller runs -/

/-- The controller is started again with the old definition, and the supervisor
attaches to it. -/
def revertedEvents : List FleetEvent :=
  unheard (reopenedEvents ++
      [.advance 0 calm, .attach (sampleHello "e1" 7) calm]) ++
    [.world (.advance 1 { calm with uuid := "a2" }) (some 0)]

def revertedExecution : ActiveExecution :=
  { openedExecution installation "e1" patientRow with
    state := .running
    attachmentId := some "a2" }

def revertedManager : Manager where
  session := sampleSession
  state :=
    { readoptedManager.state with
      active := AList.singleton "tool" revertedExecution
      revision := 2 }
  tasks := [.monitorPoll "e1" patientRow 3_000 true, .stream "a2" "e1"]

/-- The controller counts the old policy as acknowledged, and the supervisor
enforces the new one. -/
def revertedFleet : Fleet :=
  { patientFleet with
    world :=
      { patientFleet.world with
        controller := some revertedManager
        database :=
          { servingWorld.database with
            executions := AList.singleton "e1" patientRow } }
    enforcers := [patientEnforcer "a2"] }

namespace Fleet

theorem revertedFleet_atRest :
    revertedFleet.AtRest 0 (patientEnforcer "a2") toolDefinition
      revertedManager "tool" revertedExecution where
  serving := rfl
  entry := by decide +kernel
  synced := rfl
  available := by decide +kernel
  running := ⟨7, rfl⟩
  found := rfl
  attached := rfl
  linked := rfl
  arrived := by decide +kernel
  seen := rfl
  seenByWriter := by decide +kernel
  committed := by decide +kernel
  recorded := by decide +kernel

end Fleet

end Susm.Controller
