import Susm.Controller.Owners

/-!
# Supervisor processes

No two tasks of a controller own one execution, so that at most one of its
supervisor processes is alive.  The recovery monitor is the exception: it takes
over an execution of which it only knows that no supervisor has come back.
-/

namespace Susm.Controller

open Susm.Foundation
open Susm.Protocol

namespace World

variable {host : Host} {world next : World} {event : Event}

/-! ## The invariant -/

/-- The execution that a recovery monitor takes over in a step. -/
def takesOver (world : World) (event : Event) : Option String :=
  world.controller.bind fun manager =>
    (world.advancedTask event).bind
      (ManagerTask.takesOver world.now manager.state)

/-- The supervisor of an execution that is taken over has ended. -/
def TakesOverDead (world : World) (event : Event) : Prop :=
  ∀ executionId ∈ world.takesOver event, ∀ process ∈ world.processes,
    process.executionId = executionId → process.alive = false

instance : Decidable (TakesOverDead world event) :=
  inferInstanceAs (Decidable (∀ executionId ∈ world.takesOver event, _))

structure Owners (database : Database) (tasks : List ManagerTask) :
    Prop where
  returns : ∀ task ∈ tasks, task.Returns
  opens : ∀ task ∈ tasks, task.opens = true → tasks = [task]
  distinct : Distinct ManagerTask.owner tasks
  known : ∀ task ∈ tasks, ∀ executionId, task.owner = some executionId →
    Known database executionId

def Children (processes : List SupervisorProcess) (tasks : List ManagerTask) :
    Prop :=
  ∀ task ∈ tasks, ∀ executionId child,
    task.child = some (executionId, child) →
    Alone processes executionId child

def OneAlive (processes : List SupervisorProcess) : Prop :=
  ∀ (first second : Nat) (one two : SupervisorProcess),
    processes[first]? = some one → processes[second]? = some two →
    one.executionId = two.executionId → one.alive = true → two.alive = true →
    first = second

structure Supervised (world : World) : Prop where
  known : ∀ process ∈ world.processes,
    Known world.database process.executionId
  single : OneAlive world.processes
  children : ∀ manager, world.controller = some manager →
    Children world.processes manager.tasks

theorem Owners.serving {database : Database} {manager : Manager}
    (held : Owners database manager.tasks)
    (serving : manager.isServing = true) :
    ∀ task ∈ manager.tasks, task.opens = false := by
  intro task htask
  by_contra hopens
  have hstartup := ManagerTask.opens_isStartup (held.returns task htask)
    (by simpa using hopens)
  have hserving := List.all_eq_true.mp serving task htask
  simp [hstartup] at hserving

theorem Recorded.distinct {database : Database} {manager : Manager}
    (recorded : Recorded database manager) {first second executionId : String}
    (one : manager.state.activeId first = some executionId)
    (two : manager.state.activeId second = some executionId) :
    first = second :=
  (recorded.entries _ _ one).unique (recorded.entries _ _ two)

theorem eraseIdx_of_single {tasks : List ManagerTask} {index : Nat}
    {task only : ManagerTask} (found : tasks[index]? = some task)
    (single : tasks = [only]) : tasks.eraseIdx index = [] := by
  subst single
  rw [List.getElem?_singleton] at found
  split at found
  · rename_i hindex
    rw [hindex]
    rfl
  · cases found

section Advance

variable {manager : Manager} {index : Nat} {answer : Answer}
  {task : ManagerTask} {outcome : Outcome}

theorem Owners.owned_new (held : Owners world.database manager.tasks)
    (found : manager.tasks[index]? = some task)
    (made : Section host manager.session world.now answer
      (world.situation manager) task outcome) {new : ManagerTask}
    (hnew : new ∈ outcome.tasks) {executionId : String}
    (howned : new.owner = some executionId) :
    task.owner = some executionId ∨
      ∀ old ∈ manager.tasks.eraseIdx index, old.owner ≠ some executionId := by
  cases made.owned hnew howned with
  | kept owner => exact .inl owner
  | started fresh occupies =>
      refine .inr fun old hold hsame => ?_
      obtain ⟨workloadId, row, hrow, -⟩ := held.known old
        (List.mem_of_mem_eraseIdx hold) executionId hsame
      have unused := occupies.unused
      rw [← fresh] at unused
      cases unused.symm.trans hrow
  | detached active =>
      refine .inr fun old hold hsame => ?_
      have single := held.opens _ (List.mem_of_getElem? found)
        (ManagerTask.opens_iff.mpr (.inl rfl))
      rw [eraseIdx_of_single found single] at hold
      cases hold

theorem Owners.alone_kept (held : Owners world.database manager.tasks)
    (children : Children world.processes manager.tasks)
    (found : manager.tasks[index]? = some task)
    (made : Section host manager.session world.now answer
      (world.situation manager) task outcome) {old : ManagerTask}
    (hold : old ∈ manager.tasks.eraseIdx index) {executionId : String}
    {child : Option Nat} (h : old.child = some (executionId, child)) :
    Alone outcome.processes executionId child := by
  have alone := children old (List.mem_of_mem_eraseIdx hold) executionId
    child h
  cases made.processes with
  | kept same =>
      rw [same]
      exact alone
  | spawned spawned =>
      rw [spawned]
      refine alone.append_other ?_
      intro hsame
      exact held.distinct.eraseIdx found hold rfl
        ((ManagerTask.child_owner h).trans (congrArg some hsame.symm))
  | ended ended =>
      rw [ended]
      exact alone.endProcess _

theorem Owners.advance (owners : Owners world.database manager.tasks)
    (recorded : Recorded world.database manager)
    (found : manager.tasks[index]? = some task)
    (made : Section host manager.session world.now answer
      (world.situation manager) task outcome)
    (stays : ∀ executionId, Known world.database executionId →
      Known outcome.database executionId) :
    Owners outcome.database (manager.tasks.eraseIdx index ++ outcome.tasks) := by
  have hmem := List.mem_of_getElem? found
  constructor
  · intro other hother
    rcases List.mem_append.mp hother with hold | hnew
    · exact owners.returns other (List.mem_of_mem_eraseIdx hold)
    · exact made.returns (owners.returns task hmem) hnew
  · intro other hother hopens
    rcases List.mem_append.mp hother with hold | hnew
    · have single := owners.opens other (List.mem_of_mem_eraseIdx hold) hopens
      rw [eraseIdx_of_single found single] at hold
      cases hold
    · have calls := made.opens hnew hopens
      have single := owners.opens task hmem
        (ManagerTask.opens_iff.mpr (.inr calls))
      obtain ⟨only, honly, -⟩ :=
        made.opens_single (owners.returns task hmem) calls
      rw [honly] at hnew
      rw [eraseIdx_of_single found single, honly, List.mem_singleton.mp hnew]
      rfl
  · refine owners.distinct.replace found (made.tasks_shape.distinct ?_) ?_
    · exact fun _ _ _ one two => recorded.distinct one two
    · intro new hnew executionId howned
      exact owners.owned_new found made hnew howned
  · intro other hother executionId howner
    rcases List.mem_append.mp hother with hold | hnew
    · exact stays executionId (owners.known other
        (List.mem_of_mem_eraseIdx hold) executionId howner)
    · cases made.owned hnew howner with
      | kept owner => exact stays executionId (owners.known _ hmem _ owner)
      | started fresh occupies =>
          obtain ⟨row, hrow, hworkload⟩ := occupies.inserted
          rw [← fresh] at hrow
          exact ⟨_, row, hrow, hworkload⟩
      | detached active =>
          exact stays executionId ⟨_, recorded.entries _ _ active⟩

theorem Children.advance (children : Children world.processes manager.tasks)
    (owners : Owners world.database manager.tasks)
    (known : ∀ process ∈ world.processes,
      Known world.database process.executionId)
    (found : manager.tasks[index]? = some task)
    (made : Section host manager.session world.now answer
      (world.situation manager) task outcome)
    (vacant : ∀ executionId,
      task.takesOver world.now manager.state = some executionId →
      Alone world.processes executionId none) :
    Children outcome.processes
      (manager.tasks.eraseIdx index ++ outcome.tasks) := by
  intro other hother executionId child hchild
  rcases List.mem_append.mp hother with hold | hnew
  · exact owners.alone_kept children found made hold hchild
  · exact made.child_alone known
      (children task (List.mem_of_getElem? found)) vacant hnew hchild

end Advance

/-- Tasks that own nothing, or something new, are added while `main` serves. -/
theorem Owners.append {database after : Database}
    {tasks new : List ManagerTask} (held : Owners database tasks)
    (serving : ∀ task ∈ tasks, task.opens = false)
    (stays : ∀ executionId, Known database executionId →
      Known after executionId)
    (returns : ∀ task ∈ new, task.Returns)
    (opens : ∀ task ∈ new, task.opens = false)
    (distinct : Distinct ManagerTask.owner new)
    (fresh : ∀ task ∈ new, ∀ executionId, task.owner = some executionId →
      database.executions.lookup executionId = none ∧
        Known after executionId) :
    Owners after (tasks ++ new) := by
  constructor
  · intro task htask
    rcases List.mem_append.mp htask with hold | hnew
    · exact held.returns task hold
    · exact returns task hnew
  · intro task htask hopens
    rcases List.mem_append.mp htask with hold | hnew
    · cases (serving task hold).symm.trans hopens
    · cases (opens task hnew).symm.trans hopens
  · refine held.distinct.append distinct ?_
    intro task hnew executionId howned old hold hsame
    obtain ⟨workloadId, row, hrow, -⟩ := held.known old hold executionId hsame
    cases (fresh task hnew executionId howned).1.symm.trans hrow
  · intro task htask executionId howner
    rcases List.mem_append.mp htask with hold | hnew
    · exact stays executionId (held.known task hold executionId howner)
    · exact (fresh task hnew executionId howner).2

theorem Children.append {database : Database}
    {processes : List SupervisorProcess} {tasks new : List ManagerTask}
    (held : Children processes tasks)
    (known : ∀ process ∈ processes, Known database process.executionId)
    (fresh : ∀ task ∈ new, ∀ executionId, task.owner = some executionId →
      database.executions.lookup executionId = none) :
    Children processes (tasks ++ new) := by
  intro task htask executionId child hchild
  rcases List.mem_append.mp htask with hold | hnew
  · exact held task hold executionId child hchild
  · exact alone_unused known
      (fresh task hnew executionId (ManagerTask.child_owner hchild))

section Commands

variable {session : String} {answer : Answer} {situation : Situation}
  {command : Command} {task : ManagerTask}

theorem CommandLeaves.owner {outcome : Outcome}
    (leaves : CommandLeaves answer situation outcome command task) :
    task.Returns ∧ task.opens = false ∧
      ∀ executionId, task.owner = some executionId →
        situation.database.executions.lookup executionId = none ∧
          Known outcome.database executionId := by
  cases leaves with
  | started starts occupies =>
      refine ⟨trivial, rfl, ?_⟩
      intro executionId howner
      cases howner
      exact ⟨occupies.unused, _, occupies.inserted⟩
  | reload | rerunJob | setEnabled =>
      exact ⟨trivial, rfl, fun _ howner => by cases howner⟩

end Commands

theorem attachTasks_owner {database : Database} {hello : Hello} {stored : Bool}
    {task : ManagerTask} (htask : task ∈ attachTasks database hello stored) :
    task.Returns ∧ task.opens = false ∧ task.owner = none := by
  obtain ⟨row, -, rfl⟩ := mem_attachTasks htask
  exact ⟨trivial, rfl, rfl⟩

def spawned (world next : World) : List SupervisorProcess :=
  next.processes.drop world.processes.length

/-- What a step does to the processes. -/
inductive ProcessesMoved (world next : World) : Prop where
  | kept (same : next.processes = world.processes)
  | started {process : SupervisorProcess}
      (started : next.processes = world.processes ++ [process])
      (known : Known world.database process.executionId)
      (dead : Alone world.processes process.executionId none)
  | ended {process : Nat}
      (ended : next.processes = endProcess world.processes process)

theorem Owners.step (reachable : Reachable host world)
    (held : ∀ manager, world.controller = some manager →
      Owners world.database manager.tasks)
    (moved : Moved host world event next) :
    ∀ manager, next.controller = some manager →
      Owners next.database manager.tasks := by
  have stays : ∀ executionId, Known world.database executionId →
      Known next.database executionId := by
    rintro executionId ⟨workloadId, hrow⟩
    exact ⟨workloadId, moved.hasRow reachable.hasOutcome hrow⟩
  intro after runs
  cases moved with
  | elapsed | processExited => exact held after runs
  | controllerExited => cases runs
  | startup closed =>
      obtain ⟨state, -, rfl⟩ := Option.map_eq_some_iff.mp runs
      constructor
      · intro task htask
        cases List.mem_singleton.mp htask
        trivial
      · intro task htask _
        rw [List.mem_singleton.mp htask]
      · exact .singleton _
      · intro task htask executionId howner
        cases List.mem_singleton.mp htask
        cases howner
  | command running serving =>
      have owners := held _ running
      cases runs
      refine owners.append (owners.serving serving) stays ?_ ?_
        ((Command.tasks_shape _ _ _ _ _).distinct
          fun _ _ _ one two => (reachable.recorded _ running).distinct one two)
        ?_
      · intro task htask
        exact (CommandLeaves.owner (Command.leaves htask)).1
      · intro task htask
        exact (CommandLeaves.owner (Command.leaves htask)).2.1
      · intro task htask
        exact (CommandLeaves.owner (Command.leaves htask)).2.2
  | attach running serving =>
      have owners := held _ running
      cases runs
      refine owners.append (owners.serving serving) stays ?_ ?_
        ((attachTasks_shape _ _ _ _).distinct
          fun _ _ _ one two => (reachable.recorded _ running).distinct one two)
        ?_
      · intro task htask
        exact (attachTasks_owner htask).1
      · intro task htask
        exact (attachTasks_owner htask).2.1
      · intro task htask executionId howner
        cases (attachTasks_owner htask).2.2.symm.trans howner
  | advance running found made =>
      cases runs
      exact (held _ running).advance (reachable.recorded _ running) found made
        stays

theorem Reachable.owners (reachable : Reachable host world) {manager : Manager}
    (running : world.controller = some manager) :
    Owners world.database manager.tasks := by
  refine (Reachable.invariant (fun world event next hreachable held _ moved =>
    Owners.step hreachable held (step_moved moved)) Runs.refl reachable ?_)
    manager running
  intro manager running
  cases running

theorem Supervised.processes (reachable : Reachable host world)
    (held : Supervised world) (moved : Moved host world event next) :
    ProcessesMoved world next := by
  cases moved with
  | elapsed | controllerExited | startup | attach => exact .kept rfl
  | processExited => exact .ended rfl
  | command running serving => exact .kept (Command.processes _)
  | advance running found made =>
      have hmem := List.mem_of_getElem? found
      cases made.processes with
      | kept same => exact .kept same
      | spawned spawned =>
          exact .started spawned
            ((reachable.owners running).known _ hmem _ rfl)
            (held.children _ running _ hmem _ _ rfl)
      | ended ended => exact .ended ended

theorem OneAlive.append {processes : List SupervisorProcess}
    {process : SupervisorProcess} (single : OneAlive processes)
    (dead : Alone processes process.executionId none) :
    OneAlive (processes ++ [process]) := by
  intro first second one two hone htwo hsame halive halive'
  rw [List.getElem?_append] at hone htwo
  split at hone <;> split at htwo
  · exact single first second one two hone htwo hsame halive halive'
  · rw [List.getElem?_singleton] at htwo
    split at htwo <;> cases htwo
    cases dead first one hone hsame halive
  · rw [List.getElem?_singleton] at hone
    split at hone <;> cases hone
    cases dead second two htwo hsame.symm halive'
  · rw [List.getElem?_singleton] at hone htwo
    split at hone <;> cases hone
    split at htwo <;> cases htwo
    omega

theorem OneAlive.endProcess {processes : List SupervisorProcess}
    (single : OneAlive processes) (process : Nat) :
    OneAlive (endProcess processes process) := by
  intro first second one two hone htwo hsame halive halive'
  obtain ⟨before, hbefore, hid, hkept⟩ := endProcess_getElem? hone
  obtain ⟨before', hbefore', hid', hkept'⟩ := endProcess_getElem? htwo
  exact single first second before before' hbefore hbefore'
    (hid.symm.trans (hsame.trans hid')) (hkept halive).1 (hkept' halive').1

theorem endProcess_mem {processes : List SupervisorProcess} {ended : Nat}
    {process : SupervisorProcess}
    (hprocess : process ∈ endProcess processes ended) :
    ∃ before ∈ processes, process.executionId = before.executionId := by
  obtain ⟨index, found⟩ := List.getElem?_of_mem hprocess
  obtain ⟨before, hbefore, hid, -⟩ := endProcess_getElem? found
  exact ⟨before, List.mem_of_getElem? hbefore, hid⟩

theorem Supervised.step (reachable : Reachable host world)
    (held : Supervised world) (admits : TakesOverDead world event)
    (step : World.step host world event = some next) : Supervised next := by
  have moved := step_moved step
  have stays : ∀ executionId, Known world.database executionId →
      Known next.database executionId := by
    rintro executionId ⟨workloadId, hrow⟩
    exact ⟨workloadId, moved.hasRow reachable.hasOutcome hrow⟩
  constructor
  · intro process hprocess
    cases held.processes reachable moved with
    | kept same => exact stays _ (held.known _ (same ▸ hprocess))
    | started started known dead =>
        rw [started] at hprocess
        rcases List.mem_append.mp hprocess with hprocess | hprocess
        · exact stays _ (held.known _ hprocess)
        · cases List.mem_singleton.mp hprocess
          exact stays _ known
    | ended ended =>
        rw [ended] at hprocess
        obtain ⟨before, hbefore, hid⟩ := endProcess_mem hprocess
        rw [hid]
        exact stays _ (held.known _ hbefore)
  · cases held.processes reachable moved with
    | kept same =>
        rw [same]
        exact held.single
    | started started known dead =>
        rw [started]
        exact held.single.append dead
    | ended ended =>
        rw [ended]
        exact held.single.endProcess _
  · intro after runs
    cases moved with
    | elapsed => exact held.children after runs
    | processExited =>
        intro task htask executionId child hchild
        exact (held.children after runs task htask executionId
          child hchild).endProcess _
    | controllerExited => cases runs
    | startup closed =>
        obtain ⟨state, -, rfl⟩ := Option.map_eq_some_iff.mp runs
        intro task htask executionId child hchild
        cases List.mem_singleton.mp htask
        cases hchild
    | command running serving =>
        have children := held.children _ running
        cases runs
        simp only [settle, Command.processes]
        refine children.append held.known ?_
        intro task htask executionId howner
        exact ((CommandLeaves.owner (Command.leaves htask)).2.2 _ howner).1
    | attach running serving =>
        have children := held.children _ running
        cases runs
        refine children.append held.known ?_
        intro task htask executionId howner
        cases (attachTasks_owner htask).2.2.symm.trans howner
    | advance running found made =>
        cases runs
        refine (held.children _ running).advance (reachable.owners running)
          held.known found made ?_
        intro executionId htakes index process hprocess hid halive
        have dead := admits executionId
          (by simp [takesOver, advancedTask_eq running found, running, htakes])
          process (List.mem_of_getElem? hprocess) hid
        cases dead.symm.trans halive

theorem supervised_initial : Supervised initial := by
  constructor
  · intro process hprocess
    cases hprocess
  · intro first second one two hone
    simp [initial] at hone
  · intro manager running
    cases running

/--
In runs in which a recovery monitor takes over an execution only when its
supervisor has ended, a supervisor process is started for an execution only when
every process that was started for it has ended.
-/
theorem supervisor_started_alone
    (run : Runs (World.step host) TakesOverDead initial world) :
    OneAlive world.processes ∧
      ∀ event next, step host world event = some next →
        ∀ process ∈ world.spawned next, ∀ earlier ∈ world.processes,
          earlier.executionId = process.executionId →
          earlier.alive = false := by
  have held : Supervised world := by
    refine Reachable.invariant ?_ Runs.refl run supervised_initial
    intro world event next reachable held admits moved
    exact held.step reachable admits moved
  have reachable : Reachable host world := run.mono fun _ _ _ => trivial
  refine ⟨held.single, ?_⟩
  intro event next moved process hprocess earlier hearlier hsame
  unfold spawned at hprocess
  cases held.processes reachable (step_moved moved) with
  | kept same =>
      rw [same, List.drop_length] at hprocess
      cases hprocess
  | started started known dead =>
      rw [started, List.drop_left] at hprocess
      cases List.mem_singleton.mp hprocess
      obtain ⟨index, found⟩ := List.getElem?_of_mem hearlier
      by_contra halive
      cases dead index earlier found hsame (by simpa using halive)
  | ended ended =>
      rw [ended, endProcess, List.drop_of_length_le (by simp)] at hprocess
      cases hprocess

/-! ## A supervisor that does not come back in time -/

/-- The controller is replaced, and its recovery monitor waits three seconds for
the supervisor of `e1`. -/
def takeoverEvents : List Event :=
  [.controllerExited, .startup sampleSession [], .advance 0 calm,
      .advance 0 calm, .advance 1 calm, .elapse 3_000] ++
    List.replicate 3 (.advance 1 calm)

theorem supervisor_started_twice :
    ¬ ∀ (host : Host) (world next : World) (event : Event),
      Reachable host world → step host world event = some next →
      ∀ process ∈ world.spawned next, ∀ earlier ∈ world.processes,
        earlier.executionId = process.executionId →
        earlier.alive = false := by
  intro h
  have hreachable : Reachable installation
      (worldAfter attachedWorld takeoverEvents) :=
    attachedWorld_reachable.trans (runs_worldAfter (by decide +kernel))
  have hstarts : ∃ next, step installation
      (worldAfter attachedWorld takeoverEvents)
        (.advance 1 { calm with spawned := some 9 }) = some next ∧
      ⟨"e1", 9, true⟩ ∈
        (worldAfter attachedWorld takeoverEvents).spawned next ∧
      ⟨"e1", 7, true⟩ ∈
        (worldAfter attachedWorld takeoverEvents).processes := by
    have hnext : ((step installation (worldAfter attachedWorld takeoverEvents)
        (.advance 1 { calm with spawned := some 9 })).any fun next =>
          ⟨"e1", 9, true⟩ ∈
            (worldAfter attachedWorld takeoverEvents).spawned next) ∧
        ⟨"e1", 7, true⟩ ∈
          (worldAfter attachedWorld takeoverEvents).processes := by
      decide +kernel
    obtain ⟨next, hmoved, hspawned⟩ := (Option.any_eq_true _ _).mp hnext.1
    exact ⟨next, hmoved, by simpa using hspawned, hnext.2⟩
  obtain ⟨next, hmoved, hspawned, hearlier⟩ := hstarts
  cases h installation _ next _ hreachable hmoved _ hspawned _ hearlier rfl

/-- The supervisor of `e1` ends before it is taken over. -/
theorem supervisor_started_alone_replaced :
    OneAlive (worldAfter servingWorld
        (startEvents "e1" 7 ++ [.processExited 0] ++
          takeoverEvents)).processes ∧
      ∀ event next,
        step installation (worldAfter servingWorld
          (startEvents "e1" 7 ++ [.processExited 0] ++ takeoverEvents)) event =
            some next →
        ∀ process ∈ (worldAfter servingWorld (startEvents "e1" 7 ++
          [.processExited 0] ++ takeoverEvents)).spawned next,
        ∀ earlier ∈ (worldAfter servingWorld (startEvents "e1" 7 ++
          [.processExited 0] ++ takeoverEvents)).processes,
          earlier.executionId = process.executionId →
          earlier.alive = false :=
  supervisor_started_alone ((runs_servingWorld (by decide +kernel)).trans
    (runs_worldAfter (by decide +kernel)))

end World

end Susm.Controller
