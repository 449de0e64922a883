import Susm.Controller.Executions
import Susm.Controller.Frames
import Susm.Controller.Opening
import Susm.Controller.Successors
import Susm.Controller.WorkloadRows

/-!
# Definitions on their way

A definition and the kind of its workload are in three places: in the tables,
in memory, and in the sections of a reload that is under way.  What one turn
does in each place comes from the others or from a configuration directory that
has passed the check of the reload.
-/

namespace Susm.Controller

open Susm.Foundation
open Susm.Protocol

abbrev Accepting := WorkloadKind × Option ExecutionConfiguration

def StoredWorkload.accepting (row : StoredWorkload) : Accepting :=
  (row.kind, row.definition)

/-- The tables say so of the workload. -/
def Database.accepting (database : Database) (id : String) :
    Option Accepting :=
  (database.workloads.lookup id).map StoredWorkload.accepting

/-- The memory of the controller says so of the workload. -/
def State.accepting (state : State) (id : String) : Option Accepting :=
  (state.workloads.lookup id).map fun record =>
    (record.kind, record.definition)

def ManagerTask.definitions : ManagerTask → List (String × StoredWorkload)
  | .replaceDefinitions _ definitions _ => definitions
  | .applyReload persisted _ => persisted
  | _ => []

/-! ## Tables -/

namespace Database

variable {database : Database} {id : String} {accepting : Accepting}

theorem accepting_eq (database : Database) (id : String) :
    database.accepting id =
      (database.standing id).map StoredWorkload.accepting := by
  rw [standing, Option.map_map]
  rfl

theorem accepting_upserted
    {definitions : List (String × StoredWorkload)}
    {workloads : Map String StoredWorkload}
    (h : ((definitions.foldl upsertDefinition workloads).lookup id).map
      StoredWorkload.accepting = some accepting) :
    (workloads.lookup id).map StoredWorkload.accepting = some accepting ∨
      ∃ item ∈ definitions, item.1 = id ∧ item.2.accepting = accepting := by
  induction definitions generalizing workloads with
  | nil => exact .inl h
  | cons item definitions ih =>
      rcases ih h with hbefore | ⟨last, hlast, hitem⟩
      · rw [lookup_upsertDefinition] at hbefore
        split at hbefore
        · rename_i hid
          refine .inr ⟨item, List.mem_cons_self, hid.symm, ?_⟩
          cases hrow : workloads.lookup id <;> simp [hrow] at hbefore <;>
            exact hbefore
        · exact .inl hbefore
      · exact .inr ⟨last, List.mem_cons_of_mem _ hlast, hitem⟩

theorem isSome_upserted {definitions : List (String × StoredWorkload)}
    {workloads : Map String StoredWorkload}
    (h : (workloads.lookup id).isSome) :
    ((definitions.foldl upsertDefinition workloads).lookup id).isSome := by
  induction definitions generalizing workloads with
  | nil => exact h
  | cons item definitions ih =>
      refine ih ?_
      rw [lookup_upsertDefinition]
      split
      · rfl
      · exact h

def committed (database : Database) (generation : List UInt8)
    (definitions : List (String × StoredWorkload)) :
    List (String × StoredWorkload) :=
  if database.configGeneration = some generation then [] else definitions

theorem accepting_replaceDefinitions {generation : List UInt8}
    {definitions : List (String × StoredWorkload)}
    (h : (database.replaceDefinitions generation definitions).2.accepting id =
      some accepting) :
    (∃ before, database.accepting id = some before ∧
        before.1 = accepting.1 ∧
        (accepting.2 = before.2 ∨ accepting.2 = none)) ∨
      ∃ item ∈ database.committed generation definitions, item.1 = id ∧
        item.2.accepting = accepting := by
  unfold replaceDefinitions committed at *
  split at h
  · exact .inl ⟨accepting, h, rfl, .inl rfl⟩
  · rename_i hchanged
    rcases accepting_upserted h with hcleared | hitem
    · left
      rw [Map.lookup_mapValues, Option.map_map] at hcleared
      obtain ⟨row, hrow, rfl⟩ := Option.map_eq_some_iff.mp hcleared
      exact ⟨row.accepting, by simp [Database.accepting, hrow], rfl, .inr rfl⟩
    · rw [if_neg hchanged]
      exact .inr hitem

theorem isSome_replaceDefinitions {generation : List UInt8}
    {definitions : List (String × StoredWorkload)}
    (h : (database.accepting id).isSome) :
    ((database.replaceDefinitions generation definitions).2.accepting
      id).isSome := by
  unfold replaceDefinitions Database.accepting at *
  split
  · exact h
  · rw [Option.isSome_map] at h ⊢
    refine isSome_upserted ?_
    rwa [Map.lookup_mapValues, Option.isSome_map]

end Database

/-! ## Memory -/

theorem State.accepting_eq (state : State) (id : String) :
    state.accepting id =
      (state.configured id).map fun accepted => (accepted.1, accepted.2.1) := by
  simp [State.accepting, State.configured, Function.comp_def]

theorem openExecutions_configured {host : Host} {session : String}
    {rows : List (String × StoredExecution)} {answers : List Answer}
    {database : Database} {opening result : Opening} {id : String}
    (h : (openExecutions host session rows answers database opening).2 =
      some result) :
    (result.workloads.lookup id).map (fun record =>
        (record.kind, record.definition, record.enabled)) =
      (opening.workloads.lookup id).map fun record =>
        (record.kind, record.definition, record.enabled) := by
  induction rows generalizing answers database opening with
  | nil =>
      cases h
      rfl
  | cons entry rows ih =>
      unfold openExecutions at h
      split at h
      · rw [ih h]
      split at h
      · cases h
      split at h
      · rw [ih h]
        simp only [Map.lookup_modify]
        split
        · cases opening.workloads.lookup id <;> rfl
        · rfl
      · cases h

theorem openManager_configured {host : Host} {session : String}
    {answers : List Answer} {database : Database} {state : State}
    (opened : (openManager host session answers database).2 = some state)
    (id : String) :
    state.configured id =
      (database.workloads.lookup id).map StoredWorkload.configured := by
  obtain ⟨opening, hopening, rfl⟩ := Option.map_eq_some_iff.mp opened
  refine (openExecutions_configured hopening).trans ?_
  rw [Map.lookup_mapValues, Option.map_map]
  rfl

theorem openManager_accepting {host : Host} {session : String}
    {answers : List Answer} {database : Database} {state : State}
    (opened : (openManager host session answers database).2 = some state)
    (id : String) : state.accepting id = database.accepting id := by
  rw [State.accepting_eq, openManager_configured opened, Option.map_map]
  rfl

/-! ## Reloads under way -/

theorem reloadTasks_checked {candidate : Option Candidate} {state : State}
    {caller : Caller} {task : ManagerTask}
    (htask : task ∈ (reloadTasks candidate state caller).2) :
    task.definitions = [] ∨ ∃ candidate : Candidate,
      task.definitions = candidate.stored ∧
        state.kindChangeActive candidate.stored = none := by
  unfold reloadTasks at htask
  have called : task ∈ caller.tasks → task.definitions = [] := by
    intro h
    cases caller <;> simp [Caller.tasks] at h <;> subst h <;> rfl
  split at htask
  · exact .inl (called htask)
  · split at htask
    · exact .inl (called htask)
    · rename_i candidate _ hnone
      cases List.mem_singleton.mp htask
      exact .inr ⟨candidate, rfl, hnone⟩

theorem kindChangeActive_none {state : State}
    {definitions : List (String × StoredWorkload)} {id executionId : String}
    {accepting : Accepting} (checked : state.kindChangeActive definitions = none)
    (active : state.activeId id = some executionId)
    (memory : state.accepting id = some accepting)
    {item : String × StoredWorkload} (hitem : item ∈ definitions)
    (about : item.1 = id) : item.2.kind = accepting.1 := by
  subst about
  obtain ⟨entry, hentry, -⟩ := State.activeId_eq_some.mp active
  obtain ⟨record, hrecord, rfl⟩ := Option.map_eq_some_iff.mp memory
  have hnone := List.find?_eq_none.mp (Option.map_eq_none_iff.mp checked) item
    hitem
  have hsame : record.kind = item.2.kind := by
    simpa [hentry, hrecord] using hnone
  exact hsame.symm

/-- The definitions of a task come from a reload's check, from the tables, or
were there before. -/
theorem Section.definitions {host : Host} {session : String} {now : Nat}
    {answer : Answer} {situation : Situation} {outcome : Outcome}
    {task other : ManagerTask}
    (made : Section host session now answer situation task outcome)
    (hother : other ∈ outcome.tasks) :
    other.definitions = [] ∨
      other.definitions = situation.database.loadWorkloads ∨
      task.starts = none ∧ ∃ candidate : Candidate,
        other.definitions = candidate.stored ∧
          situation.state.kindChangeActive candidate.stored = none := by
  cases htask : task with
  | initialReload =>
      subst htask
      cases made with
      | givesUp made => cases made
      | runCancelled waiting => rcases waiting with h | h | h <;> cases h
      | initialReload =>
          rcases reloadTasks_checked hother with hnone | hchecked
          · exact .inl hnone
          · exact .inr (.inr ⟨rfl, hchecked⟩)
  | _ =>
      cases made.succeeds hother with
      | initialReload => cases htask
      | @returned _ _ caller calls returns =>
          left
          cases caller <;> simp [Caller.tasks] at returns <;>
            subst returns <;> rfl
      | workloadsLoaded => exact .inr (.inl rfl)
      | runFailed =>
          left
          unfold supervisorFailed
          dsimp only
          split <;> rfl
      | _ => exact .inl rfl

theorem Command.definitions {host : Host} {session : String} {answer : Answer}
    {situation : Situation} {command : Command} {task : ManagerTask}
    (htask : task ∈ (command.perform host session answer situation).tasks) :
    task.definitions = [] ∨ command.starts = none ∧ ∃ candidate : Candidate,
      task.definitions = candidate.stored ∧
        situation.state.kindChangeActive candidate.stored = none := by
  cases command with
  | reload =>
      rcases reloadTasks_checked htask with hnone | hchecked
      · exact .inl hnone
      · exact .inr ⟨rfl, hchecked⟩
  | startService id | runJob id =>
      left
      rcases startSection_mem htask with hnone | ⟨_, _, rfl, -⟩
      · cases hnone
      · rfl
  | setEnabled id enabled =>
      left
      simp only [Command.perform] at htask
      split at htask
      · cases List.mem_singleton.mp htask
        rfl
      · cases htask
  | rerunJob id =>
      cases List.mem_singleton.mp htask
      exact .inl rfl
  | _ => cases htask

/-! ## Turns -/

namespace World

variable {host : Host} {world next : World} {event : Event} {id : String}
  {manager after : Manager} {accepting : Accepting}

def commits (world : World) (event : Event) :
    List (String × StoredWorkload) :=
  match event, world.advancedTask event with
  | .advance _ answer, some (.replaceDefinitions generation definitions _) =>
      if answer.stored then world.database.committed generation definitions
      else []
  | _, _ => []

theorem commits_subset {item : String × StoredWorkload}
    (hitem : item ∈ world.commits event) :
    ∃ manager, world.controller = some manager ∧
      ∃ task ∈ manager.tasks, item ∈ task.definitions := by
  unfold commits at hitem
  split at hitem
  · rename_i generation definitions caller htask
    obtain ⟨manager, running, hfound⟩ := Option.bind_eq_some_iff.mp htask
    refine ⟨manager, running, _, List.mem_of_getElem? hfound, ?_⟩
    split at hitem
    · unfold Database.committed at hitem
      split at hitem
      · cases hitem
      · exact hitem
    · cases hitem
  · cases hitem

theorem step_replaces {generation : List UInt8}
    {definitions : List (String × StoredWorkload)} {caller : Caller}
    (moved : step host world event = some next)
    (found : world.advancedTask event =
      some (.replaceDefinitions generation definitions caller)) :
    (next.database = world.database ∧ world.commits event = []) ∨
      next.database =
          (world.database.replaceDefinitions generation definitions).2 ∧
        world.commits event =
          world.database.committed generation definitions := by
  cases event with
  | advance index answer =>
      obtain ⟨manager, task, outcome, running, htask, advanced, rfl⟩ :=
        step_advance moved
      cases (advancedTask_eq running htask).symm.trans found
      simp only [ManagerTask.advance] at advanced
      unfold commits
      rw [found]
      dsimp only
      split at advanced
      · rename_i hstored
        cases advanced
        exact .inr ⟨rfl, if_pos hstored⟩
      · rename_i hstored
        cases advanced
        exact .inl ⟨rfl, if_neg hstored⟩
  | _ => cases found

theorem step_stored (moved : step host world event = some next)
    (h : next.database.accepting id = some accepting) :
    (∃ before, world.database.accepting id = some before ∧
        before.1 = accepting.1 ∧
        (accepting.2 = before.2 ∨ accepting.2 = none)) ∨
      ∃ item ∈ world.commits event, item.1 = id ∧
        item.2.accepting = accepting := by
  have same : next.database.accepting id = world.database.accepting id →
      ∃ before, world.database.accepting id = some before ∧
        before.1 = accepting.1 ∧
        (accepting.2 = before.2 ∨ accepting.2 = none) :=
    fun hsame => ⟨accepting, hsame.symm.trans h, rfl, .inl rfl⟩
  cases (step_moved moved).standing id with
  | kept hkept =>
      refine .inl (same ?_)
      rw [Database.accepting_eq, hkept, ← Database.accepting_eq]
  | enabled command tables =>
      refine .inl (same ?_)
      rw [Database.accepting_eq, tables, Database.standing_setEnabled,
        Database.accepting_eq, Option.map_map]
      congr 1
      funext row
      simp only [Function.comp_apply]
      split <;> rfl
  | advanced running found changed =>
      cases changed with
      | kept hkept =>
          refine .inl (same ?_)
          rw [Database.accepting_eq, hkept, ← Database.accepting_eq]
      | replaced reloads tables =>
          subst reloads
          rcases step_replaces moved found with
            ⟨hsame, -⟩ | ⟨htables, hcommits⟩
          · exact .inl (same (by rw [hsame]))
          · rw [hcommits]
            rw [htables] at h
            exact Database.accepting_replaceDefinitions h
      | claimed triggers hrow job enabled first claims =>
          refine .inl (same ?_)
          rw [Database.accepting_eq, claims, Database.accepting, hrow]
          rfl

theorem Moved.stored_isSome (moved : Moved host world event next)
    (h : (world.database.accepting id).isSome) :
    (next.database.accepting id).isSome := by
  have hstanding : (world.database.standing id).isSome := by
    simpa [Database.accepting_eq] using h
  cases moved.standing id with
  | kept same => simpa [Database.accepting_eq, same] using hstanding
  | enabled command tables =>
      simpa [Database.accepting_eq, tables,
        Database.standing_setEnabled] using hstanding
  | advanced running found changed =>
      cases changed with
      | kept same => simpa [Database.accepting_eq, same] using hstanding
      | replaced reloads tables =>
          rw [tables]
          exact Database.isSome_replaceDefinitions h
      | claimed triggers hrow job enabled first claims =>
          simp [Database.accepting_eq, claims]

theorem Moved.configured (moved : Moved host world event next)
    (running : world.controller = some manager)
    (runs : next.controller = some after) (id : String) :
    (∃ enabled : Bool → Bool, after.state.configured id =
        (manager.state.configured id).map fun accepted =>
          (accepted.1, accepted.2.1, enabled accepted.2.2)) ∨
      ∃ persisted caller, .applyReload persisted caller ∈ manager.tasks ∧
        after.state.configured id =
          (persisted.foldl State.insertWorkload manager.state).configured
            id := by
  have same : after.state.configured id = manager.state.configured id →
      ∃ enabled : Bool → Bool, after.state.configured id =
        (manager.state.configured id).map fun accepted =>
          (accepted.1, accepted.2.1, enabled accepted.2.2) :=
    fun hsame => ⟨fun enabled => enabled, by simp [hsame]⟩
  cases moved with
  | elapsed | processExited =>
      cases running.symm.trans runs
      exact .inl (same rfl)
  | controllerExited => cases runs
  | startup closed => cases closed.symm.trans running
  | command controller serving =>
      cases running.symm.trans controller
      cases runs
      exact .inl (same (Command.configured _ id))
  | attach controller serving =>
      cases running.symm.trans controller
      cases runs
      exact .inl (same rfl)
  | advance controller found made =>
      cases running.symm.trans controller
      cases runs
      rcases made.configured id with
        hsame | ⟨target, enabled, -, hset⟩ | ⟨persisted, caller, rfl, hreload⟩
      · exact .inl (same hsame)
      · refine .inl ⟨fun before => if id = target then enabled else before, ?_⟩
        refine hset.trans (congrArg (Option.map · _) ?_)
        funext accepted
        split <;> rfl
      · exact .inr ⟨persisted, caller, List.mem_of_getElem? found, hreload⟩

theorem Moved.memory (moved : Moved host world event next)
    (running : world.controller = some manager)
    (runs : next.controller = some after)
    (h : after.state.accepting id = some accepting) :
    manager.state.accepting id = some accepting ∨
      ∃ task ∈ manager.tasks, ∃ item ∈ task.definitions, item.1 = id ∧
        item.2.accepting = accepting := by
  rw [State.accepting_eq] at h
  rw [State.accepting_eq]
  rcases moved.configured running runs id with
    ⟨enabled, hsame⟩ | ⟨persisted, caller, htask, hreload⟩
  · left
    rw [hsame, Option.map_map] at h
    exact h
  · rw [hreload] at h
    obtain ⟨accepted, hinstalled, rfl⟩ := Option.map_eq_some_iff.mp h
    rcases State.configured_installed hinstalled with
      hbefore | ⟨item, hitem, hid, rfl⟩
    · exact .inl (by rw [hbefore]; rfl)
    · exact .inr ⟨_, htask, item, hitem, hid, rfl⟩

theorem Moved.memory_isSome (moved : Moved host world event next)
    (running : world.controller = some manager)
    (runs : next.controller = some after)
    (h : (manager.state.accepting id).isSome) :
    (after.state.accepting id).isSome := by
  rw [State.accepting_eq, Option.isSome_map] at h ⊢
  rcases moved.configured running runs id with
    ⟨enabled, hsame⟩ | ⟨persisted, caller, -, hreload⟩
  · rwa [hsame, Option.isSome_map]
  · rw [hreload]
    exact State.configured_kept h

theorem Moved.definitions (moved : Moved host world event next)
    (runs : next.controller = some after) {task : ManagerTask}
    (htask : task ∈ after.tasks) {item : String × StoredWorkload}
    (hitem : item ∈ task.definitions) :
    ∃ manager, world.controller = some manager ∧
      ((∃ other ∈ manager.tasks, item ∈ other.definitions) ∨
        world.database.workloads.lookup item.1 = some item.2 ∨
        world.starts event = none ∧ ∃ candidate : Candidate,
          item ∈ candidate.stored ∧
            manager.state.kindChangeActive candidate.stored = none) := by
  cases moved with
  | elapsed | processExited =>
      exact ⟨after, runs, .inl ⟨task, htask, hitem⟩⟩
  | controllerExited => cases runs
  | startup closed =>
      obtain ⟨state, -, rfl⟩ := Option.map_eq_some_iff.mp runs
      cases List.mem_singleton.mp htask
      cases hitem
  | command running serving =>
      refine ⟨_, running, ?_⟩
      cases runs
      rcases List.mem_append.mp htask with htask | htask
      · exact .inl ⟨task, htask, hitem⟩
      rcases Command.definitions htask with
        hnone | ⟨hstarts, candidate, hsome, checked⟩
      · rw [hnone] at hitem
        cases hitem
      · refine .inr (.inr ⟨?_, candidate, hsome ▸ hitem, checked⟩)
        simp [World.starts, hstarts]
  | attach running serving =>
      refine ⟨_, running, ?_⟩
      cases runs
      rcases List.mem_append.mp htask with htask | htask
      · exact .inl ⟨task, htask, hitem⟩
      simp only [Situation.leave, attachTasks] at htask
      split at htask
      · split at htask
        · cases List.mem_singleton.mp htask
          cases hitem
        · cases htask
      · cases htask
  | advance running found made =>
      refine ⟨_, running, ?_⟩
      cases runs
      rcases List.mem_append.mp htask with htask | htask
      · exact .inl ⟨task, List.mem_of_mem_eraseIdx htask, hitem⟩
      rcases made.definitions htask with
        hnone | hloaded | ⟨hstarts, candidate, hsome, checked⟩
      · rw [hnone] at hitem
        cases hitem
      · rw [hloaded] at hitem
        exact .inr (.inl (Map.mem_toList.mp hitem))
      · refine .inr (.inr ⟨?_, candidate, hsome ▸ hitem, checked⟩)
        simp [World.starts, advancedTask_eq running found, hstarts]

end World

end Susm.Controller
