import Susm.Controller.Definitions
import Susm.Controller.Installation
import Susm.Foundation.WriteBack

/-!
# Workloads in memory

A reload and an enablement write the tables first and the memory of the
controller in a later section.  In between the section waits with what it is
going to write.  While the sections are taken so that what has been stored last
is also written last, the memory has caught up whenever none of them waits.
-/

namespace Susm.Controller

open Susm.Foundation
open Susm.Protocol

/-! ## What waits -/

/-- The last of the rows with the id. -/
def installed (persisted : List (String × StoredWorkload)) (id : String) :
    Option StoredWorkload :=
  latest (fun item => if item.1 = id then some item.2 else none) persisted

namespace ManagerTask

/-- What the section of a task writes of the kind and the definition. -/
def accepts (id : String) : ManagerTask → Option Accepting
  | .applyReload persisted _ =>
      (installed persisted id).map StoredWorkload.accepting
  | _ => none

def switches (id : String) : ManagerTask → Option Bool
  | .setEnabled target enabled true =>
      if target = id then some enabled else none
  | .applyReload persisted _ =>
      (installed persisted id).map StoredWorkload.enabled
  | _ => none

def writes : ManagerTask → List String
  | .setEnabled id _ true => [id]
  | .applyReload persisted _ => persisted.map Prod.fst
  | _ => []

/-- A reload that has still to read the rows. -/
def loads : ManagerTask → Bool
  | .loadWorkloads _ => true
  | _ => false

/-- The calls of `reload` and `set_enabled` in progress. -/
def updates : ManagerTask → Bool
  | .initialReload | .replaceDefinitions .. | .loadWorkloads _
  | .applyReload .. | .keepReload _ | .setEnabled .. => true
  | _ => false

variable {task : ManagerTask} {id : String}

theorem installed_isSome_iff {persisted : List (String × StoredWorkload)} :
    (installed persisted id).isSome ↔ id ∈ persisted.map Prod.fst := by
  simp [installed, latest_isSome_iff]

theorem installed_eq_none {persisted : List (String × StoredWorkload)}
    (h : id ∉ persisted.map Prod.fst) : installed persisted id = none := by
  rwa [← Option.not_isSome_iff_eq_none, installed_isSome_iff]

theorem accepts_eq_none (h : id ∉ task.writes) : task.accepts id = none := by
  unfold accepts
  split
  · rw [installed_eq_none h, Option.map_none]
  · rfl

theorem switches_eq_none (h : id ∉ task.writes) : task.switches id = none := by
  unfold switches
  split
  · exact if_neg fun same => h (by simp [writes, same])
  · rw [installed_eq_none h, Option.map_none]
  · rfl

theorem switches_setEnabled {target : String} {enable changed : Bool} :
    (setEnabled target enable changed).switches id =
      if changed = true ∧ target = id then some enable else none := by
  cases changed <;> simp [switches]

theorem switches_of_accepts (h : (task.accepts id).isSome) :
    (task.switches id).isSome := by
  unfold accepts at h
  split at h
  · simpa [switches] using h
  · cases h

theorem writes_of_idle (h : task.updates = false) :
    task.writes = [] ∧ task.loads = false := by
  cases task <;> first | exact ⟨rfl, rfl⟩ | cases h

end ManagerTask

def Database.configured (database : Database) (id : String) :
    Option (WorkloadKind × Option ExecutionConfiguration × Bool) :=
  (database.workloads.lookup id).map StoredWorkload.configured

/-- The tables say so of the workload. -/
def Database.enabled (database : Database) (id : String) : Option Bool :=
  (database.configured id).map fun accepted => accepted.2.2

/-- The memory of the controller says so of the workload. -/
def State.enabled (state : State) (id : String) : Option Bool :=
  (state.configured id).map fun accepted => accepted.2.2

/-! ## Tables and memory -/

section Rows

variable {database after : Database} {state : State} {id : String}
  {persisted : List (String × StoredWorkload)}

theorem Database.accepting_configured (database : Database) (id : String) :
    database.accepting id =
      (database.configured id).map fun accepted =>
        (accepted.1, accepted.2.1) := by
  rw [Database.accepting, Database.configured, Option.map_map]
  rfl

theorem Database.configured_eq (database : Database) (id : String) :
    database.configured id =
      (database.standing id).map StoredWorkload.configured := by
  rw [Database.standing, Option.map_map]
  rfl

theorem configured_ext
    {first second :
      Option (WorkloadKind × Option ExecutionConfiguration × Bool)}
    (accepting : first.map (fun accepted => (accepted.1, accepted.2.1)) =
      second.map fun accepted => (accepted.1, accepted.2.1))
    (enabled : first.map (fun accepted => accepted.2.2) =
      second.map fun accepted => accepted.2.2) : first = second := by
  rcases first with - | ⟨kind, definition, enable⟩ <;>
    rcases second with - | ⟨kind', definition', enable'⟩ <;> simp_all

theorem installed_loadWorkloads (database : Database) (id : String) :
    installed database.loadWorkloads id = database.workloads.lookup id := by
  cases h : installed database.loadWorkloads id with
  | some row =>
      obtain ⟨⟨other, found⟩, hitem, hrow⟩ := exists_of_latest h
      simp only [Option.ite_none_right_eq_some, Option.some.injEq] at hrow
      obtain ⟨rfl, rfl⟩ := hrow
      exact (Map.mem_toList.mp hitem).symm
  | none =>
      cases hrow : database.workloads.lookup id with
      | none => rfl
      | some row =>
          have hmem : id ∈ database.loadWorkloads.map Prod.fst :=
            List.mem_map.mpr ⟨(id, row), Map.mem_toList.mpr hrow, rfl⟩
          rw [← ManagerTask.installed_isSome_iff, h] at hmem
          cases hmem

theorem configured_insertWorkloads (state : State)
    (persisted : List (String × StoredWorkload)) (id : String) :
    (persisted.foldl State.insertWorkload state).configured id =
      ((installed persisted id).map StoredWorkload.configured).or
        (state.configured id) := by
  induction persisted generalizing state with
  | nil => rfl
  | cons item persisted ih =>
      rw [List.foldl_cons, ih]
      simp only [installed, latest_cons, State.configured,
        State.insertWorkload, Map.lookup_insert_eq]
      cases latest (fun item => if item.1 = id then some item.2 else none)
        persisted with
      | some row => rfl
      | none =>
          by_cases h : item.1 = id
          · subst h
            simp [StoredWorkload.configured]
          · have hne : ¬ id = item.1 := fun same => h same.symm
            simp [h, hne]

end Rows

/-! ## Catching up -/

/-- A reload has still to read the rows. -/
def LoadPending (tasks : List ManagerTask) : Prop :=
  tasks.any ManagerTask.loads = true

instance (tasks : List ManagerTask) : Decidable (LoadPending tasks) :=
  inferInstanceAs (Decidable (_ = true))

/-- The memory has the configuration of the tables once all tasks have
written. -/
def IsCurrent (database : Database) (state : State) (tasks : List ManagerTask)
    (id : String) : Prop :=
  upcoming (ManagerTask.accepts id) tasks (state.accepting id) =
      database.accepting id ∧
    upcoming (ManagerTask.switches id) tasks (state.enabled id) =
      database.enabled id

/--
Nothing is known of a workload without a row, and the memory is going to catch
up with the tables: a reload has still to read them, or what waits leads there.
-/
structure CatchesUp (database : Database) (state : State)
    (tasks : List ManagerTask) : Prop where
  unknown : ∀ id, database.configured id = none →
    state.configured id = none ∧ ∀ task ∈ tasks, id ∉ task.writes
  current : LoadPending tasks ∨ ∀ id, IsCurrent database state tasks id

namespace CatchesUp

variable {database after : Database} {state next : State}
  {tasks others new : List ManagerTask} {task : ManagerTask} {index : Nat}
  {id : String}

theorem congr (held : CatchesUp database state tasks)
    (tables : ∀ id, after.configured id = database.configured id)
    (memory : ∀ id, next.configured id = state.configured id) :
    CatchesUp after next tasks := by
  constructor
  · intro id hnone
    rw [tables] at hnone
    rw [memory]
    exact held.unknown id hnone
  · refine held.current.imp_right fun hcurrent id => ?_
    have hsame := hcurrent id
    unfold IsCurrent at hsame ⊢
    rw [State.accepting_eq, State.enabled, Database.accepting_configured,
      Database.enabled] at hsame ⊢
    rw [tables, memory]
    exact hsame

theorem loadPending_append (pending : LoadPending tasks) :
    LoadPending (tasks ++ new) := by
  unfold LoadPending at *
  rw [List.any_append, pending, Bool.true_or]

theorem added (held : CatchesUp database state tasks)
    (silent : ∀ task ∈ new, task.writes = []) :
    CatchesUp database state (tasks ++ new) := by
  constructor
  · intro id hnone
    obtain ⟨hmemory, htasks⟩ := held.unknown id hnone
    refine ⟨hmemory, fun task htask => ?_⟩
    rcases List.mem_append.mp htask with htask | htask
    · exact htasks task htask
    · rw [silent task htask]
      exact List.not_mem_nil
  · refine held.current.imp loadPending_append fun hcurrent id => ?_
    · have habsent : ∀ task ∈ new, id ∉ task.writes := fun task htask => by
        rw [silent task htask]
        exact List.not_mem_nil
      obtain ⟨haccepts, hswitches⟩ := hcurrent id
      unfold IsCurrent
      rw [upcoming_added fun task htask =>
          ManagerTask.accepts_eq_none (habsent task htask),
        upcoming_added fun task htask =>
          ManagerTask.switches_eq_none (habsent task htask)]
      exact ⟨haccepts, hswitches⟩

theorem of_loads (unknown : ∀ id, database.configured id = none →
      state.configured id = none ∧ ∀ task ∈ tasks, id ∉ task.writes)
    (htask : task ∈ tasks) (loads : task.loads = true) :
    CatchesUp database state tasks :=
  ⟨unknown, .inl (List.any_eq_true.mpr ⟨task, htask, loads⟩)⟩

theorem loadPending_eraseIdx (pending : LoadPending tasks)
    (found : tasks[index]? = some task) (loaded : task.loads = false) :
    LoadPending (tasks.eraseIdx index) := by
  obtain ⟨other, hother, hloads⟩ := List.any_eq_true.mp pending
  refine List.any_eq_true.mpr ⟨other, ?_, hloads⟩
  refine World.mem_eraseIdx_of_ne found hother ?_
  rintro rfl
  rw [loaded] at hloads
  cases hloads

/-- The section of a task may be taken: of each workload that it writes, what
has been stored last is still written last. -/
def InOrder (tasks : List ManagerTask) (index : Nat) (task : ManagerTask) :
    Prop :=
  LoadPending tasks ∨ ∀ id ∈ task.writes,
    KeepsLatest (ManagerTask.accepts id) tasks (tasks.eraseIdx index) ∧
      KeepsLatest (ManagerTask.switches id) tasks (tasks.eraseIdx index)

instance (tasks : List ManagerTask) (index : Nat) (task : ManagerTask) :
    Decidable (InOrder tasks index task) :=
  inferInstanceAs (Decidable (_ ∨ _))

theorem InOrder.keeps (order : InOrder tasks index task)
    (found : tasks[index]? = some task) (loaded : ¬ LoadPending tasks)
    (id : String) :
    KeepsLatest (ManagerTask.accepts id) tasks (tasks.eraseIdx index) ∧
      KeepsLatest (ManagerTask.switches id) tasks (tasks.eraseIdx index) := by
  by_cases hid : id ∈ task.writes
  · exact (order.resolve_left loaded) id hid
  · exact ⟨keepsLatest_of_silent found (ManagerTask.accepts_eq_none hid),
      keepsLatest_of_silent found (ManagerTask.switches_eq_none hid)⟩

theorem taken (held : CatchesUp database state tasks)
    (found : tasks[index]? = some task) (loaded : task.loads = false)
    (order : InOrder tasks index task)
    (known : ∀ id, (next.configured id).isSome →
      (state.configured id).isSome ∨ id ∈ task.writes)
    (written : ∀ id, IsCurrent database state tasks id →
      next.accepting id = (task.accepts id).or (state.accepting id) ∧
      (next.enabled id = (task.switches id).or (state.enabled id) ∨
        next.enabled id = state.enabled id ∧
          (latest (ManagerTask.switches id) (tasks.eraseIdx index)).isSome)) :
    CatchesUp database next (tasks.eraseIdx index) := by
  constructor
  · intro id hnone
    obtain ⟨hmemory, htasks⟩ := held.unknown id hnone
    constructor
    · rw [← Option.not_isSome_iff_eq_none]
      intro hsome
      rcases known id hsome with hbefore | hwrites
      · rw [hmemory] at hbefore
        cases hbefore
      · exact htasks task (List.mem_of_getElem? found) hwrites
    · intro other hother
      exact htasks other (List.mem_of_mem_eraseIdx hother)
  · by_cases hpending : LoadPending tasks
    · exact .inl (loadPending_eraseIdx hpending found loaded)
    refine .inr fun id => ?_
    have hcurrent := held.current.resolve_left hpending id
    obtain ⟨haccepts, hswitches⟩ := order.keeps found hpending id
    obtain ⟨hkind, henabled⟩ := written id hcurrent
    constructor
    · rw [hkind, upcoming_taken found haccepts]
      exact hcurrent.1
    · rcases henabled with hwrite | ⟨hsame, hlater⟩
      · rw [hwrite, upcoming_taken found hswitches]
        exact hcurrent.2
      · rw [hsame, upcoming_superseded hswitches hlater]
        exact hcurrent.2

theorem passed (held : CatchesUp database state tasks)
    (found : tasks[index]? = some task) (silent : task.writes = [])
    (loaded : task.loads = false) :
    CatchesUp database state (tasks.eraseIdx index) := by
  have habsent : ∀ id, id ∉ task.writes := fun id => by
    rw [silent]
    exact List.not_mem_nil
  refine held.taken found loaded (.inr fun id hid => absurd hid (habsent id))
    (fun id hsome => .inl hsome) fun id _ => ?_
  rw [ManagerTask.accepts_eq_none (habsent id),
    ManagerTask.switches_eq_none (habsent id)]
  exact ⟨rfl, .inl rfl⟩

/-! ### The sections that write -/

theorem loaded {caller : Caller} (held : CatchesUp database state tasks) :
    CatchesUp database state
      (tasks.eraseIdx index ++
        [.applyReload database.loadWorkloads caller]) := by
  have hrows : ∀ id, installed database.loadWorkloads id =
      database.workloads.lookup id := installed_loadWorkloads database
  constructor
  · intro id hnone
    obtain ⟨hmemory, htasks⟩ := held.unknown id hnone
    refine ⟨hmemory, fun task htask => ?_⟩
    rcases List.mem_append.mp htask with htask | htask
    · exact htasks task (List.mem_of_mem_eraseIdx htask)
    · cases List.mem_singleton.mp htask
      rw [Database.configured, Option.map_eq_none_iff, ← hrows] at hnone
      intro hmem
      have hsome := ManagerTask.installed_isSome_iff.mpr hmem
      rw [hnone] at hsome
      cases hsome
  · refine .inr fun id => ?_
    have hlast : ∀ {Value : Type} (write : ManagerTask → Option Value)
        (memory : Option Value),
        upcoming write (tasks.eraseIdx index ++
            [.applyReload database.loadWorkloads caller]) memory =
          (write (.applyReload database.loadWorkloads caller)).or
            (upcoming write (tasks.eraseIdx index) memory) := by
      intro Value write memory
      simp [upcoming, Option.or_assoc]
    unfold IsCurrent
    rw [hlast, hlast, ManagerTask.accepts, ManagerTask.switches, hrows]
    cases hrow : database.workloads.lookup id with
    | some row =>
        simp [Database.accepting, Database.enabled, Database.configured, hrow,
          StoredWorkload.configured]
    | none =>
        obtain ⟨hmemory, htasks⟩ := held.unknown id
          (by simp [Database.configured, hrow])
        have hothers : ∀ task ∈ tasks.eraseIdx index, id ∉ task.writes :=
          fun task htask => htasks task (List.mem_of_mem_eraseIdx htask)
        have haccepts := latest_eq_none fun task htask =>
          ManagerTask.accepts_eq_none (hothers task htask)
        have hswitches := latest_eq_none fun task htask =>
          ManagerTask.switches_eq_none (hothers task htask)
        simp [upcoming, haccepts, hswitches, State.accepting_eq, State.enabled,
          hmemory, Database.accepting, Database.enabled, Database.configured,
          hrow]

theorem reloaded {host : Host} {persisted : List (String × StoredWorkload)}
    {caller : Caller} (held : CatchesUp database state tasks)
    (found : tasks[index]? = some (.applyReload persisted caller))
    (order : InOrder tasks index (.applyReload persisted caller)) :
    CatchesUp database (state.applyReload host persisted)
      (tasks.eraseIdx index) := by
  have hmemory : ∀ id, (state.applyReload host persisted).configured id =
      ((installed persisted id).map StoredWorkload.configured).or
        (state.configured id) := fun id =>
    State.configured_applyReload.trans (configured_insertWorkloads _ _ _)
  refine held.taken found rfl order (fun id hsome => ?_) fun id _ => ?_
  · rw [hmemory, Option.isSome_or, Bool.or_eq_true, Option.isSome_map,
      ManagerTask.installed_isSome_iff] at hsome
    exact hsome.symm
  · rw [State.accepting_eq, State.enabled, hmemory, State.accepting_eq,
      State.enabled, ManagerTask.accepts, ManagerTask.switches]
    cases installed persisted id <;> exact ⟨rfl, .inl rfl⟩

theorem enabled {target : String} {enable changed : Bool}
    (held : CatchesUp database state tasks)
    (found : tasks[index]? = some (.setEnabled target enable changed))
    (order : InOrder tasks index (.setEnabled target enable changed)) :
    CatchesUp database (state.setEnabled target enable changed).2
      (tasks.eraseIdx index) := by
  cases changed with
  | false =>
      refine (held.passed found rfl rfl).congr (fun id => rfl) fun id => ?_
      rw [State.configured_setEnabled]
      simp
  | true =>
      have hmemory : ∀ id,
          (state.setEnabled target enable true).2.configured id =
            (state.configured id).map fun accepted =>
              if id = target then (accepted.1, accepted.2.1, enable)
              else accepted := fun id => by
        rw [State.configured_setEnabled]
        simp
      refine held.taken found rfl order (fun id hsome => ?_)
        fun id hcurrent => ?_
      · rw [hmemory, Option.isSome_map] at hsome
        exact .inl hsome
      have haccepts : (ManagerTask.setEnabled target enable true).accepts id =
          none := rfl
      rw [State.accepting_eq, State.enabled, hmemory, State.accepting_eq,
        State.enabled, haccepts, ManagerTask.switches]
      by_cases hid : target = id
      · subst hid
        cases hknown : state.configured target with
        | some accepted => simp
        | none =>
            -- a workload with a row that is not in memory is installed later
            refine ⟨rfl, .inr ⟨rfl, ?_⟩⟩
            have hwrites := (held.unknown target).mt fun habsent =>
              habsent.2 _ (List.mem_of_getElem? found) (by
                simp [ManagerTask.writes])
            have hsome : (latest (ManagerTask.accepts target)
                tasks).isSome := by
              have haccepts := hcurrent.1
              rw [State.accepting_eq, hknown, Option.map_none,
                Database.accepting_configured, upcoming, Option.or_none]
                at haccepts
              rw [haccepts, Option.isSome_map, Option.isSome_iff_ne_none]
              exact hwrites
            obtain ⟨other, hother, haccepts⟩ := latest_isSome_iff.mp hsome
            refine latest_isSome_iff.mpr ⟨other, ?_,
              ManagerTask.switches_of_accepts haccepts⟩
            refine World.mem_eraseIdx_of_ne found hother ?_
            rintro rfl
            cases haccepts
      · have hne : ¬ id = target := fun same => hid same.symm
        simp [hid, hne]

theorem replaced {generation : List UInt8}
    {definitions : List (String × StoredWorkload)} {caller : Caller}
    (held : CatchesUp database state tasks) :
    CatchesUp (database.replaceDefinitions generation definitions).2 state
      (tasks.eraseIdx index ++ [.loadWorkloads caller]) := by
  refine of_loads (fun id hnone => ?_)
    (List.mem_append_right _ (List.mem_singleton.mpr rfl)) rfl
  have hbefore : database.configured id = none := by
    cases hrow : database.configured id with
    | none => rfl
    | some row =>
        have hsome : (database.accepting id).isSome := by
          rw [Database.accepting_configured, hrow]
          rfl
        have hafter : ((database.replaceDefinitions generation
            definitions).2.accepting id).isSome :=
          Database.isSome_replaceDefinitions hsome
        rw [Database.accepting_configured, hnone] at hafter
        cases hafter
  obtain ⟨hmemory, htasks⟩ := held.unknown id hbefore
  refine ⟨hmemory, fun task htask => ?_⟩
  rcases List.mem_append.mp htask with htask | htask
  · exact htasks task (List.mem_of_mem_eraseIdx htask)
  · cases List.mem_singleton.mp htask
    exact List.not_mem_nil

theorem opened {host : Host} {session : String} {answers : List Answer}
    (h : (openManager host session answers database).2 = some state) :
    CatchesUp (openManager host session answers database).1 state
      [.initialReload] := by
  have htables : ∀ id, (openManager host session answers
      database).1.configured id = database.configured id := fun id => by
    rw [Database.configured_eq, openManager_standing,
      ← Database.configured_eq]
  have hmemory : ∀ id, state.configured id =
      (openManager host session answers database).1.configured id :=
    fun id => (openManager_configured h id).trans (htables id).symm
  constructor
  · intro id hnone
    refine ⟨(hmemory id).trans hnone, fun task htask => ?_⟩
    cases List.mem_singleton.mp htask
    exact List.not_mem_nil
  · refine .inr fun id => ?_
    unfold IsCurrent
    rw [State.accepting_eq, State.enabled, Database.accepting_configured,
      Database.enabled, hmemory]
    exact ⟨rfl, rfl⟩

theorem agrees (held : CatchesUp database state tasks)
    (idle : ∀ task ∈ tasks, task.updates = false) (id : String) :
    state.configured id = database.configured id := by
  have hloaded : ¬ LoadPending tasks := fun pending => by
    obtain ⟨task, htask, hloads⟩ := List.any_eq_true.mp pending
    rw [(ManagerTask.writes_of_idle (idle task htask)).2] at hloads
    cases hloads
  have habsent : ∀ task ∈ tasks, id ∉ task.writes := fun task htask => by
    rw [(ManagerTask.writes_of_idle (idle task htask)).1]
    exact List.not_mem_nil
  obtain ⟨haccepts, hswitches⟩ := held.current.resolve_left hloaded id
  unfold upcoming at haccepts hswitches
  rw [latest_eq_none fun task htask =>
      ManagerTask.accepts_eq_none (habsent task htask), Option.none_or,
    State.accepting_eq, Database.accepting_configured] at haccepts
  rw [latest_eq_none fun task htask =>
    ManagerTask.switches_eq_none (habsent task htask), Option.none_or]
    at hswitches
  exact configured_ext haccepts hswitches

end CatchesUp

theorem Database.replaceDefinitions_unchanged {generation : List UInt8}
    {definitions : List (String × StoredWorkload)} {database : Database}
    (h : ¬ (database.replaceDefinitions generation definitions).1 = true) :
    (database.replaceDefinitions generation definitions).2 = database := by
  unfold Database.replaceDefinitions at *
  split at h
  · rename_i hsame
    rw [if_pos hsame]
  · exact absurd rfl h

/-! ## Sections and commands -/

section Sections

variable {host : Host} {session : String} {now : Nat} {answer : Answer}
  {situation : Situation} {outcome : Outcome} {task other : ManagerTask}
  {tasks : List ManagerTask} {index : Nat}

theorem Caller.silent {caller : Caller} (hother : other ∈ caller.tasks) :
    other.writes = [] := by
  cases caller with
  | client => cases hother
  | startup | stream =>
      cases List.mem_singleton.mp hother
      rfl

theorem Section.silent
    (made : Section host session now answer situation task outcome)
    (loaded : task.loads = false) (hother : other ∈ outcome.tasks) :
    other.writes = [] := by
  cases made.succeeds hother with
  | returned calls returns => exact Caller.silent returns
  | workloadsLoaded => cases loaded
  | runFailed =>
      unfold supervisorFailed
      dsimp only
      split <;> rfl
  | _ => rfl

theorem Command.silent {command : Command}
    (updates : ∀ id enabled, command ≠ .setEnabled id enabled)
    (hother :
      other ∈ (command.perform host session answer situation).tasks) :
    other.writes = [] := by
  cases command with
  | reload =>
      rcases reloadTasks_mem hother with hreturned | ⟨candidate, rfl⟩
      · exact Caller.silent hreturned
      · rfl
  | startService id | runJob id =>
      rcases startSection_mem hother with hnone | ⟨_, _, rfl, -⟩
      · cases hnone
      · rfl
  | setEnabled id enabled => exact absurd rfl (updates id enabled)
  | rerunJob id =>
      cases List.mem_singleton.mp hother
      rfl
  | _ => cases hother

theorem Database.configured_of_standing {database after : Database}
    {id : String} (same : after.standing id = database.standing id) :
    after.configured id = database.configured id := by
  rw [Database.configured_eq, same, ← Database.configured_eq]

theorem StandingAfter.configured {database after : Database} {id : String}
    (changed : StandingAfter session task database after id)
    (reloads : ∀ generation definitions caller,
      task ≠ .replaceDefinitions generation definitions caller) :
    after.configured id = database.configured id := by
  cases changed with
  | kept same => exact Database.configured_of_standing same
  | replaced replaces => exact absurd replaces (reloads _ _ _)
  | claimed triggers found job enabled first claims =>
      rw [Database.configured_eq, claims, Database.configured, found]
      rfl

theorem Section.quiet
    (held : CatchesUp situation.database situation.state tasks)
    (found : tasks[index]? = some task)
    (made : Section host session now answer situation task outcome)
    (quiet : task.updates = false) :
    CatchesUp outcome.database outcome.state
      (tasks.eraseIdx index ++ outcome.tasks) := by
  obtain ⟨hsilent, hloaded⟩ := ManagerTask.writes_of_idle quiet
  have htables : ∀ id, outcome.database.configured id =
      situation.database.configured id := fun id =>
    (made.standing id).configured fun generation definitions caller h => by
      subst h
      cases quiet
  have hmemory : ∀ id, outcome.state.configured id =
      situation.state.configured id := fun id => by
    rcases made.configured id with
      hsame | ⟨target, enabled, rfl, -⟩ | ⟨persisted, caller, rfl, -⟩
    · exact hsame
    · cases quiet
    · cases quiet
  refine ((held.passed found hsilent hloaded).congr htables hmemory).added ?_
  exact fun other hother => made.silent hloaded hother

theorem ManagerTask.catchesUp
    (held : CatchesUp situation.database situation.state tasks)
    (found : tasks[index]? = some task)
    (answered : task.loads = true → answer.stored = true)
    (order : CatchesUp.InOrder tasks index task)
    (advanced : task.advance host session now answer situation =
      some outcome) :
    CatchesUp outcome.database outcome.state
      (tasks.eraseIdx index ++ outcome.tasks) := by
  have made := ManagerTask.advance_section advanced
  cases hupdates : task.updates with
  | false => exact made.quiet held found hupdates
  | true =>
      cases task with
      | initialReload =>
          cases advanced
          exact (held.passed found rfl rfl).added fun other hother =>
            made.silent rfl hother
      | replaceDefinitions generation definitions caller =>
          simp only [advance] at advanced
          split at advanced
          · cases advanced
            dsimp only [Situation.leave, Situation.withDatabase]
            split
            · exact held.replaced
            · rename_i hunchanged
              rw [Database.replaceDefinitions_unchanged hunchanged]
              refine (held.passed found rfl rfl).added fun other hother => ?_
              cases List.mem_singleton.mp hother
              rfl
          · cases advanced
            exact (held.passed found rfl rfl).added fun other hother =>
              made.silent rfl hother
      | loadWorkloads caller =>
          simp only [advance, if_pos (answered rfl)] at advanced
          cases advanced
          exact held.loaded
      | applyReload persisted caller =>
          cases advanced
          exact (held.reloaded found order).added fun other hother =>
            made.silent rfl hother
      | keepReload caller =>
          cases advanced
          have hmemory : ∀ id, (situation.state.keepReload host).configured
              id = situation.state.configured id := fun id =>
            congrFun (congrArg (fun frame => frame.2.2)
              State.frame_keepReload) id
          exact ((held.passed found rfl rfl).congr (fun id => rfl)
            hmemory).added fun other hother => made.silent rfl hother
      | setEnabled target enable changed =>
          cases advanced
          exact (held.enabled found order).added fun other hother => by
            cases hother
      | _ => cases hupdates

theorem CatchesUp.stored {database : Database} {state : State}
    (held : CatchesUp database state tasks) (target : String)
    (enable : Bool) :
    CatchesUp (database.setEnabled target enable).2 state
      (tasks ++
        [.setEnabled target enable (database.setEnabled target enable).1]) := by
  have hrows : ∀ id, (database.setEnabled target enable).2.configured id =
      (database.configured id).map fun accepted =>
        if id = target then (accepted.1, accepted.2.1, enable)
        else accepted := fun id => by
    rw [Database.configured_eq, Database.standing_setEnabled,
      Database.configured_eq, Option.map_map, Option.map_map]
    congr 1
    funext row
    simp only [Function.comp_apply]
    split <;> rfl
  have hchanged : (database.setEnabled target enable).1 =
      (database.configured target).isSome := by
    rw [Database.configured, Option.isSome_map]
    rfl
  rw [hchanged]
  constructor
  · intro id hnone
    rw [hrows, Option.map_eq_none_iff] at hnone
    obtain ⟨hmemory, htasks⟩ := held.unknown id hnone
    refine ⟨hmemory, fun task htask => ?_⟩
    rcases List.mem_append.mp htask with htask | htask
    · exact htasks task htask
    · cases List.mem_singleton.mp htask
      cases hrow : database.configured target with
      | none => exact List.not_mem_nil
      | some accepted =>
          intro hmem
          cases List.mem_singleton.mp hmem
          rw [hrow] at hnone
          cases hnone
  · refine held.current.imp CatchesUp.loadPending_append
      fun hcurrent id => ?_
    · obtain ⟨haccepts, hswitches⟩ := hcurrent id
      rw [Database.accepting_configured] at haccepts
      unfold IsCurrent
      rw [Database.accepting_configured, Database.enabled, hrows,
        upcoming_added (by simp [ManagerTask.accepts]), haccepts]
      by_cases hid : target = id
      · subst hid
        cases hrow : database.configured target with
        | some accepted =>
            have hwrites : (ManagerTask.setEnabled target enable true).switches
                target = some enable := if_pos rfl
            rw [Option.isSome_some, upcoming_stored hwrites]
            simp
        | none =>
            rw [Database.enabled, hrow] at hswitches
            rw [upcoming_added (by simp [ManagerTask.switches]), hswitches]
            exact ⟨rfl, rfl⟩
      · have hne : ¬ id = target := fun same => hid same.symm
        rw [upcoming_added (by simp [ManagerTask.switches_setEnabled, hid]),
          hswitches]
        simp [hne, Database.enabled]

theorem Command.catchesUp {command : Command}
    (held : CatchesUp situation.database situation.state tasks) :
    CatchesUp (command.perform host session answer situation).database
      (command.perform host session answer situation).state
      (tasks ++ (command.perform host session answer situation).tasks) := by
  have quiet : (∀ id enabled, command ≠ .setEnabled id enabled) →
      CatchesUp (command.perform host session answer situation).database
        (command.perform host session answer situation).state
        (tasks ++ (command.perform host session answer situation).tasks) := by
    intro hother
    refine (held.congr (fun id => ?_) (Command.configured command)).added
      fun task htask => Command.silent hother htask
    rcases Command.standing command id with ⟨target, enabled, rfl, -⟩ | hsame
    · exact absurd rfl (hother target enabled)
    · exact Database.configured_of_standing hsame
  cases command with
  | setEnabled target enable =>
      simp only [Command.perform]
      split
      · exact held.stored target enable
      · simpa [Situation.leave] using held
  | _ => exact quiet fun _ _ h => by cases h

end Sections

/-! ## Worlds -/

namespace World

variable {host : Host} {world next : World} {event : Event}

/--
A section is taken in order: of what it writes, what has been stored last is
still written last.  The rows are read without failure.
-/
def Orderly (world : World) : Event → Prop
  | .advance index answer =>
      ∀ manager ∈ world.controller, ∀ task ∈ manager.tasks[index]?,
        (task.loads = true → answer.stored = true) ∧
          CatchesUp.InOrder manager.tasks index task
  | _ => True

instance : ∀ (world : World) (event : Event), Decidable (world.Orderly event)
  | world, .advance index answer => inferInstanceAs (Decidable
      (∀ manager ∈ world.controller, ∀ task ∈ manager.tasks[index]?,
        (task.loads = true → answer.stored = true) ∧
          CatchesUp.InOrder manager.tasks index task))
  | _, .elapse _ | _, .processExited _ | _, .controllerExited
  | _, .startup .. | _, .command .. | _, .attach .. =>
      inferInstanceAs (Decidable True)

/-- The memory of the controller is going to catch up with the tables. -/
def MemoryCatchesUp (world : World) : Prop :=
  ∀ manager, world.controller = some manager →
    CatchesUp world.database manager.state manager.tasks

theorem MemoryCatchesUp.step (held : MemoryCatchesUp world)
    (orderly : world.Orderly event)
    (moved : step host world event = some next) : MemoryCatchesUp next := by
  intro after runs
  cases event with
  | elapse | processExited =>
      cases moved
      exact held after runs
  | controllerExited =>
      cases moved
      cases runs
  | startup session answers =>
      obtain ⟨-, rfl⟩ := step_startup moved
      obtain ⟨state, hopened, rfl⟩ := Option.map_eq_some_iff.mp runs
      exact .opened hopened
  | command command answer =>
      obtain ⟨manager, hrunning, -, rfl⟩ := step_command moved
      cases runs
      exact Command.catchesUp (held manager hrunning)
  | attach hello answer =>
      obtain ⟨manager, hrunning, -, rfl⟩ := step_attach moved
      cases runs
      refine (held manager hrunning).added fun task htask => ?_
      obtain ⟨row, -, rfl⟩ := mem_attachTasks htask
      rfl
  | advance index answer =>
      obtain ⟨manager, task, outcome, hrunning, hfound, hadvanced, rfl⟩ :=
        step_advance moved
      cases runs
      obtain ⟨hanswered, horder⟩ := orderly manager hrunning task hfound
      exact ManagerTask.catchesUp (held manager hrunning) hfound hanswered
        horder hadvanced

/--
In every run that takes the sections in order, the memory has what the tables
say of every workload whenever no reload and no enablement is in progress.
-/
theorem memory_agrees {manager : Manager}
    (run : Runs (step host) Orderly initial world)
    (running : world.controller = some manager)
    (idle : ∀ task ∈ manager.tasks, task.updates = false) (id : String) :
    manager.state.configured id = world.database.configured id := by
  have held : MemoryCatchesUp world := by
    refine Runs.invariant (fun _ _ _ held orderly moved =>
      held.step orderly moved) run fun manager running => ?_
    cases running
  exact (held manager running).agrees idle id

/-! ## Two enablements -/

/-- The tool is enabled and disabled at once; the sections of the two calls are
taken the other way round. -/
def crossedEvents : List Event :=
  [.command (.setEnabled "tool" true) calm,
    .command (.setEnabled "tool" false) calm,
    .advance 1 calm, .advance 0 calm]

/-- No storage call fails. -/
def Stores : Event → Prop
  | .command _ answer | .attach _ answer | .advance _ answer =>
      answer.stored = true
  | _ => True

instance : ∀ event, Decidable (Stores event)
  | .command _ answer | .attach _ answer | .advance _ answer =>
      inferInstanceAs (Decidable (answer.stored = true))
  | .elapse _ | .processExited _ | .controllerExited | .startup .. =>
      inferInstanceAs (Decidable True)

theorem memory_disagrees :
    ¬ ∀ (host : Host) (world : World) (manager : Manager) (id : String),
      Runs (step host) (fun _ event => Stores event) initial world →
      world.controller = some manager →
      (∀ task ∈ manager.tasks, task.updates = false) →
      manager.state.configured id = world.database.configured id := by
  intro h
  have run : Runs (step installation) (fun _ event => Stores event) initial
      (worldAfter servingWorld crossedEvents) :=
    (runs_servingWorld (by decide +kernel)).trans
      (runs_worldAfter (by decide +kernel))
  have hcontroller : ∃ manager,
      (worldAfter servingWorld crossedEvents).controller = some manager ∧
        manager.tasks = [] ∧ manager.state.enabled "tool" = some true :=
    ⟨_, rfl, rfl, rfl⟩
  obtain ⟨manager, hrunning, hidle, henabled⟩ := hcontroller
  have hagrees := h _ _ manager "tool" run hrunning (by simp [hidle])
  have hrow : (worldAfter servingWorld crossedEvents).database.enabled
      "tool" = some false := rfl
  rw [State.enabled, hagrees] at henabled
  cases henabled.symm.trans hrow

/-- The tool is enabled while a reload without definitions is in progress, and
the sections are taken as the calls were stored. -/
def orderedEvents : List Event :=
  [.command (.setEnabled "tool" true) calm,
    .command .reload (loadCandidate []),
    .advance 1 calm, .advance 1 calm, .advance 0 calm, .advance 0 calm]

theorem memory_agrees_ordered :
    ∃ manager,
      (worldAfter servingWorld orderedEvents).controller = some manager ∧
        manager.state.configured "tool" =
          (worldAfter servingWorld orderedEvents).database.configured
            "tool" := by
  have hidle : (worldAfter servingWorld orderedEvents).controller.map
      Manager.tasks = some [] := by decide +kernel
  obtain ⟨manager, running, htasks⟩ := Option.map_eq_some_iff.mp hidle
  have run : Runs (step installation) Orderly initial
      (worldAfter servingWorld orderedEvents) :=
    (runs_servingWorld (by decide +kernel)).trans
      (runs_worldAfter (by decide +kernel))
  exact ⟨manager, running,
    memory_agrees run running (by simp [htasks]) "tool"⟩

end World

end Susm.Controller
