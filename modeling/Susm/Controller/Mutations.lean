import Susm.Controller.Controls
import Susm.Controller.StopIntents

/-!
# What mutations report

Every mutation answers whether it changed anything.  It has one section, or two
with sections of other tasks between them; what it alters is what its own
sections alter.
-/

namespace Susm.Controller

open Susm.Foundation
open Susm.Protocol

/-! ## Replies -/

def Command.mutated : Command → Option String
  | .startService id | .stopService id | .restartService id | .runJob id
  | .cancelJob id | .rerunJob id | .setEnabled id _ => some id
  | .reload | .endSession => none

section Replies

variable (host : Host) (session : String) (answer : Answer)
  (situation : Situation)

/-- What a mutation answers after its first section, if that is its last. -/
def Command.reply : Command → Option Reply
  | .startService id =>
      some (start host session answer situation.state situation.database id
        .service false none).reply
  | .runJob id =>
      some (start host session answer situation.state situation.database id
        .job true none).reply
  | .stopService id => some (situation.state.cancel id .service false).1
  | .cancelJob id => some (situation.state.cancel id .job false).1
  | .restartService id => some (situation.state.cancel id .service true).1
  | .setEnabled _ _ =>
      if answer.stored then none else some (.error (.storage .sqlite))
  | .rerunJob _ | .reload | .endSession => none

/-- What a mutation answers after its second section. -/
def ManagerTask.reply : ManagerTask → Option Reply
  | .setEnabled id enabled changed =>
      some (situation.state.setEnabled id enabled changed).1
  | .rerunJob id true => some (situation.state.cancel id .job true).1
  | .rerunJob id false =>
      some (start host session answer situation.state situation.database id
        .job true none).reply
  | _ => none

end Replies

/-! ## Effects -/

/-- What a mutation may alter: the row of the workload, its record in memory
and the execution, the state and the restart of its active entry. -/
structure Facets where
  row : Option StoredWorkload
  record : Option WorkloadRecord
  entry : Option (String × StateName × Bool)
  deriving DecidableEq

def ActiveExecution.facet (active : ActiveExecution) :
    String × StateName × Bool :=
  (active.executionId, active.state, active.restartAfter)

def Situation.facets (situation : Situation) (id : String) : Facets where
  row := situation.database.workloads.lookup id
  record := situation.state.workloads.lookup id
  entry := (situation.state.active.lookup id).map ActiveExecution.facet

/-- One section of a mutation. -/
structure Effect where
  before : Situation
  after : Situation

/-- The section alters its workload. -/
def Effect.Alters (effect : Effect) (id : String) : Prop :=
  effect.before.facets id ≠ effect.after.facets id

/-- Memory, with its revision, and tables stay as they are. -/
structure Effect.Keeps (effect : Effect) : Prop where
  state : effect.after.state = effect.before.state
  database : effect.after.database = effect.before.database

theorem Effect.Keeps.not_alters {effect : Effect} (keeps : effect.Keeps)
    (id : String) : ¬ effect.Alters id := by
  simp [Effect.Alters, Situation.facets, keeps.state, keeps.database]

/-- A change is reported exactly when a section alters the workload; without
one, no section changes anything. -/
structure Truthful (id : String) (changed : Bool) (effects : List Effect) :
    Prop where
  reported : changed = true ↔ ∃ effect ∈ effects, effect.Alters id
  unchanged : changed = false → ∀ effect ∈ effects, effect.Keeps

section Truthful

variable {id : String} {changed : Bool} {first effect : Effect}
  {effects : List Effect}

theorem truthful_true :
    Truthful id true effects ↔ ∃ effect ∈ effects, effect.Alters id := by
  constructor
  · intro truthful
    exact truthful.reported.mp rfl
  · intro alters
    exact ⟨iff_of_true rfl alters, nofun⟩

theorem truthful_false (keep : ∀ effect ∈ effects, effect.Keeps) :
    Truthful id false effects := by
  refine ⟨?_, fun _ => keep⟩
  simp only [Bool.false_eq_true, false_iff, not_exists, not_and]
  exact fun effect hmem => (keep effect hmem).not_alters id

/-- The section reports no change and makes none, or it reports one, which it
makes unless it is redundant. -/
def Reports (id : String) (changed : Bool) (effect : Effect)
    (redundant : Prop) : Prop :=
  (changed = false ∧ effect.Keeps ∧ ¬ redundant) ∨
    (changed = true ∧ (effect.Alters id ↔ ¬ redundant))

theorem Reports.truthful_iff {redundant : Prop}
    (reports : Reports id changed effect redundant) :
    Truthful id changed [effect] ↔ ¬ redundant := by
  rcases reports with ⟨rfl, keeps, needed⟩ | ⟨rfl, alters⟩
  · exact iff_of_true (truthful_false (by simpa using keeps)) needed
  · rw [truthful_true]
    simpa using alters

theorem truthful_cons (keeps : first.Keeps) :
    Truthful id changed (first :: effects) ↔ Truthful id changed effects := by
  constructor
  · intro truthful
    refine ⟨?_, fun same effect hmem => ?_⟩
    · simpa [keeps.not_alters id] using truthful.reported
    · exact truthful.unchanged same effect (List.mem_cons_of_mem _ hmem)
  · intro truthful
    refine ⟨?_, fun same => ?_⟩
    · simpa [keeps.not_alters id] using truthful.reported
    · exact List.forall_mem_cons.mpr ⟨keeps, truthful.unchanged same⟩

end Truthful

/-! ## Sections -/

section Sections

variable {host : Host} {session : String} {answer : Answer}
  {situation : Situation} {state : State} {id : String} {view : Workload}
  {changed : Bool}

theorem start_reports {kind : WorkloadKind} {exclusive : Bool}
    (next : List ManagerTask)
    (replied : (start host session answer situation.state situation.database
      id kind exclusive none).reply = .ok (changed, view)) :
    Reports id changed
      ⟨situation, (startSection host session answer situation id kind exclusive
        none next).toSituation⟩ False := by
  rcases start_cases host session answer situation.state situation.database id
    kind exclusive none with ⟨-, hstate, hdatabase, hreply⟩ |
    ⟨record, accepted, time, creates⟩
  · refine .inl ⟨?_, ⟨hstate, hdatabase⟩, not_false⟩
    cases changed with
    | false => rfl
    | true => exact absurd replied (hreply view)
  · obtain ⟨created, hcreated⟩ := creates.reply
    refine .inr ⟨?_, iff_of_true ?_ not_false⟩
    · cases hcreated.symm.trans replied
      rfl
    · intro same
      have hentry := congrArg Facets.entry same
      simp [Situation.facets, startSection, creates.state, creates.idle,
        State.bump, State.setActive] at hentry

namespace State

/-- The active execution is stopping already, and is to be started again if
that is asked for. -/
def IsStopping (state : State) (id : String) (kind : WorkloadKind)
    (restartAfter : Bool) : Prop :=
  state.isKind id kind = true ∧ ∃ active,
    state.active.lookup id = some active ∧ active.state = .stopping ∧
      (restartAfter = true → active.restartAfter = true)

/-- The entry of an accepted cancellation. -/
def stopped (active : ActiveExecution) (restartAfter : Bool) :
    ActiveExecution :=
  { active with
    restartAfter := active.restartAfter || restartAfter
    state := .stopping }

theorem cancel_ok {kind : WorkloadKind} {restartAfter : Bool}
    (replied : (state.cancel id kind restartAfter).1 = .ok (changed, view)) :
    (changed = false ∧ (state.cancel id kind restartAfter).2 = state ∧
        state.active.lookup id = none) ∨
      (changed = true ∧ state.isKind id kind = true ∧ ∃ active,
        state.active.lookup id = some active ∧
        (state.cancel id kind restartAfter).2.workloads = state.workloads ∧
        (state.cancel id kind restartAfter).2.active =
          state.active.insert id (stopped active restartAfter)) := by
  unfold cancel at replied ⊢
  split at replied
  · cases replied
  rename_i record hrecord
  split at replied
  · cases replied
  rename_i hkind
  split at replied
  · rename_i hactive
    cases replied
    exact .inl ⟨rfl, rfl, hactive⟩
  · rename_i active hactive
    cases replied
    refine .inr ⟨rfl, ?_, active, hactive, rfl, rfl⟩
    simp only [isKind, hrecord, Option.any_some, decide_eq_true_eq]
    by_contra hother
    simp [ensureKind, hother] at hkind

end State

theorem facet_stopped {active : ActiveExecution} {restartAfter : Bool} :
    active.facet = (State.stopped active restartAfter).facet ↔
      active.state = .stopping ∧
        (restartAfter = true → active.restartAfter = true) := by
  simp only [ActiveExecution.facet, State.stopped, Prod.mk.injEq, true_and]
  refine and_congr_right fun _ => ?_
  cases restartAfter <;> cases active.restartAfter <;> simp

theorem cancel_reports {kind : WorkloadKind} {restartAfter : Bool}
    (tasks : List ManagerTask)
    (replied : (situation.state.cancel id kind restartAfter).1 =
      .ok (changed, view)) :
    Reports id changed
      ⟨situation, ((situation.withState
        (situation.state.cancel id kind restartAfter).2).leave
          tasks).toSituation⟩
      (situation.state.IsStopping id kind restartAfter) := by
  rcases State.cancel_ok replied with ⟨hfalse, hsame, hidle⟩ |
    ⟨htrue, hkind, active, hactive, hworkloads, hstopped⟩
  · refine .inl ⟨hfalse, ⟨hsame, rfl⟩, ?_⟩
    rintro ⟨-, active, hactive, -⟩
    cases hidle.symm.trans hactive
  · refine .inr ⟨htrue, not_congr ?_⟩
    have hredundant : situation.state.IsStopping id kind restartAfter ↔
        active.facet = (State.stopped active restartAfter).facet := by
      rw [facet_stopped]
      simp [State.IsStopping, hkind, hactive]
    rw [hredundant]
    simp [Situation.facets, Situation.leave, Situation.withState, hworkloads,
      hstopped, hactive]

theorem setEnabled_alters_row {row : StoredWorkload} {enabled : Bool}
    {tasks : List ManagerTask}
    (found : situation.database.workloads.lookup id = some row) :
    Effect.Alters ⟨situation, ((situation.withDatabase
        (situation.database.setEnabled id enabled).2).leave
          tasks).toSituation⟩ id ↔
      row.enabled ≠ enabled := by
  refine not_congr ?_
  simp [Situation.facets, Situation.leave, Situation.withDatabase,
    Database.setEnabled, Map.lookup_modify, found]
  cases row
  simp

theorem setEnabled_alters_record {record : WorkloadRecord} {enabled : Bool}
    {tasks : List ManagerTask}
    (found : situation.state.workloads.lookup id = some record) :
    Effect.Alters ⟨situation, ((situation.withState
        (situation.state.setEnabled id enabled true).2).leave
          tasks).toSituation⟩ id ↔
      record.enabled ≠ enabled := by
  refine not_congr ?_
  simp [Situation.facets, Situation.leave, Situation.withState,
    State.setEnabled, State.bump, found]
  cases record
  simp

theorem setEnabled_truthful_iff {first second : Situation} {enabled : Bool}
    {tasks later : List ManagerTask}
    (replied : (second.state.setEnabled id enabled
      (first.database.setEnabled id enabled).1).1 = .ok (changed, view)) :
    Truthful id changed
        [⟨first, ((first.withDatabase
            (first.database.setEnabled id enabled).2).leave
              tasks).toSituation⟩,
          ⟨second, ((second.withState (second.state.setEnabled id enabled
            (first.database.setEnabled id enabled).1).2).leave
              later).toSituation⟩] ↔
      ¬ ((first.database.workloads.lookup id).map StoredWorkload.enabled =
          some enabled ∧
        (second.state.workloads.lookup id).map WorkloadRecord.enabled =
          some enabled) := by
  cases hrecord : second.state.workloads.lookup id with
  | none =>
      simp [State.setEnabled, hrecord] at replied
  | some record =>
      have hchanged : (first.database.setEnabled id enabled).1 = changed := by
        simp only [State.setEnabled, hrecord, Except.ok.injEq,
          Prod.mk.injEq] at replied
        exact replied.1
      rw [hchanged]
      cases hrow : first.database.workloads.lookup id with
      | none =>
          have hfalse : changed = false := by
            simp [← hchanged, Database.setEnabled, hrow]
          subst hfalse
          have kept : (first.database.setEnabled id enabled).2 =
              first.database := by
            simp [Database.setEnabled, Map.modify, hrow]
          have same : (second.state.setEnabled id enabled false).2 =
              second.state := by
            simp [State.setEnabled, hrecord]
          refine iff_of_true (truthful_false ?_) (by simp)
          have first_keeps : Effect.Keeps
              ⟨first, ((first.withDatabase (first.database.setEnabled id
                enabled).2).leave tasks).toSituation⟩ := ⟨rfl, kept⟩
          have second_keeps : Effect.Keeps
              ⟨second, ((second.withState (second.state.setEnabled id enabled
                false).2).leave later).toSituation⟩ := ⟨same, rfl⟩
          simp [first_keeps, second_keeps]
      | some row =>
          have htrue : changed = true := by
            simp [← hchanged, Database.setEnabled, hrow]
          subst htrue
          rw [truthful_true]
          simp only [List.mem_cons, List.not_mem_nil, or_false,
            exists_eq_or_imp, exists_eq_left, setEnabled_alters_row hrow,
            setEnabled_alters_record hrecord, Option.map_some,
            Option.some.injEq]
          exact not_and_or.symm

end Sections

/-! ## Calls -/

/-- The mutation asks for what its workload already is. -/
def Redundant : Command → List Situation → Prop
  | .stopService id, [only] => only.state.IsStopping id .service false
  | .cancelJob id, [only] => only.state.IsStopping id .job false
  | .restartService id, [only] => only.state.IsStopping id .service true
  | .rerunJob id, [first, second] =>
      (first.state.active.lookup id).isSome ∧
        second.state.IsStopping id .job true
  | .setEnabled id enabled, [first, second] =>
      (first.database.workloads.lookup id).map StoredWorkload.enabled =
          some enabled ∧
        (second.state.workloads.lookup id).map WorkloadRecord.enabled =
          some enabled
  | _, _ => False

namespace World

inductive Call (host : Host) (command : Command) (world : World) :
    Reply → List Effect → Prop
  | once {manager : Manager} {answer : Answer} {reply : Reply}
      (running : world.controller = some manager)
      (serving : manager.isServing = true)
      (replied : command.reply host manager.session answer
        (world.situation manager) = some reply) :
      Call host command world reply
        [⟨world.situation manager, (command.perform host manager.session
          answer (world.situation manager)).toSituation⟩]
  | twice {manager after : Manager} {answer second : Answer}
      {next later : World} {task : ManagerTask} {outcome : Outcome}
      {reply : Reply} (running : world.controller = some manager)
      (moved : step host world (.command command answer) = some next)
      (run : Runs (step host) (fun _ _ => True) next later)
      (waits : later.controller = some after)
      (left : task ∈ (command.perform host manager.session answer
        (world.situation manager)).tasks)
      (found : task ∈ after.tasks)
      (advanced : task.advance host after.session later.now second
        (later.situation after) = some outcome)
      (replied : task.reply host after.session second
        (later.situation after) = some reply) :
      Call host command world reply
        [⟨world.situation manager, (command.perform host manager.session
          answer (world.situation manager)).toSituation⟩,
          ⟨later.situation after, outcome.toSituation⟩]

/-- A mutation reports truthfully exactly when it asks for something new. -/
theorem mutation_truthful_iff {host : Host} {world : World}
    {command : Command} {id : String} {changed : Bool} {view : Workload}
    {effects : List Effect} (mutated : command.mutated = some id)
    (call : Call host command world (.ok (changed, view)) effects) :
    Truthful id changed effects ↔
      ¬ Redundant command (effects.map Effect.before) := by
  cases call with
  | once running serving replied =>
      cases command with
      | startService | runJob =>
          cases mutated
          exact (start_reports [] (Option.some.inj replied)).truthful_iff
      | stopService | cancelJob | restartService =>
          cases mutated
          exact (cancel_reports [] (Option.some.inj replied)).truthful_iff
      | rerunJob => cases replied
      | setEnabled =>
          simp only [Command.reply] at replied
          split at replied <;> cases replied
      | reload | endSession => cases mutated
  | twice running moved run waits left found advanced replied =>
      cases command with
      | startService | runJob =>
          simp only [Command.perform, startSection, List.append_nil,
            Option.mem_toList, Option.map_eq_some_iff] at left
          obtain ⟨run, -, rfl⟩ := left
          cases replied
      | stopService | cancelJob | restartService => cases left
      | rerunJob =>
          cases mutated
          cases List.mem_singleton.mp left
          rw [truthful_cons ⟨rfl, rfl⟩]
          -- The first section has seen whether the job is active.
          cases hactive : ((world.situation _).state.active.lookup id).isSome
          · rw [hactive] at advanced replied
            cases advanced
            have reports := start_reports [] (Option.some.inj replied)
            simpa [Redundant, hactive] using reports.truthful_iff
          · rw [hactive] at advanced replied
            cases advanced
            have reports := cancel_reports [] (Option.some.inj replied)
            simpa [Redundant, hactive] using reports.truthful_iff
      | setEnabled =>
          cases mutated
          simp only [Command.perform] at left ⊢
          split at left
          · rename_i hstored
            cases List.mem_singleton.mp left
            cases advanced
            rw [if_pos hstored]
            exact setEnabled_truthful_iff (Option.some.inj replied)
          · cases left
      | reload | endSession => cases mutated

/-- The running tool is stopped for the first time. -/
theorem mutation_truthful_iff_stopped :
    ∃ view effects, Call installation (.stopService "tool") attachedWorld
        (.ok (true, view)) effects ∧
      Truthful "tool" true effects := by
  have call : Call installation (.stopService "tool") attachedWorld
      (.ok (true, _)) _ :=
    @Call.once _ _ _ attachedManager calm _ rfl rfl rfl
  refine ⟨_, _, call, (mutation_truthful_iff rfl call).mpr ?_⟩
  rintro ⟨-, active, hactive, hstopping, -⟩
  cases hactive
  cases hstopping

/-- A service that is being stopped is stopped again. -/
theorem stopped_again_changed :
    ¬ ∀ (host : Host) (world : World) (command : Command) (id : String)
        (changed : Bool) (view : Workload) (effects : List Effect),
      Reachable host world → command.mutated = some id →
      Call host command world (.ok (changed, view)) effects →
      Truthful id changed effects := by
  intro h
  have reachable : Reachable installation stoppedWorld :=
    attachedWorld_reachable.trans (runs_worldAfter (by decide +kernel))
  obtain ⟨manager, running⟩ : ∃ manager,
      stoppedWorld.controller = some manager := ⟨_, rfl⟩
  cases running
  have call : Call installation (.stopService "tool") stoppedWorld
      (.ok (true, _)) _ :=
    @Call.once _ _ _ _ calm _ rfl rfl rfl
  have truthful := h _ _ _ "tool" _ _ _ reachable rfl call
  obtain ⟨effect, hmem, alters⟩ := truthful.reported.mp rfl
  cases List.mem_singleton.mp hmem
  exact alters (by decide +kernel)

end World

end Susm.Controller
