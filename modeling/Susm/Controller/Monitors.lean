import Susm.Controller.Stopping
import Susm.Controller.Supervisors

/-!
# Streams and recovery monitors

An attachment has a task for its stream until the stream is closed, and an
execution that a new controller has found has a task of its recovery monitor
until it is removed or taken over.  A task of a run is only there for an
execution whose supervisor the controller owns.
-/

namespace Susm.Controller

open Susm.Foundation
open Susm.Protocol

namespace ManagerTask

def streams : ManagerTask → Option (String × String)
  | .stream attachmentId executionId
  | .recordCheck attachmentId executionId _ _
  | .recordCommit attachmentId executionId _ _ _
  | .recordTerminal attachmentId executionId _ _
  | .recordProgress attachmentId executionId _ _
  | .streamClosed attachmentId executionId
  | .replacementKind _ (.stream attachmentId executionId)
  | .replacementStart _ _ (.stream attachmentId executionId) =>
      some (attachmentId, executionId)
  | _ => none

def monitors : ManagerTask → Option String
  | .monitorLoad executionId | .monitorPoll executionId _ _ _
  | .monitorTick executionId _ _ _ | .terminalLoad executionId _
  | .terminalRemove executionId _ _ => some executionId
  | _ => none

/-- No monitor waits longer than the time that a supervisor has. -/
def DueWithin (now : Nat) : ManagerTask → Prop
  | .monitorPoll _ _ replacementAt _ | .monitorTick _ _ replacementAt _ =>
      replacementAt ≤ now + recoveryMillis
  | _ => True

end ManagerTask

namespace State

variable {state : State} {id executionId : String} {now replacementAt : Nat}
  {wasRecovering : Bool}

/-- The execution is active, and its supervisor is not the controller's own. -/
def Unowned (state : State) (executionId : String) : Prop :=
  ∃ id control, state.control id = some control ∧
    control.executionId = executionId ∧ control.locallyOwned = false

/-- No other workload has the execution. -/
def Single (state : State) (executionId : String) : Prop :=
  ∀ id other, state.activeId id = some executionId →
    state.activeId other = some executionId → id = other

theorem Single.control (single : state.Single executionId)
    {other : String} {one two : Control}
    (hone : state.control id = some one) (htwo : state.control other = some two)
    (first : one.executionId = executionId)
    (second : two.executionId = executionId) : id = other ∧ one = two := by
  have hid : id = other := by
    refine single id other ?_ ?_
    · rw [control_activeId hone, first]
    · rw [control_activeId htwo, second]
  subst hid
  exact ⟨rfl, Option.some.inj (hone.symm.trans htwo)⟩

/-! ## Ticks -/

theorem monitorTick_found {control : Control}
    (found : state.control id = some control)
    (about : control.executionId = executionId) :
    (state.monitorTick executionId now replacementAt wasRecovering).1 ≠
      .gone := by
  obtain ⟨active, hactive, rfl⟩ := Option.map_eq_some_iff.mp found
  unfold monitorTick
  split
  · rename_i hnone
    exact absurd about (of_decide_eq_false (Map.findEntry_none hnone hactive))
  · dsimp only
    split <;> split <;> simp

/-- A tick that finds the execution recovering waits for the time at which it is
to be replaced. -/
theorem monitorTick_found_recovering {control : Control}
    (single : state.Single executionId)
    (found : state.control id = some control)
    (about : control.executionId = executionId)
    (recovering : control.state = .recovering) :
    (state.monitorTick executionId now replacementAt wasRecovering).1 =
      let due := if wasRecovering then replacementAt else now + recoveryMillis
      if due ≤ now then .replace id else .waiting due true := by
  obtain ⟨active, hactive, rfl⟩ := Option.map_eq_some_iff.mp found
  unfold monitorTick
  split
  · rename_i hnone
    exact absurd about (of_decide_eq_false (Map.findEntry_none hnone hactive))
  · rename_i other entry hentry
    obtain ⟨hlookup, hid⟩ := Map.findEntry_some hentry
    obtain ⟨rfl, hsame⟩ := single.control found (control_of_lookup hlookup)
      about (of_decide_eq_true hid)
    cases hactive.symm.trans hlookup
    have hstate : active.state = .recovering := recovering
    cases wasRecovering <;>
      simp only [hstate, decide_true, Bool.not_false, Bool.not_true,
        Bool.false_eq_true, and_true, and_false, true_and, if_true, if_false]
    all_goals split <;> rfl

theorem monitorTick_due {due : Nat} {recovering : Bool} {next : State}
    (ticked : state.monitorTick executionId now replacementAt wasRecovering =
      (.waiting due recovering, next)) :
    due = replacementAt ∨ due = now + recoveryMillis := by
  unfold monitorTick at ticked
  split at ticked
  · cases ticked
  · dsimp only at ticked
    split at ticked <;> split at ticked <;> cases ticked
    · exact .inr rfl
    · exact .inl rfl

end State

section Sections

variable {host : Host} {session : String} {now : Nat} {answer : Answer}
  {situation : Situation} {outcome : Outcome} {task other : ManagerTask}
  {attachmentId executionId : String}

/-! ## Streams -/

theorem Section.streams
    (made : Section host session now answer situation task outcome)
    (streams : task.streams = some (attachmentId, executionId)) :
    task = .streamClosed attachmentId executionId ∨
      ∃ other ∈ outcome.tasks,
        other.streams = some (attachmentId, executionId) := by
  cases made with
  | givesUp made =>
      cases made with
      | stream | recordCommit =>
          exact .inr ⟨_, List.mem_singleton_self _, streams⟩
      | @replacementKind _ caller =>
          cases caller <;> cases streams
          exact .inr ⟨_, List.mem_singleton_self _, rfl⟩
      | _ => cases streams
  | @replacementKind _ caller =>
      cases caller <;> cases streams
      exact .inr ⟨_, List.mem_singleton_self _, rfl⟩
  | @replacementStart _ _ caller =>
      cases caller <;> cases streams
      exact .inr ⟨_, List.mem_append_right _ (List.mem_singleton_self _), rfl⟩
  | recordTerminal =>
      refine .inr ⟨_, List.mem_singleton_self _, ?_⟩
      split <;> exact streams
  | streamObserved | streamForwarded | recordCheck | recordRepeated
  | recordEnded | recordAdvanced | recordProgress =>
      exact .inr ⟨_, List.mem_singleton_self _, streams⟩
  | streamClosed =>
      cases streams
      exact .inl rfl
  | runCancelled waiting =>
      rcases waiting with rfl | rfl | rfl <;> cases streams
  | _ => cases streams

/-! ## Runs -/

/-- Every entry of the execution says that its supervisor is the controller's
own. -/
def State.Owns (state : State) (executionId : String) : Prop :=
  ∀ id control, state.control id = some control →
    control.executionId = executionId → control.locallyOwned = true

theorem State.owns_iff {state : State} :
    state.Owns executionId ↔ ¬ state.Unowned executionId := by
  constructor
  · rintro owns ⟨id, control, hcontrol, hid, howned⟩
    rw [owns id control hcontrol hid] at howned
    cases howned
  · intro owned id control hcontrol hid
    by_contra howned
    exact owned ⟨id, control, hcontrol, hid, by simpa using howned⟩

theorem ControlAfter.unowned {after : State} {id : String} {changed : Control}
    (made : ControlAfter host answer situation after task)
    (found : after.control id = some changed)
    (unowned : changed.locallyOwned = false) :
    ∃ control, situation.state.control id = some control ∧
      control.executionId = changed.executionId ∧
      control.locallyOwned = false := by
  have written : ∀ {place : String} {change : Control → Control},
      State.Writes situation.state after place change →
      (∀ control, (change control).executionId = control.executionId ∧
        ((change control).locallyOwned = false →
          control.locallyOwned = false)) →
      ∃ control, situation.state.control id = some control ∧
        control.executionId = changed.executionId ∧
        control.locallyOwned = false := by
    rintro place change ⟨control, hbefore, hafter, hothers⟩ same
    by_cases hid : id = place
    · subst hid
      cases hafter.symm.trans found
      exact ⟨control, hbefore, (same control).1.symm, (same control).2 unowned⟩
    · exact ⟨changed, (hothers id hid).symm.trans found, rfl, unowned⟩
  cases made with
  | kept same => exact ⟨changed, (same id).symm.trans found, rfl, unowned⟩
  | @started _ place starts =>
      by_cases hid : id = place
      · subst hid
        cases starts.written.symm.trans found
        cases unowned
      · exact ⟨changed, (starts.others id hid).symm.trans found, rfl, unowned⟩
  | @removed _ place _ removes clears =>
      obtain ⟨-, hafter, hothers⟩ := clears
      by_cases hid : id = place
      · subst hid
        cases hafter.symm.trans found
      · exact ⟨changed, (hothers id hid).symm.trans found, rfl, unowned⟩
  | replaced _ _ _ writes => exact written writes fun _ => ⟨rfl, nofun⟩
  | stopped _ writes | detached _ _ writes | attached _ _ writes
  | progressed _ _ writes | launched _ writes =>
      exact written writes fun _ => ⟨rfl, fun h => h⟩

theorem Command.unowned {session : String} {id : String} {changed : Control}
    {command : Command}
    (found : (command.perform host session answer situation).state.control id =
      some changed)
    (unowned : changed.locallyOwned = false) :
    ∃ control, situation.state.control id = some control ∧
      control.executionId = changed.executionId ∧
      control.locallyOwned = false := by
  rcases @Command.control host session answer situation command with
    same | ⟨place, starts⟩ | ⟨place, kind, restartAfter, -, -, writes⟩ |
    ⟨-, -, all⟩
  · exact ⟨changed, (same id).symm.trans found, rfl, unowned⟩
  · exact (@ControlAfter.started host _ _ _ .startEnabled _ starts).unowned
      found unowned
  · obtain ⟨control, hbefore, hafter, hothers⟩ := writes
    by_cases hid : id = place
    · subst hid
      cases hafter.symm.trans found
      exact ⟨control, hbefore, rfl, unowned⟩
    · exact ⟨changed, (hothers id hid).symm.trans found, rfl, unowned⟩
  · obtain ⟨control, hcontrol, rfl⟩ :=
      Option.map_eq_some_iff.mp ((all id).symm.trans found)
    exact ⟨control, hcontrol, rfl, unowned⟩

theorem State.Clears.owns {before after : State} {id : String}
    (clears : State.Clears before after id executionId)
    (single : before.Single executionId) : after.Owns executionId := by
  obtain ⟨active, hafter, hothers⟩ := clears
  intro other control hcontrol hid
  by_cases hother : other = id
  · subst hother
    cases hafter.symm.trans hcontrol
  · have hentry := (hothers other hother).symm.trans hcontrol
    refine absurd (single other id ?_ active) hother
    rw [State.control_activeId hentry, hid]

theorem State.owns_replaced {state next : State} {id : String}
    {replacementAt : Nat} {wasRecovering : Bool}
    (single : state.Single executionId)
    (ticked : state.monitorTick executionId now replacementAt wasRecovering =
      (.replace id, next)) : next.Owns executionId := by
  rcases State.control_monitorTick ticked with
    ⟨-, hnone⟩ | ⟨place, control, -, hfound, habout, -, writes⟩
  · exact absurd rfl (hnone id)
  obtain ⟨written, hbefore, hafter, hothers⟩ := writes
  intro other changed hchanged hid
  by_cases hother : other = place
  · subst hother
    cases hafter.symm.trans hchanged
    rfl
  · have hentry := (hothers other hother).symm.trans hchanged
    exact absurd (single.control hentry hfound hid habout).1 hother

/-- A task of a run comes from one, or its execution is new or has just been
taken over. -/
theorem Section.runs_from
    (made : Section host session now answer situation task outcome)
    (hother : other ∈ outcome.tasks)
    (single : situation.state.Single executionId)
    (runs : other.runs = some executionId) :
    task.runs = some executionId ∨
      situation.database.executions.lookup executionId = none ∨
      outcome.state.Owns executionId := by
  cases made.succeeds hother with
  | returned calls returns =>
      rename_i caller
      cases caller <;> simp [Caller.tasks] at returns
      all_goals subst returns; cases runs
  | started starts occupies =>
      cases runs
      exact .inr (.inl occupies.unused)
  | monitorReplaces active =>
      cases runs
      cases made with
      | givesUp made =>
          cases made
          cases hother
      | monitorWaits => simp [Situation.leave] at hother
      | runCancelled waiting => simp at waiting
      | monitorReplaces ticked =>
          exact .inr (.inr (State.owns_replaced single ticked))
  | runFailed cases =>
      have howner := supervisorFailed_owner (ManagerTask.runs_owner runs)
      subst howner
      rcases cases with rfl | rfl <;> exact .inl rfl
  | runFinished cases =>
      cases runs
      rcases cases with rfl | rfl | rfl | ⟨cancelled, rfl⟩ <;> exact .inl rfl
  | runPrepared | runSpawned | runLaunching | runWaiting | runStops | runEnded
  | runStopped | runRetries | completeLoaded =>
      cases runs
      exact .inl rfl
  | _ => cases runs

end Sections

namespace World

variable {host : Host} {world next : World} {event : Event}
  {manager after : Manager} {executionId : String}

theorem Recorded.single (recorded : Recorded world.database manager) :
    manager.state.Single executionId :=
  fun _ _ one two => recorded.distinct one two

/-- Runs are of executions whose supervisors are the controller's own. -/
def OwnsRuns (world : World) : Prop :=
  ∀ manager, world.controller = some manager → ∀ task ∈ manager.tasks,
    ∀ executionId, task.runs = some executionId →
      manager.state.Owns executionId

/-- An execution with an entry that is not the controller's own has a row, and
no task of a run. -/
theorem OwnsRuns.unowned (reachable : Reachable host world)
    (held : OwnsRuns world) (running : world.controller = some manager)
    (unowned : manager.state.Unowned executionId) :
    world.database.executions.lookup executionId ≠ none ∧
      ∀ task ∈ manager.tasks, task.runs ≠ some executionId := by
  constructor
  · obtain ⟨id, control, hcontrol, rfl, -⟩ := unowned
    obtain ⟨row, hrow, -⟩ := (reachable.recorded manager running).entries id _
      (State.control_activeId hcontrol)
    simp [hrow]
  · intro task htask hruns
    exact State.owns_iff.mp (held manager running task htask _ hruns) unowned

theorem OwnsRuns.step (reachable : Reachable host world)
    (held : OwnsRuns world) (moved : step host world event = some next) :
    OwnsRuns next := by
  intro after runs task htask executionId hruns
  rw [State.owns_iff]
  rintro ⟨id, changed, hchanged, hid, howned⟩
  have made := step_moved moved
  have before : ∀ manager, world.controller = some manager →
      (∃ control, manager.state.control id = some control ∧
        control.executionId = changed.executionId ∧
        control.locallyOwned = false) →
      manager.state.Unowned executionId := by
    rintro manager running ⟨control, hcontrol, hsame, hunowned⟩
    exact ⟨id, control, hcontrol, hsame.trans hid, hunowned⟩
  cases made with
  | elapsed | processExited =>
      exact (held.unowned reachable runs
        ⟨id, changed, hchanged, hid, howned⟩).2 task htask hruns
  | controllerExited => cases runs
  | startup closed =>
      obtain ⟨state, -, rfl⟩ := Option.map_eq_some_iff.mp runs
      cases List.mem_singleton.mp htask
      cases hruns
  | attach running serving =>
      cases runs
      rcases List.mem_append.mp htask with htask | htask
      · exact (held.unowned reachable running
          ⟨id, changed, hchanged, hid, howned⟩).2 task htask hruns
      · obtain ⟨row, -, rfl⟩ := mem_attachTasks htask
        cases hruns
  | command running serving =>
      cases runs
      obtain ⟨hused, hfree⟩ := held.unowned reachable running
        (before _ running (Command.unowned hchanged howned))
      rcases List.mem_append.mp htask with htask | htask
      · exact hfree task htask hruns
      · cases Command.leaves htask with
        | started starts occupies =>
            cases hruns
            exact hused occupies.unused
        | _ => cases hruns
  | advance running found section' =>
      cases runs
      obtain ⟨hused, hfree⟩ := held.unowned reachable running
        (before _ running (section'.control.unowned hchanged howned))
      rcases List.mem_append.mp htask with htask | htask
      · exact hfree task (List.mem_of_mem_eraseIdx htask) hruns
      · rcases section'.runs_from htask
          (reachable.recorded _ running).single hruns with
          hkept | hunused | howns
        · exact hfree _ (List.mem_of_getElem? found) hkept
        · exact hused hunused
        · exact State.owns_iff.mp howns ⟨id, changed, hchanged, hid, howned⟩

theorem Reachable.ownsRuns (reachable : Reachable host world) :
    OwnsRuns world := by
  refine Reachable.invariant ?_ Runs.refl reachable ?_
  · exact fun world event next hreachable held _ moved =>
      held.step hreachable moved
  · intro manager running
    cases running

/-! ## Recovery monitors -/

theorem Reachable.returns (reachable : Reachable host world) :
    AllTasks ManagerTask.Returns world := by
  refine Reachable.invariant ?_ Runs.refl reachable ?_
  · intro world event next _ all _ moved after runs task htask
    cases step_taskFrom moved runs htask with
    | kept running before => exact all _ running task before
    | opened | attached => trivial
    | commanded running left =>
        exact (CommandLeaves.owner (Command.leaves left)).1
    | left running found advanced left =>
        exact (ManagerTask.advance_section advanced).returns
          (all _ running _ (List.mem_of_getElem? found)) left
  · intro manager running
    cases running

section Advance

variable {session : String} {now : Nat} {answer : Answer} {task : ManagerTask}
  {outcome : Outcome}

/-- A task of the recovery monitor leaves one while storage calls succeed, until
the execution is removed or taken over. -/
theorem monitors_advance (reachable : Reachable host world)
    (running : world.controller = some manager) (htask : task ∈ manager.tasks)
    (monitors : task.monitors = some executionId)
    (unowned : manager.state.Unowned executionId)
    (loaded : answer.stored = true ∨ (task ≠ .monitorLoad executionId ∧
      ∀ result, task ≠ .terminalLoad executionId result))
    (advanced : task.advance host session now answer
      (world.situation manager) = some outcome) :
    (∃ other ∈ outcome.tasks, other.monitors = some executionId) ∨
      outcome.state.Owns executionId := by
  have recorded := reachable.recorded manager running
  have single : manager.state.Single executionId := recorded.single
  obtain ⟨id, control, hcontrol, hid, howned⟩ := unowned
  have hactive : manager.state.activeId id = some executionId := by
    rw [State.control_activeId hcontrol, hid]
  have hrow := recorded.entries id executionId hactive
  cases task with
  | monitorLoad other =>
      cases monitors
      have hstored : answer.stored = true := by simpa using loaded
      obtain ⟨row, hrow, -⟩ := hrow
      have hfound : world.database.getExecution executionId = some row := hrow
      simp only [ManagerTask.advance, situation, hfound, hstored,
        Option.some.injEq] at advanced
      subst advanced
      exact .inl ⟨_, List.mem_singleton_self _, rfl⟩
  | monitorPoll other stored replacementAt wasRecovering =>
      cases monitors
      simp only [ManagerTask.advance] at advanced
      split at advanced <;> cases advanced
      · exact .inl ⟨_, List.mem_singleton_self _, rfl⟩
      · exact .inl ⟨_, List.mem_singleton_self _, rfl⟩
  | monitorTick other stored replacementAt wasRecovering =>
      cases monitors
      simp only [ManagerTask.advance] at advanced
      split at advanced <;> cases advanced
      · rename_i hgone
        exact absurd (congrArg Prod.fst hgone)
          (State.monitorTick_found hcontrol hid)
      · exact .inl ⟨_, List.mem_singleton_self _, rfl⟩
      · rename_i hreplaces
        exact .inr (State.owns_replaced single hreplaces)
  | terminalLoad other result =>
      cases monitors
      have hstored : answer.stored = true := by simpa using loaded
      obtain ⟨row, hrow, -⟩ := hrow
      have hfound : world.database.getExecution executionId = some row := hrow
      simp only [ManagerTask.advance, situation, hfound, hstored,
        Option.some.injEq] at advanced
      subst advanced
      exact .inl ⟨_, List.mem_singleton_self _, rfl⟩
  | terminalRemove other stored result =>
      cases monitors
      have hplace : id = stored.workloadId :=
        hrow.unique (recorded.tasks _ htask _ _ rfl)
      subst hplace
      simp only [ManagerTask.advance] at advanced
      split at advanced <;> cases advanced
      · rename_i hnone
        obtain ⟨active, hlookup, rfl⟩ := Option.map_eq_some_iff.mp hcontrol
        have hentry := State.entry_eq_some.mpr ⟨hlookup, hid⟩
        have hunowned : active.locallyOwned = false := howned
        simp [State.supervisorTerminal, situation, hentry, hunowned,
          Option.filter] at hnone
      · rename_i hremoved
        exact .inr ((State.control_supervisorTerminal hremoved).owns single)
  | _ => cases monitors

theorem dueWithin_advance {situation : Situation}
    (due : task.DueWithin now)
    (advanced : task.advance host session now answer situation = some outcome)
    {other : ManagerTask} (hother : other ∈ outcome.tasks) :
    other.DueWithin now := by
  cases (ManagerTask.advance_section advanced).succeeds hother with
  | returned calls returns =>
      rename_i caller
      cases caller <;> simp [Caller.tasks] at returns
      all_goals subst returns; trivial
  | monitorLoaded => exact Nat.le_refl _
  | monitorPolled => exact due
  | monitorWaits =>
      simp only [ManagerTask.advance] at advanced
      split at advanced <;> cases advanced
      · cases hother
      · rename_i hwaits
        cases List.mem_singleton.mp hother
        rcases State.monitorTick_due hwaits with rfl | rfl
        · exact due
        · exact Nat.le_refl _
      · cases List.mem_singleton.mp hother
  | runFailed =>
      simp only [supervisorFailed]
      split <;> trivial
  | _ => trivial

end Advance

theorem Reachable.dueWithin (reachable : Reachable host world) :
    AllTasks (ManagerTask.DueWithin world.now) world := by
  refine @Reachable.invariant host (fun _ _ => True)
    (fun world => AllTasks (ManagerTask.DueWithin world.now) world) _ _
    ?_ Runs.refl reachable ?_
  · intro world event next hreachable all _ moved after runs task htask
    have later : world.now ≤ next.now := by
      cases step_moved moved <;> simp [opened, settle]
    have kept : ∀ {task : ManagerTask}, task.DueWithin world.now →
        task.DueWithin next.now := by
      intro task due
      cases task <;> simp only [ManagerTask.DueWithin] at due ⊢
      all_goals omega
    cases step_taskFrom moved runs htask with
    | kept running before => exact kept (all _ running task before)
    | opened | attached => trivial
    | commanded running left => cases Command.leaves left <;> trivial
    | left running found advanced left =>
        exact kept (dueWithin_advance
          (all _ running _ (List.mem_of_getElem? found)) advanced left)
  · intro manager running
    cases running

end World

end Susm.Controller
