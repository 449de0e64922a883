import Susm.Controller.History
import Susm.Controller.SessionEnd

/-!
# Removed executions

The three ways in which an execution ends race for its entry.  The one that
removes it also learns whether a replacement is asked for, and either asks for
it at once or keeps that in a task.  A replacement that is still due and those
that have been asked for are therefore paid for by removals, and an execution
is removed once.
-/

namespace Susm.Controller

open Susm.Foundation

namespace ManagerTask

/-- A call of `start_replacement`. -/
def isReplacement : ManagerTask → Bool
  | .replacementKind .. => true
  | _ => false

/-- The execution has been removed, and its replacement is still due. -/
def owes (executionId : String) : ManagerTask → Bool
  | .terminalFinish removed _ _ _ restart => restart && removed = executionId
  | _ => false

/-- The sections that remove an execution or follow its removal. -/
def ends : ManagerTask → Bool
  | .terminalRemove .. | .terminalFinish .. | .recordTerminal ..
  | .completeRemove .. => true
  | _ => false

def isAbout (executionId : String) (task : ManagerTask) : Bool :=
  task.execution.any fun about => about.1 = executionId

def charges (executionId : String) (task : ManagerTask)
    (tasks : List ManagerTask) : Nat :=
  tasks.countP (owes executionId) +
    (tasks.any isReplacement && task.isAbout executionId).toNat

theorem charges_call {executionId : String} {task : ManagerTask}
    {tasks : List ManagerTask}
    (free : ∀ other ∈ tasks, other.owes executionId = false) :
    task.charges executionId tasks = 0 ∨
      (task.charges executionId tasks = 1 ∧
        tasks.any isReplacement = true ∧ task.isAbout executionId = true) := by
  have howes : tasks.countP (owes executionId) = 0 :=
    List.countP_eq_zero.mpr fun other hother => by simp [free other hother]
  unfold charges
  rw [howes]
  cases tasks.any isReplacement <;> cases task.isAbout executionId <;> simp

end ManagerTask

/-- A section removes the entry of an execution that is to be replaced. -/
structure RemovesFlagged (task : ManagerTask) (situation : Situation)
    (outcome : Outcome) (id executionId : String) : Prop where
  removes : task.removes = some (id, executionId)
  flag : situation.state.occupant id = some (executionId, true)
  goesOn : situation.state.sessionEnding = false
  empty : outcome.state.activeId id = none

section Sections

variable {host : Host} {session : String} {now : Nat} {answer : Answer}
  {situation : Situation} {outcome : Outcome} {task other : ManagerTask}
  {executionId : String}

theorem Section.plain
    (made : Section host session now answer situation task outcome)
    (plain : task.ends = false) (hother : other ∈ outcome.tasks) :
    other.owes executionId = false ∧ other.isReplacement = false := by
  cases made.succeeds hother with
  | terminalRemoved | terminalReplaced | recordReplaced | completeReplaced =>
      cases plain
  | @returned _ _ caller calls returns =>
      cases caller with
      | client => cases returns
      | startup | stream =>
          cases List.mem_singleton.mp returns
          exact ⟨rfl, rfl⟩
  | runFailed =>
      unfold supervisorFailed
      dsimp only
      split <;> exact ⟨rfl, rfl⟩
  | _ => exact ⟨rfl, rfl⟩

theorem Section.plain_charges
    (made : Section host session now answer situation task outcome)
    (plain : task.ends = false) :
    task.charges executionId outcome.tasks = 0 := by
  have howes : outcome.tasks.countP (ManagerTask.owes executionId) = 0 :=
    List.countP_eq_zero.mpr fun other hother => by
      simp [(made.plain plain hother).1]
  have hcalls : outcome.tasks.any ManagerTask.isReplacement = false :=
    List.any_eq_false.mpr fun other hother => by
      have free : other.owes executionId = false ∧
          other.isReplacement = false := made.plain plain hother
      simp [free.2]
  simp [ManagerTask.charges, howes, hcalls]

theorem removesFlagged {id : String} {active : ActiveExecution}
    (removes : task.removes = some (id, executionId))
    (found : situation.state.entry id executionId = some active)
    (restarts : (!situation.state.sessionEnding && active.restartAfter) = true)
    (empty : outcome.state.activeId id = none) :
    RemovesFlagged task situation outcome id executionId := by
  obtain ⟨hfound, hid⟩ := State.entry_eq_some.mp found
  rw [Bool.and_eq_true, Bool.not_eq_true'] at restarts
  refine ⟨removes, ?_, restarts.1, empty⟩
  simp [State.occupant, hfound, ActiveExecution.occupant, hid, restarts.2]

theorem Section.charges
    (made : Section host session now answer situation task outcome)
    (executionId : String) :
    task.charges executionId outcome.tasks ≤ (task.owes executionId).toNat ∨
      task.charges executionId outcome.tasks ≤ 1 ∧
        ∃ id, RemovesFlagged task situation outcome id executionId := by
  by_cases hplain : task.ends = false
  · rw [made.plain_charges hplain]
    exact .inl (Nat.zero_le _)
  cases task with
  | terminalRemove removed stored result =>
      cases made with
      | givesUp made =>
          cases made
          exact .inl (Nat.zero_le _)
      | runCancelled waiting => rcases waiting with h | h | h <;> cases h
      | @terminalRemoved _ _ _ name restart state hremoved =>
          by_cases hdue : restart = true ∧ removed = executionId
          · obtain ⟨rfl, rfl⟩ := hdue
            obtain ⟨active, hfilter, hnext⟩ := Option.map_eq_some_iff.mp hremoved
            obtain ⟨hentry, -⟩ := Option.filter_eq_some_iff.mp hfilter
            refine .inr ⟨?_, stored.workloadId, removesFlagged rfl hentry
              (Prod.mk.inj (Prod.mk.inj hnext).2).1
              (State.vacates_supervisorTerminal hremoved).2⟩
            simp [ManagerTask.charges, Situation.leave, ManagerTask.owes,
              ManagerTask.isReplacement]
          · left
            simp [ManagerTask.charges, Situation.leave, ManagerTask.owes,
              ManagerTask.isReplacement]
            exact fun h hid => hdue ⟨h, hid⟩
  | terminalFinish removed stored name result restart =>
      left
      cases made with
      | givesUp made =>
          cases made
          exact Nat.zero_le _
      | runCancelled waiting => rcases waiting with h | h | h <;> cases h
      | terminalFinished clock succeeded =>
          cases restart <;>
            simp [ManagerTask.charges, Situation.leave, ManagerTask.owes,
              ManagerTask.isReplacement, ManagerTask.isAbout,
              ManagerTask.execution]
  | recordTerminal attachmentId removed stored name =>
      cases made with
      | givesUp made => cases made
      | runCancelled waiting => rcases waiting with h | h | h <;> cases h
      | recordTerminal =>
          have free : ∀ other ∈ [if (situation.state.recordTerminal removed
                stored name).1 then ManagerTask.replacementKind
                  stored.workloadId (.stream attachmentId removed)
              else .stream attachmentId removed],
              other.owes executionId = false := by
            split <;> simp [ManagerTask.owes]
          rcases ManagerTask.charges_call free with
            hzero | ⟨hone, hcalls, habout⟩
          · exact .inl (hzero ▸ Nat.zero_le _)
          refine .inr ⟨hone.le, stored.workloadId, ?_⟩
          obtain rfl : removed = executionId := by
            simpa [ManagerTask.isAbout, ManagerTask.execution] using habout
          cases hentry : situation.state.entry stored.workloadId removed with
          | none =>
              simp [State.recordTerminal, hentry,
                ManagerTask.isReplacement] at hcalls
          | some active =>
              refine removesFlagged rfl hentry ?_ ?_
              · rw [← State.recordTerminal_restart name hentry]
                by_contra hkept
                simp [hkept, ManagerTask.isReplacement] at hcalls
              · simp [Situation.leave, Situation.withState, State.activeId_eq,
                  State.recordTerminal, hentry, State.occupant_removeActive]
  | completeRemove run finish =>
      cases made with
      | givesUp made => cases made
      | runCancelled waiting => rcases waiting with h | h | h <;> cases h
      | completeRemoved =>
          have free : ∀ other ∈ (if (situation.state.completeExecution
                run.workloadId run.executionId finish.state).1 then
              [ManagerTask.replacementKind run.workloadId .client] else []),
              other.owes executionId = false := by
            split <;> simp [ManagerTask.owes]
          rcases ManagerTask.charges_call free with
            hzero | ⟨hone, hcalls, habout⟩
          · exact .inl (hzero ▸ Nat.zero_le _)
          refine .inr ⟨hone.le, run.workloadId, ?_⟩
          obtain rfl : run.executionId = executionId := by
            simpa [ManagerTask.isAbout, ManagerTask.execution] using habout
          cases hentry : situation.state.entry run.workloadId
            run.executionId with
          | none => simp [State.completeExecution, hentry] at hcalls
          | some active =>
              refine removesFlagged rfl hentry ?_ ?_
              · rw [← State.completeExecution_restart finish.state hentry]
                by_contra hkept
                simp [hkept] at hcalls
              · simp [Situation.leave, Situation.withState, State.activeId_eq,
                  State.completeExecution, hentry, State.occupant_removeActive]
  | _ => exact absurd rfl hplain

end Sections

namespace World

variable {host : Host} {world next first : World} {event : Event}
  {manager after : Manager} {id executionId : String}
  {others : List ManagerTask}

/-! ## Entries -/

def occupied (executionId : String) (world : World) : Bool :=
  world.controller.any fun manager =>
    (manager.state.active.findEntry (·.executionId = executionId)).isSome

/-- The entry of the execution asks for a replacement, and the session goes
on. -/
def flagged (executionId : String) (world : World) : Bool :=
  world.controller.any fun manager => !manager.state.sessionEnding &&
    (manager.state.active.findEntry (·.executionId = executionId)).any
      fun entry => entry.2.restartAfter

theorem occupied_iff : world.occupied executionId = true ↔
    ∃ manager id, world.controller = some manager ∧
      manager.state.activeId id = some executionId := by
  unfold occupied
  cases running : world.controller with
  | none => simp
  | some manager =>
      simp only [Option.any_some, Option.some.injEq]
      constructor
      · intro h
        obtain ⟨⟨id, active⟩, hfound⟩ := Option.isSome_iff_exists.mp h
        obtain ⟨hlookup, hid⟩ := Map.findEntry_some hfound
        exact ⟨manager, id, rfl,
          State.activeId_eq_some.mpr ⟨active, hlookup, of_decide_eq_true hid⟩⟩
      · rintro ⟨other, id, rfl, hactive⟩
        obtain ⟨active, hlookup, hid⟩ := State.activeId_eq_some.mp hactive
        cases hfound : manager.state.active.findEntry
          (·.executionId = executionId) with
        | some found => rfl
        | none =>
            have hother := Map.findEntry_none hfound hlookup
            simp [hid] at hother

theorem activeId_unique (reachable : Reachable host world)
    (running : world.controller = some manager) {other : String}
    (one : manager.state.activeId id = some executionId)
    (two : manager.state.activeId other = some executionId) : id = other :=
  HasRow.unique ((reachable.recorded manager running).entries id _ one)
    ((reachable.recorded manager running).entries other _ two)

theorem flagged_of_occupant (reachable : Reachable host world)
    (running : world.controller = some manager)
    (flag : manager.state.occupant id = some (executionId, true))
    (goesOn : manager.state.sessionEnding = false) :
    world.flagged executionId = true := by
  have hactive : manager.state.activeId id = some executionId := by
    rw [State.activeId_eq, flag]
    rfl
  have hoccupied := occupied_iff.mpr ⟨manager, id, running, hactive⟩
  simp only [occupied, flagged, running, Option.any_some, goesOn] at hoccupied ⊢
  obtain ⟨⟨other, active⟩, hfound⟩ := Option.isSome_iff_exists.mp hoccupied
  obtain ⟨hlookup, hid⟩ := Map.findEntry_some hfound
  obtain rfl := activeId_unique reachable running hactive
    (State.activeId_eq_some.mpr ⟨active, hlookup, of_decide_eq_true hid⟩)
  simp only [State.occupant, hlookup, Option.map_some, Option.some.injEq,
    ActiveExecution.occupant, Prod.mk.injEq] at flag
  simp [hfound, flag.2]

theorem Moved.activeId_before (moved : Moved host world event next)
    (running : world.controller = some manager)
    (runs : next.controller = some after)
    (active : after.state.activeId id = some executionId) :
    manager.state.activeId id = some executionId ∨
      world.database.executions.lookup executionId = none := by
  have unused : ∀ {answer : Answer} {situation : Situation} {outcome : Outcome},
      situation.database = world.database →
      outcome.state.activeId id = some executionId →
      Occupies answer situation outcome id →
      world.database.executions.lookup executionId = none := by
    intro answer situation outcome hdatabase hactive occupies
    rw [State.activeId_eq, occupies.occupant] at hactive
    cases hactive
    exact hdatabase ▸ occupies.unused
  cases moved with
  | elapsed | processExited =>
      cases running.symm.trans runs
      exact .inl active
  | controllerExited => cases runs
  | startup closed => cases closed.symm.trans running
  | command controller serving =>
      cases running.symm.trans controller
      cases runs
      rcases Command.activeId _ id with hsame | ⟨-, occupies⟩
      · exact .inl (hsame.symm.trans active)
      · exact .inr (unused rfl active occupies)
  | attach controller serving =>
      cases running.symm.trans controller
      cases runs
      exact .inl active
  | advance controller found made =>
      cases running.symm.trans controller
      cases runs
      rcases (made.occupant id).entry active with hsame | ⟨-, occupies⟩
      · exact .inl hsame
      · exact .inr (unused rfl active occupies)

/-- An execution that is not active any more stays so while the controller
lives. -/
theorem vacant_step (moved : step host world event = some next)
    (goes : Goes world event) (known : Known world.database executionId)
    (vacant : world.occupied executionId = false) :
    next.occupied executionId = false := by
  by_contra hoccupied
  rw [Bool.not_eq_false] at hoccupied
  obtain ⟨after, id, runs, hactive⟩ := occupied_iff.mp hoccupied
  have made := step_moved moved
  have hvacant : ∀ manager, world.controller = some manager →
      manager.state.activeId id ≠ some executionId := by
    intro manager running hbefore
    have := occupied_iff.mpr ⟨manager, id, running, hbefore⟩
    simp [vacant] at this
  cases running : world.controller with
  | none =>
      cases made with
      | elapsed | processExited => cases running.symm.trans runs
      | controllerExited => cases runs
      | startup closed => cases goes
      | command controller | attach controller | advance controller =>
          cases running.symm.trans controller
  | some manager =>
      rcases made.activeId_before running runs hactive with hbefore | hunused
      · exact hvacant manager running hbefore
      · obtain ⟨workloadId, row, hrow, -⟩ := known
        cases hunused.symm.trans hrow

/-! ## Turns -/

def removed (executionId : String) (entry : Turn) : Bool :=
  entry.before.occupied executionId &&
    entry.reaction.state.controller.isSome &&
    !entry.reaction.state.occupied executionId

/-- The turn calls `start_replacement` for the execution. -/
def replaced (executionId : String) (entry : Turn) : Bool :=
  (entry.before.advancedTask entry.event).any
      (ManagerTask.isAbout executionId) &&
    entry.reaction.effects.any ManagerTask.isReplacement

/-- The replacements of removed executions that are still due. -/
def owed (executionId : String) (world : World) : Nat :=
  match world.controller with
  | some manager => manager.tasks.countP (ManagerTask.owes executionId)
  | none => 0

theorem countP_eraseIdx {tasks : List ManagerTask} {index : Nat}
    {task : ManagerTask} (found : tasks[index]? = some task)
    (condition : ManagerTask → Bool) :
    tasks.countP condition =
      (condition task).toNat + (tasks.eraseIdx index).countP condition := by
  obtain ⟨hindex, rfl⟩ := List.getElem?_eq_some_iff.mp found
  rw [← (List.getElem_cons_eraseIdx_perm hindex).countP_eq condition,
    List.countP_cons, Nat.add_comm]
  cases condition tasks[index] <;> rfl

theorem owed_settle {outcome : Outcome} :
    owed executionId (world.settle manager others outcome) =
      others.countP (ManagerTask.owes executionId) +
        outcome.tasks.countP (ManagerTask.owes executionId) :=
  List.countP_append

theorem removed_of_flagged {task : ManagerTask} {outcome : Outcome}
    {tasks : List ManagerTask} (reachable : Reachable host world)
    (running : world.controller = some manager)
    (moved : Moved host world event (world.settle manager others outcome))
    (flagged : RemovesFlagged task (world.situation manager) outcome id
      executionId) :
    removed executionId
      ⟨world, event, world.settle manager others outcome, tasks⟩ = true := by
  have hactive : manager.state.activeId id = some executionId := by
    rw [State.activeId_eq]
    exact congrArg (Option.map Prod.fst) flagged.flag
  have hvacant :
      (world.settle manager others outcome).occupied executionId = false := by
    by_contra hoccupied
    rw [Bool.not_eq_false] at hoccupied
    obtain ⟨next, other, runs, hafter⟩ := occupied_iff.mp hoccupied
    rcases moved.activeId_before running runs hafter with hbefore | hunused
    · obtain rfl := activeId_unique reachable running hactive hbefore
      cases runs
      cases flagged.empty.symm.trans hafter
    · obtain ⟨row, hrow, -⟩ :=
        (reachable.recorded manager running).entries id _ hactive
      cases hunused.symm.trans hrow
  rw [removed, hvacant, occupied_iff.mpr ⟨manager, id, running, hactive⟩]
  rfl

theorem owed_step (reachable : Reachable host world)
    (moved : step host world event = some next) (executionId : String) :
    let entry : Turn := ⟨world, event, next, produced host world event⟩
    owed executionId next + (replaced executionId entry).toNat ≤
      owed executionId world +
        (removed executionId entry && world.flagged executionId).toNat := by
  intro entry
  cases event with
  | elapse millis =>
      cases moved
      exact Nat.le_add_right _ _
  | processExited process =>
      cases moved
      exact Nat.le_add_right _ _
  | controllerExited =>
      cases moved
      exact Nat.zero_le _
  | startup session answers =>
      obtain ⟨-, rfl⟩ := step_startup moved
      refine le_trans (le_of_eq ?_) (Nat.zero_le _)
      simp only [entry, replaced, advancedTask, Option.any_none, Bool.false_and,
        owed]
      cases (openManager host session answers world.database).2 <;> rfl
  | command command answer =>
      obtain ⟨manager, running, -, rfl⟩ := step_command moved
      have hnone : (command.perform host manager.session answer
          (world.situation manager)).tasks.countP
            (ManagerTask.owes executionId) = 0 := by
        refine List.countP_eq_zero.mpr fun other hother => ?_
        cases Command.leaves hother <;> simp [ManagerTask.owes]
      rw [owed_settle, hnone]
      simp [entry, replaced, advancedTask, owed, running]
  | attach hello answer =>
      obtain ⟨manager, running, -, rfl⟩ := step_attach moved
      have hnone : (attachTasks world.database hello answer.stored).countP
            (ManagerTask.owes executionId) = 0 := by
        unfold attachTasks
        split
        · split <;> simp [ManagerTask.owes]
        · rfl
      rw [owed_settle]
      simp [entry, replaced, advancedTask, owed, running, Situation.leave, hnone]
  | advance index answer =>
      obtain ⟨manager, task, outcome, running, found, advanced, rfl⟩ :=
        step_advance moved
      have made := ManagerTask.advance_section advanced
      have hcharges : outcome.tasks.countP (ManagerTask.owes executionId) +
          (replaced executionId entry).toNat =
            task.charges executionId outcome.tasks := by
        simp [entry, replaced, advancedTask_eq running found,
          produced_advance running found advanced, ManagerTask.charges,
          Bool.and_comm]
      have howed : owed executionId world =
          (task.owes executionId).toNat + (manager.tasks.eraseIdx index).countP
            (ManagerTask.owes executionId) := by
        simp only [owed, running]
        exact countP_eraseIdx found _
      rw [owed_settle, howed]
      rcases made.charges executionId with hdue | ⟨hone, id, flagged⟩
      · omega
      · have hpaid : (removed executionId entry &&
            world.flagged executionId) = true := by
          rw [Bool.and_eq_true]
          exact ⟨removed_of_flagged reachable running
            (Moved.advance running found made) flagged,
            flagged_of_occupant reachable running flagged.flag flagged.goesOn⟩
        rw [hpaid, Bool.toNat_true]
        omega

/-! ## Histories -/

structure Accounted (executionId : String) (world : World)
    (history : List Turn) : Prop where
  once : history.countP (removed executionId) ≤ 1
  gone : history.countP (removed executionId) ≠ 0 →
    Known world.database executionId ∧ world.occupied executionId = false
  paid : owed executionId world + history.countP (replaced executionId) ≤
    history.countP fun entry =>
      removed executionId entry && entry.before.flagged executionId

theorem countP_concat {Item : Type} (condition : Item → Bool)
    (items : List Item) (item : Item) :
    (items ++ [item]).countP condition =
      items.countP condition + (condition item).toNat := by
  rw [List.countP_append, List.countP_singleton]
  cases condition item <;> rfl

theorem Accounted.step {history : List Turn} (reachable : Reachable host world)
    (held : Accounted executionId world history) (goes : Goes world event)
    (moved : World.step host world event = some next) :
    Accounted executionId next
      (history ++ [⟨world, event, next, produced host world event⟩]) := by
  have howed := owed_step reachable moved executionId
  generalize hentry : (⟨world, event, next, produced host world event⟩ : Turn) =
    entry at howed ⊢
  have hbefore : entry.before = world := by rw [← hentry]
  have hafter : entry.reaction.state = next := by rw [← hentry]
  have hpaid := held.paid
  constructor
  case paid =>
    rw [countP_concat, countP_concat, hbefore]
    dsimp only at howed
    omega
  case once =>
    rw [countP_concat]
    cases hremoved : removed executionId entry with
    | false => exact held.once
    | true =>
        have hnone : history.countP (removed executionId) = 0 := by
          by_contra hsome
          simp [removed, hbefore, (held.gone hsome).2] at hremoved
        rw [hnone]
        exact Nat.le_refl 1
  case gone =>
    intro hsome
    rw [countP_concat] at hsome
    cases hremoved : removed executionId entry with
    | false =>
        rw [hremoved] at hsome
        obtain ⟨hknown, hvacant⟩ := held.gone hsome
        exact ⟨known_step reachable moved hknown,
          vacant_step moved goes hknown hvacant⟩
    | true =>
        simp only [removed, Bool.and_eq_true, Bool.not_eq_true', hbefore,
          hafter] at hremoved
        obtain ⟨⟨hoccupied, -⟩, hvacant⟩ := hremoved
        obtain ⟨manager, id, running, hactive⟩ := occupied_iff.mp hoccupied
        exact ⟨known_step reachable moved
          ⟨id, (reachable.recorded manager running).entries id _ hactive⟩,
          hvacant⟩

/-! ## One controller -/

/--
How the executions of a controller end: an entry is removed by one of the three
paths, once, and none of them removes the entry of another execution;
`start_replacement` is called at most once for an execution, by the path that
has removed it, from an entry that asked for that while the session went on.
-/
structure ReplacesOnce (host : Host) (history : List Turn) : Prop where
  path : ∀ entry ∈ history, ∀ executionId,
    removed executionId entry = true →
    ∃ task id, entry.before.advancedTask entry.event = some task ∧
      task.removes = some (id, executionId)
  own : ∀ entry ∈ history, ∀ task id executionId,
    entry.before.advancedTask entry.event = some task →
    task.removes = some (id, executionId) →
    ∀ manager after other kept, entry.before.controller = some manager →
      entry.reaction.state.controller = some after → kept ≠ executionId →
      manager.state.activeId other = some kept →
      after.state.activeId other = some kept
  once : ∀ executionId, history.countP (removed executionId) ≤ 1
  called : ∀ entry ∈ history, ∀ id caller,
    .replacementKind id caller ∈ entry.reaction.effects →
    ∃ task executionId, entry.before.advancedTask entry.event = some task ∧
      task.execution = some (executionId, id)
  replaced : ∀ executionId, history.countP (replaced executionId) ≤ 1
  asked : ∀ before entry after executionId,
    history = before ++ entry :: after →
    World.replaced executionId entry = true →
    ∃ removal ∈ before ++ [entry], removed executionId removal = true ∧
      removal.before.flagged executionId = true

theorem Moved.removed_path (moved : Moved host world event next)
    {tasks : List ManagerTask}
    (gone : removed executionId ⟨world, event, next, tasks⟩ = true) :
    ∃ task id, world.advancedTask event = some task ∧
      task.removes = some (id, executionId) := by
  simp only [removed, Bool.and_eq_true, Bool.not_eq_true'] at gone
  obtain ⟨⟨hoccupied, hruns⟩, hvacant⟩ := gone
  obtain ⟨manager, id, running, hactive⟩ := occupied_iff.mp hoccupied
  obtain ⟨after, runs⟩ := Option.isSome_iff_exists.mp hruns
  cases moved.place running runs id with
  | kept same =>
      have := occupied_iff.mpr ⟨after, id, runs, same.trans hactive⟩
      simp [hvacant] at this
  | vacated removes active empty =>
      cases hactive.symm.trans active
      obtain ⟨task, htask, hremoves⟩ := Option.bind_eq_some_iff.mp removes
      exact ⟨task, id, htask, hremoves⟩
  | occupied starts idle => cases hactive.symm.trans idle

theorem Moved.removed_own (moved : Moved host world event next)
    {task : ManagerTask} (advanced : world.advancedTask event = some task)
    (removes : task.removes = some (id, executionId))
    (running : world.controller = some manager)
    (runs : next.controller = some after) {other kept : String}
    (apart : kept ≠ executionId)
    (active : manager.state.activeId other = some kept) :
    after.state.activeId other = some kept := by
  cases moved.place running runs other with
  | kept same => exact same.trans active
  | vacated gone before empty =>
      cases active.symm.trans before
      simp [World.removes, advanced, removes] at gone
      exact absurd gone.2.symm apart
  | occupied starts idle => cases active.symm.trans idle

theorem produced_replacement (moved : World.step host world event = some next)
    {caller : Caller}
    (calls : .replacementKind id caller ∈ produced host world event) :
    ∃ task executionId, world.advancedTask event = some task ∧
      task.execution = some (executionId, id) := by
  cases event with
  | command command answer =>
      obtain ⟨manager, running, -, -⟩ := step_command moved
      simp only [produced, running] at calls
      cases Command.leaves calls
  | attach hello answer =>
      simp only [produced, attachTasks] at calls
      split at calls
      · split at calls
        · cases List.mem_singleton.mp calls
        · cases calls
      · cases calls
  | advance index answer =>
      obtain ⟨manager, task, outcome, running, found, advanced, -⟩ :=
        step_advance moved
      rw [produced_advance running found advanced] at calls
      have made := ManagerTask.advance_section advanced
      cases hends : task.ends with
      | false =>
          have free : ManagerTask.owes "" (.replacementKind id caller) = false ∧
              (ManagerTask.replacementKind id caller).isReplacement = false :=
            made.plain hends calls
          cases free.2
      | true =>
          generalize hother : ManagerTask.replacementKind id caller = other
            at calls
          refine ⟨task, ?_⟩
          cases made.succeeds calls with
          | terminalReplaced | recordReplaced | completeReplaced =>
              cases hother
              exact ⟨_, advancedTask_eq running found, rfl⟩
          | @returned _ _ caller calls returns =>
              subst hother
              cases caller <;> simp [Caller.tasks] at returns
          | runFailed =>
              unfold supervisorFailed at hother
              dsimp only at hother
              split at hother <;> cases hother
          | _ => cases hother
  | _ => cases calls

theorem replaces_once {before : World} {session : String}
    {answers : List Answer} (reachable : Reachable host before)
    (opened : World.step host before (.startup session answers) = some first)
    {events : List Event} (goes : ∀ event ∈ events, event.isStartup = false) :
    ReplacesOnce host (turns host first events) := by
  have hfirst : Reachable host first := reachable.tail trivial opened
  have start : ∀ executionId, Accounted executionId first [] := by
    intro executionId
    refine ⟨Nat.zero_le _, fun h => absurd rfl h, ?_⟩
    obtain ⟨-, rfl⟩ := step_startup opened
    simp only [owed]
    cases (openManager host session answers before.database).2 <;> exact Nat.le_refl 0
  have keeps : ∀ executionId (world : World) (history : List Turn)
      (event : Event) (next : World), Reachable host world →
      Accounted executionId world history → event.isStartup = false →
      World.step host world event = some next →
      Accounted executionId next
        (history ++ [⟨world, event, next, produced host world event⟩]) :=
    fun _ _ _ _ _ reachable held goes moved => held.step reachable goes moved
  have held : ∀ executionId, Accounted executionId (reached host first events)
      (turns host first events) := fun executionId =>
    (turns_history (keeps executionId) hfirst (start executionId) goes).2
  have heldAt := fun executionId {before after} {entry : Turn} =>
    @turns_history_at host first _ _ (keeps executionId) hfirst
      (start executionId) events goes before after entry
  have turnAt : ∀ entry ∈ turns host first events, ∃ next,
      entry = ⟨entry.before, entry.event, next,
        produced host entry.before entry.event⟩ ∧
      World.step host entry.before entry.event = some next := by
    intro entry hentry
    obtain ⟨before, after, hsplit⟩ := List.append_of_mem hentry
    obtain ⟨next, hform, -, -, -, moved⟩ := heldAt "" hsplit
    exact ⟨next, hform, moved⟩
  constructor
  case path =>
    intro entry hentry executionId gone
    obtain ⟨next, hform, moved⟩ := turnAt entry hentry
    rw [hform] at gone
    exact (step_moved moved).removed_path gone
  case own =>
    intro entry hentry task id executionId advanced removes manager after other
      kept running runs apart active
    obtain ⟨next, hform, moved⟩ := turnAt entry hentry
    rw [hform] at runs
    exact (step_moved moved).removed_own advanced removes running runs apart
      active
  case once => exact fun executionId => (held executionId).once
  case called =>
    intro entry hentry id caller calls
    obtain ⟨next, hform, moved⟩ := turnAt entry hentry
    rw [hform] at calls
    exact produced_replacement moved calls
  case replaced =>
    intro executionId
    have hpaid := (held executionId).paid
    have honce := (held executionId).once
    have hflagged : (turns host first events).countP (fun entry =>
        removed executionId entry && entry.before.flagged executionId) ≤
          (turns host first events).countP (removed executionId) :=
      List.countP_mono_left fun entry _ h => (Bool.and_eq_true _ _ ▸ h).1
    omega
  case asked =>
    intro before entry after executionId hsplit hreplaced
    obtain ⟨next, hform, reachable, hheld, hgoes, moved⟩ :=
      heldAt executionId hsplit
    have hpaid := (hheld.step reachable hgoes moved).paid
    rw [← hform, countP_concat, hreplaced] at hpaid
    have hsome : 0 < (before ++ [entry]).countP fun entry =>
        removed executionId entry && entry.before.flagged executionId := by
      simp only [Bool.toNat_true] at hpaid
      omega
    obtain ⟨removal, hmem, hremoval⟩ := List.countP_pos_iff.mp hsome
    exact ⟨removal, hmem, (Bool.and_eq_true _ _).mp hremoval⟩

/-- The controller has been opened on empty tables. -/
def openedWorld : World :=
  worldAfter World.initial [.startup sampleSession []]

def restartedEvents : List Event :=
  (startupEvents [toolDefinition]).tail ++ startEvents "e1" 7 ++
    [restartEvent, .processExited 0, .advance 0 calm,
      .advance 0 { calm with result := some completedResult }] ++
    List.replicate 3 (.advance 0 calm)

theorem replaces_once_restarted :
    ReplacesOnce installation
        (turns installation openedWorld restartedEvents) ∧
      (turns installation openedWorld restartedEvents).countP
        (World.replaced "e1") = 1 := by
  have opened : World.step installation World.initial
      (.startup sampleSession []) = some openedWorld := rfl
  exact ⟨replaces_once Runs.refl opened (by decide +kernel), by decide +kernel⟩

end World

end Susm.Controller
