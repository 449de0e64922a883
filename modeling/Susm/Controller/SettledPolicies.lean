import Susm.Controller.PolicySync

/-!
# Settled policies

The hash of a policy that is not pending counts as acknowledged, but not before
the first reload of the controller is done.  It comes to count by a start, by an
acknowledgement, or at the end of that reload.
-/

namespace Susm.Controller

open Susm.Foundation
open Susm.Protocol

/-! ## What counts as acknowledged -/

def reloadsFirst : ManagerTask → Bool
  | .initialReload | .replaceDefinitions _ _ .startup
  | .loadWorkloads .startup | .applyReload _ .startup
  | .keepReload .startup => true
  | _ => false

namespace State

variable {host : Host} {state : State} {executionId : String}
  {hash : List UInt8}

def synced (state : State) (executionId : String) :
    List (String × ActiveExecution) :=
  state.active.toList.filter fun entry =>
    entry.2.executionId = executionId ∧ !entry.2.policySyncPending

def settled (state : State) (executionId : String) : List (List UInt8) :=
  (state.synced executionId).map fun entry => entry.2.policyHash

def unchanged (host : Host) (state : State) (executionId : String) :
    List (List UInt8) :=
  ((state.synced executionId).filter fun entry =>
    ∀ definition ∈ state.definition entry.1,
      (policyUpdate host definition).policyHash = entry.2.policyHash).map
    fun entry => entry.2.policyHash

theorem mem_synced {id : String} {active : ActiveExecution} :
    (id, active) ∈ state.synced executionId ↔
      state.active.lookup id = some active ∧
        active.executionId = executionId ∧
        active.policySyncPending = false := by
  simp [synced, Map.mem_toList]

theorem mem_settled :
    hash ∈ state.settled executionId ↔
      ∃ id, state.belief id = some (executionId, hash, false) := by
  simp only [settled, List.mem_map, Prod.exists, mem_synced, belief_eq_some]
  constructor
  · rintro ⟨id, active, ⟨hfound, hexecution, hsynced⟩, hhash⟩
    exact ⟨id, active, hfound, hexecution, hhash, hsynced⟩
  · rintro ⟨id, active, hfound, hexecution, hhash, hsynced⟩
    exact ⟨id, active, ⟨hfound, hexecution, hsynced⟩, hhash⟩

theorem mem_unchanged :
    hash ∈ state.unchanged host executionId ↔
      ∃ id, state.belief id = some (executionId, hash, false) ∧
        ∀ definition ∈ state.definition id,
          (policyUpdate host definition).policyHash = hash := by
  simp only [unchanged, List.mem_map, List.mem_filter, Prod.exists, mem_synced,
    belief_eq_some, decide_eq_true_eq]
  constructor
  · rintro ⟨id, active, ⟨⟨hfound, hexecution, hsynced⟩, same⟩, rfl⟩
    exact ⟨id, ⟨active, hfound, hexecution, rfl, hsynced⟩, same⟩
  · rintro ⟨id, ⟨active, hfound, hexecution, rfl, hsynced⟩, same⟩
    exact ⟨id, active, ⟨⟨hfound, hexecution, hsynced⟩, same⟩, rfl⟩

theorem Agreed.unchanged (agreed : state.Agreed host)
    (settled : hash ∈ state.settled executionId) :
    hash ∈ state.unchanged host executionId := by
  obtain ⟨id, hbelief⟩ := mem_settled.mp settled
  refine mem_unchanged.mpr ⟨id, hbelief, fun definition hdefinition => ?_⟩
  exact (agreed id definition _ hdefinition hbelief).symm

/-- What a reload leaves acknowledged was so, under the hash of the
definition. -/
theorem unchanged_of_reconciled {after : State}
    (beliefs : ∀ id, after.belief id =
      (state.belief id).map (Belief.reconcile host (state.definition id)))
    (settled : hash ∈ after.settled executionId) :
    hash ∈ state.unchanged host executionId := by
  obtain ⟨id, hbelief⟩ := mem_settled.mp settled
  rw [beliefs] at hbelief
  obtain ⟨belief, hbefore, hreconciled⟩ := Option.map_eq_some_iff.mp hbelief
  obtain ⟨rfl, same⟩ := Belief.reconcile_settled hreconciled
  exact mem_unchanged.mpr ⟨id, hbefore, same⟩

end State

namespace World

variable {host : Host} {world next : World} {event : Event}
  {executionId : String} {hash : List UInt8}

/-- The hashes that count as acknowledged, which none does before the first
reload is done. -/
def settled (world : World) (executionId : String) : List (List UInt8) :=
  world.controller.elim [] fun manager =>
    if manager.tasks.any reloadsFirst then [] else
      manager.state.settled executionId

theorem mem_settled :
    hash ∈ world.settled executionId ↔ ∃ manager id,
      world.controller = some manager ∧
        manager.tasks.any reloadsFirst = false ∧
        manager.state.belief id = some (executionId, hash, false) := by
  unfold settled
  cases world.controller with
  | none => simp
  | some manager =>
      cases manager.tasks.any reloadsFirst <;> simp [State.mem_settled]

def abandons (world : World) (event : Event) : Bool :=
  match event, world.advancedTask event with
  | .advance _ answer, some .initialReload =>
      world.controller.any fun manager =>
        (reloadTasks answer.candidate manager.state .startup).1.isSome
  | .advance _ answer, some (.replaceDefinitions _ _ .startup)
  | .advance _ answer, some (.loadWorkloads .startup) => !answer.stored
  | _, _ => false

/-- The state at the end of the first reload, with the definitions that it
accepts and the hashes that it finds. -/
def reloaded (world : World) (event : Event) : Option State :=
  world.controller.bind fun manager =>
    match world.advancedTask event with
    | some (.applyReload persisted .startup) =>
        some (persisted.foldl State.insertWorkload manager.state)
    | some (.keepReload .startup) => some manager.state
    | _ => if world.abandons event then some manager.state else none

def confirms (world : World) (event : Event) :
    Option (String × List UInt8) :=
  world.controller.bind fun manager =>
    (world.advancedTask event).bind fun task =>
      task.acknowledges.bind fun (id, executionId, text) =>
        (manager.state.belief id).bind fun belief =>
          if belief.1 = executionId ∧ belief.2.2 ∧ hex belief.2.1 = text then
            some (executionId, belief.2.1)
          else none

/-- How a hash comes to count as acknowledged. -/
inductive SettlesPolicy (host : Host) (world : World) (event : Event)
    (executionId : String) (hash : List UInt8) : Prop where
  | kept (before : hash ∈ world.settled executionId)
  | confirmed (confirms : world.confirms event = some (executionId, hash))
  | begun (unused : world.database.executions.lookup executionId = none)
  | reloaded {state : State} (reloaded : world.reloaded event = some state)
      (settled : world.abandons event = true ∧
          hash ∈ state.settled executionId ∨
        hash ∈ state.unchanged host executionId)

theorem settles_of_begins {answer : Answer} {situation : Situation}
    {outcome : Outcome} {id : String}
    (begins : BeginsPolicy host answer situation outcome id)
    (tables : situation.database = world.database)
    (after : outcome.state.belief id = some (executionId, hash, false)) :
    SettlesPolicy host world event executionId hash := by
  obtain ⟨definition, -, hbegun⟩ := begins.begins
  cases hbegun.symm.trans after
  exact .begun (tables ▸ begins.unused)

/-! ### The first reload -/

theorem reloaded_task {state : State}
    (reloaded : world.reloaded event = some state) :
    ∃ task, world.advancedTask event = some task ∧
      reloadsFirst task = true := by
  obtain ⟨manager, -, reloaded⟩ := Option.bind_eq_some_iff.mp reloaded
  split at reloaded
  · exact ⟨_, ‹_›, rfl⟩
  · exact ⟨_, ‹_›, rfl⟩
  · split at reloaded
    · rename_i habandons
      unfold abandons at habandons
      split at habandons
      · exact ⟨_, ‹_›, rfl⟩
      · exact ⟨_, ‹_›, rfl⟩
      · exact ⟨_, ‹_›, rfl⟩
      · cases habandons
    · cases reloaded

section FirstReload

variable {manager : Manager} {index : Nat} {answer : Answer}
  {task : ManagerTask} {outcome : Outcome}

/-- What a section of the first reload does. -/
inductive FirstReload (host : Host) (world : World) (event : Event)
    (manager : Manager) (outcome : Outcome) : Prop where
  | goesOn {other : ManagerTask} (tasks : outcome.tasks = [other])
      (first : reloadsFirst other = true)
      (state : outcome.state = manager.state)
  | givenUp (abandons : world.abandons event = true)
      (reloaded : world.reloaded event = some manager.state)
      (tasks : outcome.tasks = [.startRecoveryMonitors])
      (state : outcome.state = manager.state)
  | reconciled {state : State} (reloaded : world.reloaded event = some state)
      (tasks : outcome.tasks = [.startRecoveryMonitors])
      (agreed : outcome.state.Agreed host)
      (beliefs : ∀ id, outcome.state.belief id =
        (state.belief id).map (Belief.reconcile host (state.definition id)))

theorem reloadTasks_accepted {candidate : Option Candidate} {state : State}
    {caller : Caller} {tasks : List ManagerTask}
    (accepted : reloadTasks candidate state caller = (none, tasks)) :
    ∃ generation definitions,
      tasks = [.replaceDefinitions generation definitions caller] := by
  unfold reloadTasks at accepted
  split at accepted
  · cases accepted
  · split at accepted
    · cases accepted
    · cases accepted
      exact ⟨_, _, rfl⟩

theorem reloadTasks_refused {candidate : Option Candidate} {state : State}
    {caller : Caller} {error : ManagerError} {tasks : List ManagerTask}
    (refused : reloadTasks candidate state caller = (some error, tasks)) :
    tasks = caller.tasks := by
  unfold reloadTasks at refused
  split at refused
  · cases refused
    rfl
  · split at refused
    · cases refused
      rfl
    · cases refused

theorem reloaded_of_abandons {event : Event}
    (running : world.controller = some manager)
    (advanced : world.advancedTask event = some task)
    (goesOn : task.reconciles = false)
    (abandons : world.abandons event = true) :
    world.reloaded event = some manager.state := by
  unfold reloaded
  rw [running, Option.bind_some, advanced]
  split
  · rename_i heq
    cases heq
    cases goesOn
  · rename_i heq
    cases heq
    cases goesOn
  · rw [if_pos abandons]

theorem firstReload (running : world.controller = some manager)
    (found : manager.tasks[index]? = some task)
    (first : reloadsFirst task = true)
    (advanced : task.advance host manager.session world.now answer
      (world.situation manager) = some outcome) :
    FirstReload host world (.advance index answer) manager outcome := by
  have htask := @advancedTask_eq world manager index answer task running found
  have reconciles : task.reconciles = true → outcome.state.Agreed host :=
    fun h => (ManagerTask.advance_section advanced).agreed (.inl h)
  have abandoned : task.reconciles = false →
      world.abandons (.advance index answer) = true →
      world.reloaded (.advance index answer) = some manager.state :=
    reloaded_of_abandons running htask
  unfold reloadsFirst at first
  split at first
  · cases advanced
    cases hcandidate : reloadTasks answer.candidate manager.state .startup with
    | mk refused tasks =>
        cases refused with
        | some error =>
            have habandons : world.abandons (.advance index answer) = true := by
              simp [abandons, htask, running, hcandidate]
            refine .givenUp habandons (abandoned rfl habandons) ?_ rfl
            exact (congrArg Prod.snd hcandidate).trans
              (reloadTasks_refused hcandidate)
        | none =>
            obtain ⟨generation, definitions, rfl⟩ :=
              reloadTasks_accepted hcandidate
            exact .goesOn (congrArg Prod.snd hcandidate) rfl rfl
  · cases hstored : answer.stored with
    | false =>
        simp only [ManagerTask.advance, hstored] at advanced
        cases advanced
        have habandons : world.abandons (.advance index answer) = true := by
          simp [abandons, htask, hstored]
        exact .givenUp habandons (abandoned rfl habandons) rfl rfl
    | true =>
        simp only [ManagerTask.advance, hstored, if_true] at advanced
        cases advanced
        refine .goesOn rfl ?_ rfl
        split <;> rfl
  · cases hstored : answer.stored with
    | false =>
        simp only [ManagerTask.advance, hstored] at advanced
        cases advanced
        have habandons : world.abandons (.advance index answer) = true := by
          simp [abandons, htask, hstored]
        exact .givenUp habandons (abandoned rfl habandons) rfl rfl
    | true =>
        simp only [ManagerTask.advance, hstored, if_true] at advanced
        cases advanced
        exact .goesOn rfl rfl rfl
  · rename_i persisted
    have agreed := reconciles rfl
    cases advanced
    refine @FirstReload.reconciled _ _ _ _ _
      (persisted.foldl State.insertWorkload manager.state) ?_ rfl agreed
      fun id => ?_
    · rw [reloaded, running, Option.bind_some, htask]
    · rw [State.belief_insertWorkloads, ← State.definition_applyReload]
      exact State.belief_applyReload id
  · have agreed := reconciles rfl
    cases advanced
    refine @FirstReload.reconciled _ _ _ _ _ manager.state ?_ rfl agreed
      fun id => State.belief_keepReload id
    rw [reloaded, running, Option.bind_some, htask]
  · cases first

end FirstReload

theorem reloadsFirst_succeeds {session : String} {now : Nat} {answer : Answer}
    {situation : Situation} {outcome : Outcome} {task other : ManagerTask}
    (made : Section host session now answer situation task outcome)
    (hother : other ∈ outcome.tasks) (first : reloadsFirst other = true) :
    reloadsFirst task = true := by
  cases made.succeeds hother with
  | returned calls returns =>
      rename_i caller
      cases caller with
      | client => cases returns
      | startup | stream =>
          cases List.mem_singleton.mp returns
          cases first
  | initialReload => rfl
  | @definitionsReplaced _ _ caller | @definitionsKept _ _ caller
  | @workloadsLoaded caller =>
      cases caller with
      | startup => rfl
      | client | stream => cases first
  | runFailed =>
      unfold supervisorFailed at first
      dsimp only at first
      split at first <;> cases first
  | _ => cases first

theorem advance_settled {manager : Manager} {index : Nat} {answer : Answer}
    {task : ManagerTask} {outcome : Outcome}
    (running : world.controller = some manager)
    (found : manager.tasks[index]? = some task)
    (advanced : task.advance host manager.session world.now answer
      (world.situation manager) = some outcome)
    (done : (manager.tasks.eraseIdx index ++ outcome.tasks).any reloadsFirst =
      false)
    (after : hash ∈ outcome.state.settled executionId) :
    SettlesPolicy host world (.advance index answer) executionId hash := by
  rw [List.any_append, Bool.or_eq_false_iff] at done
  cases first : reloadsFirst task with
  | true =>
      cases firstReload running found first advanced with
      | goesOn tasks hfirst =>
          rw [tasks, List.any_cons, hfirst] at done
          cases done.2
      | givenUp abandons reloaded tasks state =>
          exact .reloaded reloaded (.inl ⟨abandons, state ▸ after⟩)
      | reconciled reloaded tasks agreed beliefs =>
          exact .reloaded reloaded
            (.inr (State.unchanged_of_reconciled beliefs after))
  | false =>
      have before : manager.tasks.any reloadsFirst = false := by
        refine List.any_eq_false.mpr fun other hother hfirst => ?_
        by_cases hsame : other = task
        · rw [hsame, first] at hfirst
          cases hfirst
        · exact List.any_eq_false.mp done.1 other
            (mem_eraseIdx_of_ne found hother hsame) hfirst
      obtain ⟨id, hbelief⟩ := State.mem_settled.mp after
      cases (ManagerTask.advance_section advanced).belief id with
      | kept same =>
          exact .kept (mem_settled.mpr
            ⟨_, id, running, before, same.symm.trans hbelief⟩)
      | removed gone => cases gone.symm.trans hbelief
      | begun begins => exact settles_of_begins begins rfl hbelief
      | reconciled reconciles after =>
          obtain ⟨belief, hbefore, hreconciled⟩ :=
            Option.map_eq_some_iff.mp (after.symm.trans hbelief)
          obtain ⟨rfl, -⟩ := Belief.reconcile_settled hreconciled
          exact .kept (mem_settled.mpr ⟨_, id, running, before, hbefore⟩)
      | acknowledged acknowledges pending confirmed =>
          cases confirmed.symm.trans hbelief
          have hpending : manager.state.belief id =
            some (executionId, hash, true) := pending
          refine .confirmed ?_
          rw [confirms, running, Option.bind_some,
            advancedTask_eq running found, Option.bind_some, acknowledges,
            Option.bind_some]
          simp [hpending]

theorem step_settled (moved : step host world event = some next)
    (after : hash ∈ next.settled executionId) :
    SettlesPolicy host world event executionId hash := by
  obtain ⟨manager, id, runs, done, hbelief⟩ := mem_settled.mp after
  cases event with
  | elapse | processExited =>
      cases moved
      exact .kept (mem_settled.mpr ⟨manager, id, runs, done, hbelief⟩)
  | controllerExited =>
      cases moved
      cases runs
  | startup =>
      obtain ⟨-, rfl⟩ := step_startup moved
      obtain ⟨state, hstate, rfl⟩ := Option.map_eq_some_iff.mp runs
      cases done
  | command command answer =>
      obtain ⟨before, running, serving, rfl⟩ := step_command moved
      cases runs
      rw [List.any_append, Bool.or_eq_false_iff] at done
      rcases Command.belief command id with hsame | begins
      · exact .kept (mem_settled.mpr
          ⟨before, id, running, done.1, hsame.symm.trans hbelief⟩)
      · exact settles_of_begins begins rfl hbelief
  | attach hello answer =>
      obtain ⟨before, running, serving, rfl⟩ := step_attach moved
      cases runs
      rw [List.any_append, Bool.or_eq_false_iff] at done
      exact .kept (mem_settled.mpr ⟨before, id, running, done.1, hbelief⟩)
  | advance index answer =>
      obtain ⟨before, task, outcome, running, found, advanced, rfl⟩ :=
        step_advance moved
      cases runs
      exact advance_settled running found advanced done
        (State.mem_settled.mpr ⟨id, hbelief⟩)

theorem silent_of_settled (recorded : AllRecorded world) {manager : Manager}
    (running : world.controller = some manager)
    (settled : hash ∈ world.settled executionId) {command : ExecutionCommand}
    (sends : manager.state.Sends executionId command) :
    command.policy = none := by
  obtain ⟨other, id, hrunning, -, hbelief⟩ := mem_settled.mp settled
  cases running.symm.trans hrunning
  rw [← Option.not_isSome_iff_eq_none]
  intro hpolicy
  obtain ⟨second, active, hactive, hexecution, hpending⟩ := sends hpolicy
  have hsame : id = second := (recorded manager running).distinct
    (State.activeId_of_belief hbelief)
    (State.activeId_eq_some.mpr ⟨active, hactive, hexecution⟩)
  subst hsame
  obtain ⟨settledActive, hfound, -, -, hsettled⟩ :=
    State.belief_eq_some.mp hbelief
  cases hfound.symm.trans hactive
  rw [hsettled] at hpending
  cases hpending

end World

end Susm.Controller
