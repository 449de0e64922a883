import Susm.Controller.StopIntents
import Susm.Controller.Tokens

/-!
# Pending replacements

An execution that is removed is replaced when its entry asks for that and the
session is not ending.  A restart or a rerun raises the flag of the entry; a
stop or a cancellation leaves it as it is.
-/

namespace Susm.Controller

open Susm.Foundation
open Susm.Protocol

def ManagerTask.replacing : ManagerTask → Option String
  | .terminalFinish _ stored _ _ true => some stored.workloadId
  | .replacementKind workloadId _ | .replacementStart workloadId _ _ =>
      some workloadId
  | _ => none

namespace State

variable {state : State} {id executionId : String} {active : ActiveExecution}

theorem recordTerminal_restart {stored : StoredExecution}
    (outcome : StateName)
    (found : state.entry stored.workloadId executionId = some active) :
    (state.recordTerminal executionId stored outcome).1 =
      (!state.sessionEnding && active.restartAfter) := by
  simp [recordTerminal, found]

theorem completeExecution_restart (outcome : StateName)
    (found : state.entry id executionId = some active) :
    (state.completeExecution id executionId outcome).1 =
      (!state.sessionEnding && active.restartAfter) := by
  simp [completeExecution, found]

theorem supervisorTerminal_restart {stored : StoredExecution}
    {result : AttemptResult} {outcome : StateName} {restart : Bool}
    {next : State}
    (removed : state.supervisorTerminal executionId stored result =
      some (outcome, restart, next))
    (found : state.entry stored.workloadId executionId = some active) :
    restart = (!state.sessionEnding && active.restartAfter) := by
  obtain ⟨other, hfilter, hnext⟩ := Option.map_eq_some_iff.mp removed
  obtain ⟨hother, -⟩ := Option.filter_eq_some_iff.mp hfilter
  cases found.symm.trans hother
  exact (Prod.mk.inj (Prod.mk.inj hnext).2).1.symm

theorem cancel_refused {expectedKind : WorkloadKind} {restartAfter : Bool}
    (refused : ∀ view,
      (state.cancel id expectedKind restartAfter).1 ≠ .ok (true, view)) :
    (state.cancel id expectedKind restartAfter).2 = state := by
  unfold cancel at refused ⊢
  split
  · rfl
  rename_i record hrecord
  simp only [hrecord] at refused
  split
  · rfl
  rename_i hkind
  simp only [hkind] at refused
  split
  · rfl
  rename_i found hfound
  simp only [hfound] at refused
  exact absurd rfl (refused _)

end State

section Sections

variable {host : Host} {session : String} {now : Nat} {answer : Answer}
  {situation : Situation} {outcome : Outcome} {task : ManagerTask}

theorem Section.replacing
    (made : Section host session now answer situation task outcome)
    {id executionId : String} {active : ActiveExecution}
    (removes : task.removes = some (id, executionId))
    (found : situation.state.entry id executionId = some active)
    (empty : outcome.state.activeId id = none) :
    (∀ other ∈ outcome.tasks, other.replacing ≠ some id) ↔
      (situation.state.sessionEnding = true ∨ active.restartAfter = false) := by
  have hactive : situation.state.activeId id = some executionId :=
    State.activeId_eq_some.mpr ⟨active, State.entry_eq_some.mp found⟩
  have flag : ∀ {restart : Bool},
      restart = (!situation.state.sessionEnding && active.restartAfter) →
      (restart = false ↔ situation.state.sessionEnding = true ∨
        active.restartAfter = false) := by
    rintro restart rfl
    cases situation.state.sessionEnding <;> simp
  cases task with
  | terminalRemove removed stored result =>
      cases removes
      cases made with
      | givesUp made => cases hactive.symm.trans empty
      | runCancelled waiting => rcases waiting with h | h | h <;> cases h
      | terminalRemoved removed =>
          refine Iff.trans ?_ (flag (State.supervisorTerminal_restart removed found))
          rename_i restart _
          cases restart <;>
            simp [Situation.leave, ManagerTask.replacing]
  | recordTerminal attachmentId removed stored name =>
      cases removes
      cases made with
      | givesUp made => cases hactive.symm.trans empty
      | runCancelled waiting => rcases waiting with h | h | h <;> cases h
      | recordTerminal =>
          refine Iff.trans ?_ (flag (State.recordTerminal_restart name found))
          simp only [Situation.leave]
          split <;> simp_all [ManagerTask.replacing]
  | completeRemove run finish =>
      cases removes
      cases made with
      | givesUp made => cases hactive.symm.trans empty
      | runCancelled waiting => rcases waiting with h | h | h <;> cases h
      | completeRemoved =>
          refine Iff.trans ?_ (flag (State.completeExecution_restart finish.state found))
          simp only [Situation.leave]
          split <;> simp_all [ManagerTask.replacing]
  | _ => cases removes

end Sections

namespace World

variable {host : Host} {world next : World} {event : Event}
  {manager after : Manager} {id executionId : String} {flag : Bool}

/-! ## Flags -/

/-- The workload that an event cancels to start it again, if the cancellation
is accepted. -/
def restarts (world : World) (event : Event) : Option String :=
  world.controller.bind fun manager =>
    (world.cancellation event).bind fun (id, kind, restartAfter) =>
      match (manager.state.cancel id kind restartAfter).1, restartAfter with
      | .ok (true, _), true => some id
      | _, _ => none

/-- No restart and no rerun of the workload is accepted. -/
def NotRestarted (id : String) (world : World) (event : Event) : Prop :=
  world.restarts event ≠ some id

instance : DecidableRel (NotRestarted id) :=
  fun world event => inferInstanceAs (Decidable (world.restarts event ≠ _))

theorem restarts_eq {kind : WorkloadKind} {view : Workload}
    (running : world.controller = some manager)
    (cancels : world.cancellation event = some (id, kind, true))
    (accepted : (manager.state.cancel id kind true).1 = .ok (true, view)) :
    world.restarts event = some id := by
  simp [restarts, running, cancels, accepted]

theorem occupant_cancel_quiet {kind : WorkloadKind} {restartAfter : Bool}
    {workloadId : String} (running : world.controller = some manager)
    (quiet : world.restarts event ≠ some id)
    (cancels : world.cancellation event =
      some (workloadId, kind, restartAfter)) :
    (manager.state.cancel workloadId kind restartAfter).2.occupant id =
      manager.state.occupant id := by
  cases restartAfter with
  | false => exact State.occupant_cancel_false
  | true =>
      by_cases refused : ∀ view,
          (manager.state.cancel workloadId kind true).1 ≠ .ok (true, view)
      · rw [State.cancel_refused refused]
      · obtain ⟨view, accepted⟩ := not_forall_not.mp refused
        have restarts := restarts_eq running cancels accepted
        rcases State.occupant_cancel manager.state workloadId id kind true with
          hsame | ⟨rfl, -⟩
        · exact hsame
        · exact absurd restarts quiet

/-- An entry keeps its flag, or loses it with the session; a new entry has
none. -/
theorem Moved.occupant (moved : Moved host world event next)
    (running : world.controller = some manager)
    (runs : next.controller = some after)
    (quiet : world.restarts event ≠ some id)
    (found : after.state.occupant id = some (executionId, flag)) :
    manager.state.occupant id = some (executionId, flag) ∨
      (flag = false ∧ (after.state.sessionEnding = true ∨
        world.database.executions.lookup executionId = none)) := by
  have occupied : ∀ {answer : Answer} {situation : Situation}
      {outcome : Outcome}, situation.database = world.database →
      outcome.state.occupant id = some (executionId, flag) →
      Occupies answer situation outcome id →
      flag = false ∧
        world.database.executions.lookup executionId = none := by
    intro answer situation outcome hdatabase hfound occupies
    cases hfound.symm.trans occupies.occupant
    exact ⟨rfl, hdatabase ▸ occupies.unused⟩
  cases moved with
  | elapsed | processExited =>
      cases running.symm.trans runs
      exact .inl found
  | controllerExited => cases runs
  | startup closed => cases closed.symm.trans running
  | command controller serving =>
      rename_i command answer other
      cases running.symm.trans controller
      cases runs
      cases command with
      | startService workloadId | runJob workloadId =>
          rcases startSection_occupant host manager.session answer
            (world.situation manager) workloadId id _ _ _ [] with
            hsame | ⟨rfl, occupies⟩
          · exact .inl (hsame.symm.trans found)
          · exact .inr ((occupied rfl found occupies).imp_right .inr)
      | stopService | cancelJob | restartService =>
          exact .inl ((occupant_cancel_quiet running quiet rfl).symm.trans found)
      | endSession =>
          refine (State.occupant_endSession manager.state id).imp ?_ ?_
          · exact fun hsame => hsame.symm.trans found
          · intro hcleared
            obtain ⟨before, -, hpair⟩ :=
              Option.map_eq_some_iff.mp (hcleared.symm.trans found)
            exact ⟨(Prod.mk.inj hpair).2.symm,
              .inl (State.sessionEnding_endSession _)⟩
      | setEnabled workloadId enabled =>
          refine .inl ?_
          simp only [Command.perform] at found
          split at found <;> exact found
      | _ => exact .inl found
  | attach controller serving =>
      cases running.symm.trans controller
      cases runs
      exact .inl found
  | advance controller hfound made =>
      rename_i index answer other task outcome
      cases running.symm.trans controller
      cases runs
      cases made.occupant id with
      | kept same => exact .inl (same.symm.trans found)
      | vacated removes active empty => cases empty.symm.trans found
      | occupied starts occupies =>
          exact .inr ((occupied rfl found occupies).imp_right .inr)
      | raised rerun before raised =>
          subst rerun
          have cancels : world.cancellation (.advance index answer) =
              some (id, .job, true) := by
            simp only [cancellation, advancedTask_eq controller hfound]
          cases made with
          | givesUp made => cases made
          | runCancelled waiting => rcases waiting with h | h | h <;> cases h
          | rerunActive =>
              exact .inl
                ((occupant_cancel_quiet running quiet cancels).symm.trans found)

/-! ## Runs -/

/-- The entry of the execution does not ask for a replacement. -/
def Unflagged (id executionId : String) (world : World) : Prop :=
  ∀ manager flag, world.controller = some manager →
    manager.state.occupant id = some (executionId, flag) → flag = false

/-- The entry of the execution has its flag, unless the session is ending. -/
def Flagged (id executionId : String) (flag : Bool) (world : World) : Prop :=
  ∃ manager, world.controller = some manager ∧
    ∀ current, manager.state.occupant id = some (executionId, current) →
      current = flag ∨ manager.state.sessionEnding = true

theorem known_step (reachable : Reachable host world)
    (moved : step host world event = some next)
    (known : Known world.database executionId) :
    Known next.database executionId := by
  obtain ⟨workloadId, hrow⟩ := known
  exact ⟨workloadId, (step_moved moved).hasRow reachable.hasOutcome hrow⟩

theorem Unflagged.step (held : Unflagged id executionId world)
    (quiet : NotRestarted id world event)
    (moved : step host world event = some next) :
    Unflagged id executionId next := by
  intro after flag runs found
  cases running : world.controller with
  | some manager =>
      rcases (step_moved moved).occupant running runs quiet found with
        hbefore | ⟨hflag, -⟩
      · exact held manager flag running hbefore
      · exact hflag
  | none =>
      cases step_moved moved with
      | startup closed =>
          obtain ⟨state, hstate, rfl⟩ := Option.map_eq_some_iff.mp runs
          obtain ⟨active, hfound, hpair⟩ := Option.map_eq_some_iff.mp found
          obtain ⟨other, row, -, -, -, -, rfl⟩ := openManager_entry hstate hfound
          exact (Prod.mk.inj hpair).2.symm
      | elapsed | processExited => cases running.symm.trans runs
      | controllerExited => cases runs
      | command controller | attach controller | advance controller =>
          cases running.symm.trans controller

theorem Moved.sessionEnding (moved : Moved host world event next)
    (running : world.controller = some manager)
    (runs : next.controller = some after)
    (ending : manager.state.sessionEnding = true) :
    after.state.sessionEnding = true := by
  cases moved with
  | elapsed | processExited =>
      cases running.symm.trans runs
      exact ending
  | controllerExited => cases runs
  | startup closed => cases closed.symm.trans running
  | command controller serving =>
      cases running.symm.trans controller
      cases runs
      exact Command.sessionEnding _ ending
  | attach controller serving =>
      cases running.symm.trans controller
      cases runs
      exact ending
  | advance controller found made =>
      cases running.symm.trans controller
      cases runs
      exact made.sessionEnding.trans ending

theorem Moved.controller (moved : Moved host world event next)
    (running : world.controller = some manager)
    (lives : event ≠ .controllerExited) :
    ∃ after, next.controller = some after := by
  cases moved with
  | elapsed | processExited => exact ⟨manager, running⟩
  | controllerExited => exact absurd rfl lives
  | startup closed => cases closed.symm.trans running
  | command | attach | advance => exact ⟨_, rfl⟩

theorem Flagged.step (held : Flagged id executionId flag world)
    (known : Known world.database executionId)
    (quiet : NotRestarted id world event) (lives : event ≠ .controllerExited)
    (moved : step host world event = some next) :
    Flagged id executionId flag next := by
  obtain ⟨manager, running, hflag⟩ := held
  have made := step_moved moved
  obtain ⟨after, runs⟩ := made.controller running lives
  refine ⟨after, runs, ?_⟩
  intro current found
  rcases made.occupant running runs quiet found with
    hbefore | ⟨-, hending | hunused⟩
  · rcases hflag current hbefore with hsame | hending
    · exact .inl hsame
    · exact .inr (made.sessionEnding running runs hending)
  · exact .inr hending
  · obtain ⟨workloadId, row, hrow, -⟩ := known
    cases hunused.symm.trans hrow

/-- An entry keeps its flag while the controller lives, and a new controller
makes an entry without one. -/
theorem flag_after (reachable : Reachable host world) {last : World}
    (known : Known world.database executionId)
    {events : List Event}
    (executed : executeAdmitted (World.step host) (NotRestarted id) world
      events = some last) :
    (Unflagged id executionId world ∨ .controllerExited ∈ events →
        Unflagged id executionId last) ∧
      (Flagged id executionId flag world → .controllerExited ∉ events →
        Flagged id executionId flag last) := by
  induction events generalizing world with
  | nil =>
      cases executed
      refine ⟨?_, fun held _ => held⟩
      rintro (held | hexited)
      · exact held
      · cases hexited
  | cons event events ih =>
      unfold executeAdmitted at executed
      split at executed
      · rename_i quiet
        obtain ⟨next, moved, rest⟩ := Option.bind_eq_some_iff.mp executed
        obtain ⟨ihunflagged, ihflagged⟩ := ih (reachable.tail trivial moved)
          (known_step reachable moved known) rest
        constructor
        · rintro (held | hexited)
          · exact ihunflagged (.inl (held.step quiet moved))
          · rcases List.mem_cons.mp hexited with rfl | hexited
            · refine ihunflagged (.inl ?_)
              intro manager current runs
              cases moved
              cases runs
            · exact ihunflagged (.inr hexited)
        · intro held hlives
          refine ihflagged (held.step known quiet ?_ moved) ?_
          · exact fun h => hlives (h ▸ List.mem_cons_self)
          · exact fun h => hlives (List.mem_cons_of_mem _ h)
      · cases executed

/-! ## Terminations -/

/-- The active execution of a workload is removed by a section, on any of the
three paths. -/
structure Terminates (host : Host) (world : World) (manager : Manager)
    (id executionId : String) (outcome : Outcome) : Prop where
  running : world.controller = some manager
  removed : ∃ task ∈ manager.tasks, ∃ answer,
    task.removes = some (id, executionId) ∧
      task.advance host manager.session world.now answer
        (world.situation manager) = some outcome
  active : manager.state.activeId id = some executionId
  empty : outcome.state.activeId id = none

theorem Terminates.replacing {outcome : Outcome}
    (terminates : Terminates host world manager id executionId outcome) :
    ∃ flag, manager.state.occupant id = some (executionId, flag) ∧
      ((∀ task ∈ outcome.tasks, task.replacing ≠ some id) ↔
        (manager.state.sessionEnding = true ∨ flag = false)) := by
  obtain ⟨task, -, answer, hremoves, hadvanced⟩ := terminates.removed
  obtain ⟨active, hfound, hid⟩ := State.activeId_eq_some.mp terminates.active
  have hentry := State.entry_eq_some.mpr ⟨hfound, hid⟩
  refine ⟨active.restartAfter, ?_, ?_⟩
  · simp [State.occupant, hfound, ActiveExecution.occupant, hid]
  · exact (ManagerTask.advance_section hadvanced).replacing hremoves hentry
      terminates.empty

theorem Cancels.quiet {active : ActiveExecution}
    (cancels : Cancels world event manager id false active) (other : String) :
    NotRestarted other world event := by
  obtain ⟨kind, view, hcancels, -⟩ := cancels.accepted
  simp [NotRestarted, restarts, cancels.running, hcancels]

theorem Cancels.lives {restartAfter : Bool} {active : ActiveExecution}
    (cancels : Cancels world event manager id restartAfter active) :
    event ≠ .controllerExited := by
  rintro rfl
  obtain ⟨kind, view, hcancels, -⟩ := cancels.accepted
  cases hcancels

/--
When the last accepted command before an execution terminates is a stop or a
cancellation, its termination asks for no replacement if and only if none was
pending when that command was accepted, or the controller has been replaced, or
the session is ending.
-/
theorem replacement_revoked {accepted last : World} {lastManager : Manager}
    {active : ActiveExecution} {events : List Event} {outcome : Outcome}
    (reachable : Reachable host world)
    (cancels : Cancels world event manager id false active)
    (moved : step host world event = some accepted)
    (executed : executeAdmitted (World.step host) (NotRestarted id) accepted
      events = some last)
    (terminates : Terminates host last lastManager id active.executionId
      outcome) :
    (∀ task ∈ outcome.tasks, task.replacing ≠ some id) ↔
      active.restartAfter = false ∨ .controllerExited ∈ events ∨
        lastManager.state.sessionEnding = true := by
  have known : Known world.database active.executionId :=
    ⟨id, (reachable.recorded manager cancels.running).entries id _
      (State.activeId_eq_some.mpr ⟨active, cancels.found, rfl⟩)⟩
  have hoccupant : manager.state.occupant id =
      some (active.executionId, active.restartAfter) := by
    simp [State.occupant, cancels.found, ActiveExecution.occupant]
  have flagged : Flagged id active.executionId active.restartAfter world := by
    refine ⟨manager, cancels.running, fun current hcurrent => .inl ?_⟩
    exact (Prod.mk.inj (Option.some.inj (hcurrent.symm.trans hoccupant))).2
  have unflagged : active.restartAfter = false →
      Unflagged id active.executionId world := by
    intro hnone other current running hcurrent
    cases cancels.running.symm.trans running
    rw [hoccupant] at hcurrent
    exact (Prod.mk.inj (Option.some.inj hcurrent)).2.symm.trans hnone
  obtain ⟨hunflagged, hflagged⟩ := flag_after (reachable.tail trivial moved)
    (known_step reachable moved known) executed
  obtain ⟨flag, hlast, hreplacing⟩ := terminates.replacing
  rw [hreplacing]
  constructor
  · rintro (hending | hflag)
    · exact .inr (.inr hending)
    · by_cases hexited : Event.controllerExited ∈ events
      · exact .inr (.inl hexited)
      · obtain ⟨other, running, hkept⟩ := hflagged
          (flagged.step known (cancels.quiet id) cancels.lives moved) hexited
        cases terminates.running.symm.trans running
        rcases hkept flag hlast with hsame | hending
        · exact .inl (hsame.symm.trans hflag)
        · exact .inr (.inr hending)
  · rintro (hnone | hexited | hending)
    · refine .inr (hunflagged (.inl ?_) lastManager flag terminates.running hlast)
      exact (unflagged hnone).step (cancels.quiet id) moved
    · exact .inr (hunflagged (.inr hexited) lastManager flag terminates.running
        hlast)
    · exact .inl hending

/-! ## A restart that is not revoked -/

def asks (world : World) (event : Event) : Option String :=
  match event, world.advancedTask event with
  | .command (.startService id) _, _ | .command (.restartService id) _, _
  | .command (.runJob id) _, _ | .command (.rerunJob id) _, _ => some id
  | _, some (.rerunJob id _) => some id
  | _, _ => none

def NotAsked (id : String) (world : World) (event : Event) : Prop :=
  world.asks event ≠ some id

instance : DecidableRel (NotAsked id) :=
  fun world event => inferInstanceAs (Decidable (world.asks event ≠ _))

/-- The supervisor of `e1` ends with a result, which is stored. -/
def finishEvents : List Event :=
  [.processExited 0, .advance 0 calm,
    .advance 1 { calm with result := some completedResult }, .advance 1 calm,
    .advance 1 calm]

def restartedWorld : World := worldAfter attachedWorld [restartEvent]

/-- The tool is stopped, and its supervisor ends. -/
def revokedWorld : World :=
  worldAfter (worldAfter restartedWorld [stopEvent]) finishEvents

theorem restartedWorld_cancels :
    ∃ manager active, active.executionId = "e1" ∧
      Cancels restartedWorld stopEvent manager "tool" false active :=
  ⟨_, _, rfl, rfl, rfl, .service, _, rfl, rfl⟩

theorem revokedWorld_terminates :
    ∃ manager outcome,
      Terminates installation revokedWorld manager "tool" "e1" outcome ∧
      .replacementKind "tool" .client ∈ outcome.tasks := by
  refine ⟨_, _, ⟨rfl, ⟨_, List.mem_cons_of_mem _ List.mem_cons_self, calm,
    rfl, rfl⟩, rfl, rfl⟩, List.mem_singleton_self _⟩

theorem replacement_not_revoked :
    ¬ ∀ (host : Host) (world accepted last : World) (event : Event)
      (manager lastManager : Manager) (id : String) (active : ActiveExecution)
      (events : List Event) (outcome : Outcome),
      Reachable host world → Cancels world event manager id false active →
      step host world event = some accepted →
      executeAdmitted (World.step host) (NotAsked id) accepted events =
        some last →
      Terminates host last lastManager id active.executionId outcome →
      ∀ task ∈ outcome.tasks, task.replacing ≠ some id := by
  intro h
  have hreachable : Reachable installation restartedWorld :=
    attachedWorld_reachable.trans (runs_worldAfter (by decide +kernel))
  have hexecuted : executeAdmitted (World.step installation) (NotAsked "tool")
      (worldAfter restartedWorld [stopEvent]) finishEvents =
        some revokedWorld :=
    executed_worldAfter (by decide +kernel)
  obtain ⟨manager, active, hid, cancels⟩ := restartedWorld_cancels
  obtain ⟨lastManager, outcome, terminates, htask⟩ := revokedWorld_terminates
  exact h installation restartedWorld _ revokedWorld stopEvent manager
    lastManager "tool" active finishEvents outcome hreachable cancels rfl
    hexecuted (hid ▸ terminates) _ htask rfl

/-- The tool is only stopped. -/
theorem replacement_revoked_stopped :
    ∃ lastManager outcome,
      Terminates installation (worldAfter stoppedWorld finishEvents)
        lastManager "tool" "e1" outcome ∧
      ((∀ task ∈ outcome.tasks, task.replacing ≠ some "tool") ↔
        runningExecution.restartAfter = false ∨
          .controllerExited ∈ finishEvents ∨
          lastManager.state.sessionEnding = true) := by
  have hexecuted : executeAdmitted (World.step installation)
      (NotRestarted "tool") stoppedWorld finishEvents =
        some (worldAfter stoppedWorld finishEvents) :=
    executed_worldAfter (by decide +kernel)
  have terminates : ∃ lastManager outcome,
      Terminates installation (worldAfter stoppedWorld finishEvents)
        lastManager "tool" "e1" outcome :=
    ⟨_, _, ⟨rfl, ⟨_, List.mem_cons_of_mem _ List.mem_cons_self, calm,
      rfl, rfl⟩, rfl, rfl⟩⟩
  obtain ⟨lastManager, outcome, terminates⟩ := terminates
  exact ⟨lastManager, outcome, terminates,
    replacement_revoked attachedWorld_reachable attachedWorld_cancels
      attachedWorld_stops hexecuted terminates⟩

end World

end Susm.Controller
