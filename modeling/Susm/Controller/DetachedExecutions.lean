import Susm.Controller.Monitors

/-!
# Executions without a supervisor

An execution that a new controller has found is supervised through the stream of
an attachment, or its recovery monitor is to act on it.  The monitor acts on the
state `recovering` alone, so that whatever writes another state while nothing is
attached leaves the execution to itself.
-/

namespace Susm.Controller

open Susm.Foundation
open Susm.Protocol

/-! ## Supervision -/

/-- Among the tasks is one for the stream of the attachment, or nothing is
attached and the execution is recovering. -/
inductive Supervision (tasks : List ManagerTask) (control : Control) :
    Prop where
  | attached {attachmentId : String} {task : ManagerTask}
      (attachment : control.attachmentId = some attachmentId)
      (htask : task ∈ tasks)
      (streams : task.streams = some (attachmentId, control.executionId)) :
      Supervision tasks control
  | recovering (detached : control.attachmentId = none)
      (state : control.state = .recovering) : Supervision tasks control

namespace Supervision

variable {tasks others : List ManagerTask} {control changed : Control}

theorem mono (held : Supervision tasks control)
    (subset : ∀ task ∈ tasks, task ∈ others) :
    Supervision others control := by
  cases held with
  | attached attachment htask streams =>
      exact .attached attachment (subset _ htask) streams
  | recovering detached state => exact .recovering detached state

theorem written (held : Supervision tasks control)
    (execution : changed.executionId = control.executionId)
    (attachment : changed.attachmentId = control.attachmentId)
    (state : control.attachmentId = none → changed.state = control.state) :
    Supervision tasks changed := by
  cases held with
  | attached attached htask streams =>
      exact .attached (attachment.trans attached) htask
        (execution ▸ streams)
  | recovering detached recovering =>
      exact .recovering (attachment.trans detached)
        ((state detached).trans recovering)

theorem advance {host : Host} {session : String} {now index : Nat}
    {answer : Answer} {situation : Situation} {task : ManagerTask}
    {outcome : Outcome} (held : Supervision tasks control)
    (found : tasks[index]? = some task)
    (made : Section host session now answer situation task outcome)
    (goesOn : ∀ attachmentId, control.attachmentId = some attachmentId →
      task ≠ .streamClosed attachmentId control.executionId) :
    Supervision (tasks.eraseIdx index ++ outcome.tasks) control := by
  cases held with
  | attached attachment htask streams =>
      rename_i attachmentId stream
      have passed : stream = task → ∃ other ∈ outcome.tasks,
          other.streams = some (attachmentId, control.executionId) := by
        rintro rfl
        exact (made.streams streams).resolve_left (goesOn _ attachment)
      have kept : ∃ other ∈ tasks.eraseIdx index ++ outcome.tasks,
          other.streams = some (attachmentId, control.executionId) :=
        exists_mem_replaced found htask streams passed
      obtain ⟨other, hother, hstreams⟩ := kept
      exact .attached attachment hother hstreams
  | recovering detached state => exact .recovering detached state

end Supervision

namespace State

variable {host : Host} {state next : State} {id executionId : String}

theorem supervisorDisconnected_detaches {attachmentId : String}
    {control : Control} (single : state.Single executionId)
    (found : state.control id = some control)
    (about : control.executionId = executionId)
    (unowned : control.locallyOwned = false)
    (attachment : control.attachmentId = some attachmentId)
    (goesOn : control.state ≠ .stopping) :
    (state.supervisorDisconnected executionId attachmentId).control id =
      some control.detached := by
  obtain ⟨active, hactive, rfl⟩ := Option.map_eq_some_iff.mp found
  unfold supervisorDisconnected
  split
  · rename_i hnone
    exact absurd about (of_decide_eq_false (Map.findEntry_none hnone hactive))
  · rename_i other entry hentry
    obtain ⟨hlookup, hid⟩ := Map.findEntry_some hentry
    obtain ⟨rfl, -⟩ := single.control found (control_of_lookup hlookup) about
      (of_decide_eq_true hid)
    cases hactive.symm.trans hlookup
    rw [if_neg]
    · rw [control_bump, control_setActive, if_pos rfl]
      rfl
    · simp only [ActiveExecution.control] at unowned attachment goesOn
      simp [unowned, attachment, goesOn]

theorem attachSupervisor_owned {hello : Hello} {stored : StoredExecution}
    {attachmentId : String} {locallyOwned : Bool}
    (attached : state.attachSupervisor host hello stored attachmentId =
      .ok (locallyOwned, next)) :
    ∃ control, state.control stored.workloadId = some control ∧
      control.locallyOwned = locallyOwned := by
  unfold attachSupervisor at attached
  split at attached
  · cases attached
  rename_i active hentry
  split at attached
  · cases attached
  split at attached
  · cases attached
  · cases attached
    exact ⟨_, control_of_lookup (entry_eq_some.mp hentry).1, rfl⟩

end State

namespace World

variable {host : Host} {world next : World} {event : Event}
  {manager after : Manager} {id executionId : String}

/-! ## What keeps the monitor from acting -/

def control (world : World) (executionId : String) : Option Control :=
  world.controller.bind fun manager =>
    (manager.state.active.findEntry (·.executionId = executionId)).map
      fun entry => entry.2.control

theorem control_eq (reachable : Reachable host world)
    (running : world.controller = some manager) {control : Control}
    (found : manager.state.control id = some control)
    (about : control.executionId = executionId) :
    world.control executionId = some control := by
  obtain ⟨active, hactive, rfl⟩ := Option.map_eq_some_iff.mp found
  simp only [World.control, running, Option.bind_some]
  cases hentry : manager.state.active.findEntry
      (·.executionId = executionId) with
  | none =>
      exact absurd about
        (of_decide_eq_false (Map.findEntry_none hentry hactive))
  | some entry =>
      obtain ⟨hlookup, hid⟩ := Map.findEntry_some hentry
      obtain ⟨-, hsame⟩ := (reachable.recorded manager running).single.control
        found (State.control_of_lookup hlookup) about (of_decide_eq_true hid)
      rw [Option.map_some, hsame]

/-- The execution is active, nothing is attached to it, and its supervisor is
not the controller's own. -/
def detached (world : World) (executionId : String) : Bool :=
  (world.control executionId).any fun control =>
    !control.locallyOwned && control.attachmentId.isNone

/-- The event puts the execution into the state `stopping`. -/
def halts (world : World) (executionId : String) (event : Event) : Bool :=
  world.controller.any fun manager =>
    match event, world.cancellation event with
    | .command .endSession _, _ => !manager.state.sessionEnding
    | _, some (id, kind, _) =>
        manager.state.isKind id kind &&
          manager.state.activeId id = some executionId
    | _, none => false

def closesStopping (world : World) (executionId : String) (event : Event) :
    Bool :=
  match world.advancedTask event with
  | some (.streamClosed attachmentId other) =>
      other = executionId && (world.control executionId).any fun control =>
        !control.locallyOwned && control.state = .stopping &&
          control.attachmentId = some attachmentId
  | _ => false

def recordsProgress (world : World) (executionId : String) (event : Event) :
    Bool :=
  match world.advancedTask event with
  | some (.recordProgress _ other _ observation) =>
      other = executionId && (progressObservation observation).isSome
  | _ => false

/-- The recovery monitor of the execution cannot read the row. -/
def losesMonitor (world : World) (executionId : String) (event : Event) :
    Bool :=
  match event, world.advancedTask event with
  | .advance _ answer, some (.monitorLoad other)
  | .advance _ answer, some (.terminalLoad other _) =>
      other = executionId && !answer.stored &&
        (world.control executionId).any fun control => !control.locallyOwned
  | _, _ => false

def KeepsMonitor (executionId : String) (world : World) (event : Event) :
    Prop :=
  world.losesMonitor executionId event = false

instance : DecidableRel (KeepsMonitor executionId) :=
  fun _ _ => inferInstanceAs (Decidable (_ = false))

/-- The execution is not stopped and makes no progress while nothing is attached
to it, and no attachment of it ends while it is stopping. -/
structure Tracks (executionId : String) (world : World) (event : Event) :
    Prop where
  detached : world.detached executionId = true →
    world.halts executionId event = false ∧
      world.recordsProgress executionId event = false
  closes : world.closesStopping executionId event = false
  keepsMonitor : KeepsMonitor executionId world event

instance : DecidableRel (Tracks executionId) :=
  fun world event => decidable_of_iff
    ((world.detached executionId = true →
        world.halts executionId event = false ∧
          world.recordsProgress executionId event = false) ∧
      world.closesStopping executionId event = false ∧
      KeepsMonitor executionId world event)
    ⟨fun h => ⟨h.1, h.2.1, h.2.2⟩,
      fun h => ⟨h.detached, h.closes, h.keepsMonitor⟩⟩

/-! ## The monitor is there -/

/-- The recovery monitor of an execution that is not the controller's own runs
or is about to be started. -/
def Monitored (executionId : String) (world : World) : Prop :=
  ∀ manager, world.controller = some manager →
    manager.state.Unowned executionId →
    ∃ task ∈ manager.tasks,
      task.opens = true ∨ task.monitors = some executionId

theorem unowned_before {answer : Answer} {task : ManagerTask}
    {outcome : Outcome}
    (made : Section host manager.session world.now answer
      (world.situation manager) task outcome)
    (unowned : outcome.state.Unowned executionId) :
    manager.state.Unowned executionId := by
  obtain ⟨id, changed, hchanged, hid, howned⟩ := unowned
  obtain ⟨control, hcontrol, hsame, hunowned⟩ :=
    made.control.unowned hchanged howned
  exact ⟨id, control, hcontrol, hsame.trans hid, hunowned⟩

theorem loses_eq {index : Nat} {answer : Answer} {task : ManagerTask}
    (reachable : Reachable host world)
    (keeps : KeepsMonitor executionId world (.advance index answer))
    (running : world.controller = some manager)
    (found : manager.tasks[index]? = some task)
    (unowned : manager.state.Unowned executionId) :
    answer.stored = true ∨ (task ≠ .monitorLoad executionId ∧
      ∀ result, task ≠ .terminalLoad executionId result) := by
  obtain ⟨id, control, hcontrol, hid, howned⟩ := unowned
  have hentry := control_eq reachable running hcontrol hid
  simp only [KeepsMonitor, losesMonitor, advancedTask_eq running found,
    hentry] at keeps
  by_cases hstored : answer.stored = true
  · exact .inl hstored
  · refine .inr ⟨?_, ?_⟩
    · rintro rfl
      simp [hstored, howned] at keeps
    · rintro result rfl
      simp [hstored, howned] at keeps

theorem Monitored.step (reachable : Reachable host world)
    (held : Monitored executionId world)
    (keeps : KeepsMonitor executionId world event)
    (moved : step host world event = some next) :
    Monitored executionId next := by
  intro after runs unowned
  cases event with
  | elapse | processExited =>
      cases moved
      exact held after runs unowned
  | controllerExited =>
      cases moved
      cases runs
  | startup =>
      obtain ⟨-, rfl⟩ := step_startup moved
      obtain ⟨state, -, rfl⟩ := Option.map_eq_some_iff.mp runs
      exact ⟨_, List.mem_singleton_self _, .inl rfl⟩
  | command command answer =>
      obtain ⟨manager, running, -, rfl⟩ := step_command moved
      cases runs
      obtain ⟨id, changed, hchanged, hid, howned⟩ := unowned
      obtain ⟨control, hcontrol, hsame, hunowned⟩ :=
        Command.unowned hchanged howned
      obtain ⟨task, htask, hmonitors⟩ := held manager running
        ⟨id, control, hcontrol, hsame.trans hid, hunowned⟩
      exact ⟨task, List.mem_append_left _ htask, hmonitors⟩
  | attach hello answer =>
      obtain ⟨manager, running, -, rfl⟩ := step_attach moved
      cases runs
      obtain ⟨task, htask, hmonitors⟩ := held manager running unowned
      exact ⟨task, List.mem_append_left _ htask, hmonitors⟩
  | advance index answer =>
      obtain ⟨manager, advanced, outcome, running, found, hadvanced, rfl⟩ :=
        step_advance moved
      cases runs
      have made := ManagerTask.advance_section hadvanced
      have hbefore := unowned_before made unowned
      have hmem := List.mem_of_getElem? found
      obtain ⟨task, htask, hmonitors⟩ := held manager running hbefore
      refine exists_mem_replaced found htask hmonitors ?_
      rintro rfl
      rcases hmonitors with hopens | hmonitors
      · rcases ManagerTask.opens_iff.mp hopens with rfl | hcalls
        · obtain ⟨id, control, hcontrol, rfl, howned⟩ := hbefore
          obtain ⟨active, hactive, rfl⟩ := Option.map_eq_some_iff.mp hcontrol
          cases hadvanced
          refine ⟨.monitorLoad active.executionId, ?_, .inr rfl⟩
          refine List.mem_cons_of_mem _ (List.mem_map_of_mem ?_)
          refine List.mem_map.mpr ⟨(id, active), ?_, rfl⟩
          have hunowned : active.locallyOwned = false := howned
          exact List.mem_filter.mpr
            ⟨Map.mem_toList.mpr hactive, by simp [hunowned]⟩
        · obtain ⟨other, hother, hopens⟩ := made.opens_single
            (reachable.returns manager running _ hmem) hcalls
          exact ⟨other, hother ▸ List.mem_singleton_self _, .inl hopens⟩
      · rcases monitors_advance reachable running hmem hmonitors hbefore
          (loses_eq reachable keeps running found hbefore) hadvanced with
          ⟨other, hother, hmonitors⟩ | howns
        · exact ⟨other, hother, .inr hmonitors⟩
        · exact absurd unowned (State.owns_iff.mp howns)

/-! ## The execution is supervised, or recovering -/

/-- An entry of the execution that is not the controller's own is supervised
through a stream or recovering. -/
def Attended (executionId : String) (world : World) : Prop :=
  ∀ manager, world.controller = some manager →
    ∀ id control, manager.state.control id = some control →
      control.executionId = executionId → control.locallyOwned = false →
      Supervision manager.tasks control

section Entries

variable {control changed : Control} {answer : Answer}

theorem detached_iff (reachable : Reachable host world)
    (running : world.controller = some manager)
    (hcontrol : manager.state.control id = some control)
    (about : control.executionId = executionId)
    (unowned : control.locallyOwned = false) :
    world.detached executionId = true ↔ control.attachmentId = none := by
  simp [World.detached, control_eq reachable running hcontrol about, unowned]

theorem startup_entry (reachable : Reachable host world) {session : String}
    {answers : List Answer}
    (moved : step host world (.startup session answers) = some next)
    (runs : next.controller = some after)
    (hcontrol : after.state.control id = some control) :
    control.attachmentId = none ∧ control.state = .recovering := by
  obtain ⟨-, rfl⟩ := step_startup moved
  obtain ⟨state, hopened, rfl⟩ := Option.map_eq_some_iff.mp runs
  obtain ⟨active, hactive, rfl⟩ := Option.map_eq_some_iff.mp hcontrol
  refine ⟨?_, (reachable.opened_recovering hopened hactive).1⟩
  obtain ⟨execution, row, -, -, -, -, rfl⟩ := openManager_entry hopened hactive
  rfl

theorem command_entry {command : Command} (reachable : Reachable host world)
    (tracks : Tracks executionId world (.command command answer))
    (running : world.controller = some manager)
    (hcontrol : manager.state.control id = some control)
    (about : control.executionId = executionId)
    (unowned : control.locallyOwned = false)
    (hchanged : (command.perform host manager.session answer
      (world.situation manager)).state.control id = some changed) :
    changed = control ∨
      (control.attachmentId ≠ none ∧ changed = control.stopped) := by
  have hdetached := detached_iff reachable running hcontrol about unowned
  have halts : world.halts executionId (.command command answer) = true →
      control.attachmentId ≠ none := by
    intro hhalts hnone
    have hquiet := (tracks.detached (hdetached.mpr hnone)).1
    rw [hhalts] at hquiet
    cases hquiet
  rcases @Command.control host manager.session answer
    (world.situation manager) command with
    same | ⟨place, starts⟩ | ⟨place, kind, restartAfter, hcancels, hkind,
      writes⟩ | ⟨rfl, hgoes, all⟩
  · exact .inl (Option.some.inj
      (hchanged.symm.trans ((same id).trans hcontrol)))
  · have hother : id ≠ place := by
      rintro rfl
      cases starts.idle.symm.trans hcontrol
    exact .inl (Option.some.inj
      (hchanged.symm.trans ((starts.others id hother).trans hcontrol)))
  · rcases writes.cases hcontrol hchanged with hsame | ⟨rfl, hstopped⟩
    · exact .inl hsame
    · refine .inr ⟨halts ?_, hstopped⟩
      have hactive : manager.state.activeId id = some executionId := by
        rw [State.control_activeId hcontrol, about]
      have hkind : manager.state.isKind id kind = true := hkind
      cases command <;> cases hcancels
      all_goals simp [World.halts, running, cancellation, hkind, hactive]
  · have hstopped := (all id).symm.trans hchanged
    rw [show (world.situation manager).state.control id = some control
      from hcontrol, Option.map_some, Option.some.injEq] at hstopped
    refine .inr ⟨halts ?_, hstopped.symm⟩
    have hgoes : manager.state.sessionEnding = false := hgoes
    simp [World.halts, running, hgoes]

/-- What the next section of a task does to an entry. -/
inductive EntryAfter (host : Host) (answer : Answer) (state : State)
    (task : ManagerTask) (outcome : Outcome) (control changed : Control) :
    Prop where
  | kept (same : changed = control)
  | detached (attached : control.attachmentId ≠ none)
      (same : changed = control.detached)
  | attached {attachmentId : String}
      (attaches : task.attaches host answer state = some control.executionId)
      (execution : changed.executionId = control.executionId)
      (attachment : changed.attachmentId = some attachmentId)
      (stream : .stream attachmentId control.executionId ∈ outcome.tasks)
  | stated {name : StateName} (attached : control.attachmentId ≠ none)
      (same : changed = { control with state := name })

variable {index : Nat} {task : ManagerTask} {outcome : Outcome}

/-- The next section does not close the attachment, or it makes the execution
recovering. -/
theorem closes_entry (reachable : Reachable host world)
    (tracks : Tracks executionId world (.advance index answer))
    (running : world.controller = some manager)
    (found : manager.tasks[index]? = some task)
    (advanced : task.advance host manager.session world.now answer
      (world.situation manager) = some outcome)
    (hcontrol : manager.state.control id = some control)
    (about : control.executionId = executionId)
    (unowned : control.locallyOwned = false) :
    (∀ attachmentId, control.attachmentId = some attachmentId →
      task ≠ .streamClosed attachmentId control.executionId) ∨
      outcome.state.control id = some control.detached := by
  by_contra hcloses
  simp only [not_or, not_forall, not_not] at hcloses
  obtain ⟨⟨attachmentId, hattachment, rfl⟩, hkept⟩ := hcloses
  subst about
  have hentry := control_eq reachable running hcontrol rfl
  have hcloses := tracks.closes
  simp only [closesStopping, advancedTask_eq running found, hentry] at hcloses
  have hstate : control.state ≠ .stopping := by
    intro hstopping
    simp [unowned, hattachment, hstopping] at hcloses
  cases advanced
  exact hkept (State.supervisorDisconnected_detaches
    (reachable.recorded manager running).single hcontrol rfl unowned
    hattachment hstate)

theorem attached_entry {hello : Hello} {stored : StoredExecution}
    (accepted : ∃ result, manager.state.attachSupervisor host hello stored
      answer.uuid = .ok result)
    (advanced : (ManagerTask.attachSupervisor hello stored).advance host
      manager.session world.now answer (world.situation manager) = some outcome)
    (hcontrol : manager.state.control stored.workloadId = some control)
    (unowned : control.locallyOwned = false) :
    ManagerTask.attaches host answer manager.state
        (.attachSupervisor hello stored) = some hello.executionId ∧
      .stream answer.uuid hello.executionId ∈ outcome.tasks := by
  obtain ⟨⟨locallyOwned, next⟩, haccepted⟩ := accepted
  obtain ⟨entry, hentry, howned⟩ := State.attachSupervisor_owned haccepted
  cases hentry.symm.trans hcontrol
  rw [unowned] at howned
  subst howned
  refine ⟨by simp only [ManagerTask.attaches, haccepted], ?_⟩
  have haccepted : (world.situation manager).state.attachSupervisor host hello
    stored answer.uuid = .ok (false, next) := haccepted
  simp only [ManagerTask.advance, haccepted] at advanced
  split at advanced <;> cases advanced
  exact List.mem_singleton_self _

theorem advance_entry (reachable : Reachable host world)
    (tracks : Tracks executionId world (.advance index answer))
    (running : world.controller = some manager)
    (found : manager.tasks[index]? = some task)
    (advanced : task.advance host manager.session world.now answer
      (world.situation manager) = some outcome)
    (hcontrol : manager.state.control id = some control)
    (about : control.executionId = executionId)
    (unowned : control.locallyOwned = false)
    (hchanged : outcome.state.control id = some changed)
    (still : changed.locallyOwned = false) :
    EntryAfter host answer manager.state task outcome control changed := by
  have hdetached := detached_iff reachable running hcontrol about unowned
  have hactive : manager.state.activeId id = some executionId := by
    rw [State.control_activeId hcontrol, about]
  have same : outcome.state.control id = manager.state.control id →
      changed = control := fun h =>
    Option.some.inj (hchanged.symm.trans (h.trans hcontrol))
  cases (ManagerTask.advance_section advanced).control with
  | kept hsame => exact .kept (same (hsame id))
  | @started _ place starts =>
      refine .kept (same (starts.others id ?_))
      rintro rfl
      cases starts.idle.symm.trans hcontrol
  | @removed _ place removed removes clears =>
      refine .kept (same (clears.2.2 id ?_))
      rintro rfl
      cases clears.2.1.symm.trans hchanged
  | stopped kind writes =>
      rcases writes.cases hcontrol hchanged with hsame | ⟨rfl, hstopped⟩
      · exact .kept hsame
      · refine .stated (fun hnone => ?_) hstopped
        have hquiet := (tracks.detached (hdetached.mpr hnone)).1
        have hkind : manager.state.isKind id .job = true := kind
        simp [World.halts, running, cancellation,
          advancedTask_eq running found, hkind, hactive] at hquiet
  | detached hfound ends writes =>
      rcases writes.cases hcontrol hchanged with hsame | ⟨rfl, hdetached⟩
      · exact .kept hsame
      · cases hfound.symm.trans hcontrol
        exact .detached (by simp [ends.2.2.2]) hdetached
  | replaced hfound habout recovering writes =>
      rcases writes.cases hcontrol hchanged with hsame | ⟨rfl, rfl⟩
      · exact .kept hsame
      · cases still
  | @attached hello stored accepted active writes =>
      rcases writes.cases hcontrol hchanged with hsame | ⟨rfl, rfl⟩
      · exact .kept hsame
      · have hid := Option.some.inj
          (active.symm.trans (State.control_activeId hcontrol))
        obtain ⟨hattaches, hstream⟩ :=
          attached_entry accepted advanced hcontrol unowned
        exact .attached (hid ▸ hattaches) rfl rfl (hid ▸ hstream)
  | progressed observed active writes =>
      rcases writes.cases hcontrol hchanged with hsame | ⟨rfl, hstated⟩
      · exact .kept hsame
      · refine .stated (fun hnone => ?_) hstated
        have hquiet := (tracks.detached (hdetached.mpr hnone)).2
        cases hactive.symm.trans active
        simp [World.recordsProgress, advancedTask_eq running found, observed]
          at hquiet
  | launched active writes =>
      rcases writes.cases hcontrol hchanged with hsame | ⟨rfl, rfl⟩
      · exact .kept hsame
      · cases hactive.symm.trans active
        have howns := reachable.ownsRuns manager running _
          (List.mem_of_getElem? found) _ rfl _ control hcontrol about
        rw [unowned] at howns
        cases howns

end Entries

theorem Attended.step (reachable : Reachable host world)
    (held : Attended executionId world)
    (tracks : Tracks executionId world event)
    (moved : step host world event = some next) :
    Attended executionId next := by
  intro after runs id changed hchanged about still
  cases event with
  | elapse | processExited =>
      cases moved
      exact held after runs id changed hchanged about still
  | controllerExited =>
      cases moved
      cases runs
  | startup =>
      obtain ⟨hnone, hrecovering⟩ := startup_entry reachable moved runs hchanged
      exact .recovering hnone hrecovering
  | command command answer =>
      obtain ⟨manager, running, -, rfl⟩ := step_command moved
      cases runs
      obtain ⟨control, hcontrol, hsame, howned⟩ :=
        Command.unowned hchanged still
      have hid := hsame.trans about
      refine Supervision.mono ?_ fun task htask => List.mem_append_left _ htask
      have before := held manager running id control hcontrol hid howned
      rcases command_entry reachable tracks running hcontrol hid howned
        hchanged with rfl | ⟨hattached, rfl⟩
      · exact before
      · exact before.written rfl rfl fun hnone => absurd hnone hattached
  | attach hello answer =>
      obtain ⟨manager, running, -, rfl⟩ := step_attach moved
      cases runs
      exact (held manager running id changed hchanged about still).mono
        fun task htask => List.mem_append_left _ htask
  | advance index answer =>
      obtain ⟨manager, task, outcome, running, found, advanced, rfl⟩ :=
        step_advance moved
      cases runs
      have made := ManagerTask.advance_section advanced
      obtain ⟨control, hcontrol, hsame, howned⟩ :=
        made.control.unowned hchanged still
      have hid := hsame.trans about
      rcases closes_entry reachable tracks running found advanced hcontrol hid
        howned with goesOn | hdetached
      · have before :=
          (held manager running id control hcontrol hid howned).advance found
            made goesOn
        cases advance_entry reachable tracks running found advanced hcontrol hid
          howned hchanged still with
        | kept same =>
            subst same
            exact before
        | detached attached same =>
            subst same
            exact .recovering rfl rfl
        | attached attaches execution attachment stream =>
            exact .attached attachment (List.mem_append_right _ stream)
              (execution ▸ rfl)
        | stated attached same =>
            subst same
            exact before.written rfl rfl fun hnone => absurd hnone attached
      · cases hdetached.symm.trans hchanged
        exact .recovering rfl rfl

end World

end Susm.Controller
