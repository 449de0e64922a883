import Susm.Host.RunnerThread

/-!
# One controller at a time

Of the processes a runner has launched only the present one may still be
running without having been told to end, and whoever reads the identity of the
process or observes it is told about exactly this one.
-/

namespace Susm.Host

open Susm.Foundation

/-- A process that has ended or was told to. -/
def RunnerProcess.IsDone (process : RunnerProcess) : Prop :=
  process.exited = true ∨ process.terminated = true

instance (process : RunnerProcess) : Decidable process.IsDone :=
  inferInstanceAs (Decidable (_ ∨ _))

/-- The thread has a process and goes on with it. -/
@[simp] def RunnerPhase.holds : RunnerPhase → Bool
  | .launching | .backingOff _ | .finished => false
  | _ => true

/-- The thread has no process but may launch one. -/
@[simp] def RunnerPhase.lacks : RunnerPhase → Bool
  | .launching | .backingOff _ => true
  | _ => false

namespace RunnerThread

variable {thread next : RunnerThread} {event : RunnerEvent}

/-- A process is shown until it is told that there is none. -/
def Follows (later earlier : Option ProcessIdentity) : Prop :=
  later = none ∨ earlier = none ∨ later = earlier

structure Kept (thread : RunnerThread) : Prop where
  named : ∀ identity ∈ thread.identity,
    (thread.processes.head?.map RunnerProcess.identity) = some identity
  present : thread.phase.holds = true → thread.identity.isSome = true
  absent : thread.phase.lacks = true → thread.identity = none
  past : ∀ process ∈ thread.processes.tail, process.IsDone
  free : thread.identity = none → ∀ process ∈ thread.processes, process.IsDone
  asked : ∀ restarts due, thread.phase = .terminating restarts due →
    ∀ process ∈ thread.processes.head?, process.terminated = true
  shown : thread.observed.head? = some thread.identity
  follows : thread.observed.IsChain Follows
  announced : ∀ identity, some identity ∈ thread.observed ↔
    identity ∈ thread.processes.map RunnerProcess.identity

theorem start_kept (initial : InitialProcess) (clock : Nat) :
    (start initial clock).Kept := by
  cases h : initial.identity <;> constructor <;>
    simp [start, h, RunnerProcess.IsDone]

/-! ## Single steps -/

theorem Kept.frame (kept : thread.Kept)
    (processes : next.processes = thread.processes)
    (identity : next.identity = thread.identity)
    (observed : next.observed = thread.observed)
    (present : next.phase.holds = true → thread.identity.isSome = true)
    (absent : next.phase.lacks = true → thread.identity = none)
    (asked : ∀ restarts due, next.phase = .terminating restarts due →
      thread.phase = next.phase) : next.Kept where
  named := by rw [identity, processes]; exact kept.named
  present := by rw [identity]; exact present
  absent := by rw [identity]; exact absent
  past := by rw [processes]; exact kept.past
  free := by rw [identity, processes]; exact kept.free
  asked restarts due phase := by
    rw [processes]
    exact kept.asked restarts due ((asked restarts due phase).trans phase)
  shown := by rw [observed, identity]; exact kept.shown
  follows := by rw [observed]; exact kept.follows
  announced := by rw [observed, processes]; exact kept.announced

/-- Nothing but marks of ended processes has been set. -/
structure Marks (before after : RunnerProcess) : Prop where
  identity : after.identity = before.identity
  exited : before.exited = true → after.exited = true
  terminated : before.terminated = true → after.terminated = true

theorem Marks.refl (process : RunnerProcess) : Marks process process :=
  ⟨rfl, id, id⟩

theorem Marks.done {before after : RunnerProcess} (marks : Marks before after)
    (done : before.IsDone) : after.IsDone :=
  done.imp marks.exited marks.terminated

theorem forall₂_modify (mark : RunnerProcess → RunnerProcess)
    (marks : ∀ process, Marks process (mark process))
    (processes : List RunnerProcess) (index : Nat) :
    List.Forall₂ Marks processes (processes.modify index mark) := by
  induction processes generalizing index with
  | nil => cases index <;> exact .nil
  | cons process earlier ih =>
      cases index with
      | zero =>
          rw [List.modify_zero_cons]
          exact .cons (marks process) (List.forall₂_same.mpr fun _ _ => .refl _)
      | succ index =>
          rw [List.modify_succ_cons]
          exact .cons (.refl process) (ih index)

theorem identities_of_marks {before after : List RunnerProcess}
    (marks : List.Forall₂ Marks before after) :
    after.map RunnerProcess.identity = before.map RunnerProcess.identity := by
  induction marks with
  | nil => rfl
  | cons mark _ ih => rw [List.map_cons, List.map_cons, mark.identity, ih]

theorem done_of_marks {before after : List RunnerProcess}
    (marks : List.Forall₂ Marks before after)
    (done : ∀ process ∈ before, process.IsDone) :
    ∀ process ∈ after, process.IsDone := by
  induction marks with
  | nil => nofun
  | cons mark _ ih =>
      rw [List.forall_mem_cons] at done ⊢
      exact ⟨mark.done done.1, ih done.2⟩

theorem terminated_of_marks {before after : List RunnerProcess}
    (marks : List.Forall₂ Marks before after)
    (terminated : ∀ process ∈ before.head?, process.terminated = true) :
    ∀ process ∈ after.head?, process.terminated = true := by
  cases marks with
  | nil => nofun
  | cons mark _ =>
      rintro _ ⟨⟩
      exact mark.terminated (terminated _ rfl)

theorem Kept.marked (kept : thread.Kept)
    (processes : List.Forall₂ Marks thread.processes next.processes)
    (identity : next.identity = thread.identity)
    (observed : next.observed = thread.observed)
    (holds : next.phase.holds = thread.phase.holds)
    (lacks : next.phase.lacks = thread.phase.lacks)
    (asked : ∀ restarts due, next.phase = .terminating restarts due →
      ∀ process ∈ next.processes.head?, process.terminated = true) :
    next.Kept := by
  have identities := identities_of_marks processes
  have tails : List.Forall₂ Marks thread.processes.tail
      next.processes.tail := by
    simpa only [List.drop_one] using List.forall₂_drop 1 processes
  constructor
  case named =>
    rw [identity, ← List.head?_map, identities, List.head?_map]
    exact kept.named
  case present =>
    rw [identity, holds]
    exact kept.present
  case absent =>
    rw [identity, lacks]
    exact kept.absent
  case past => exact done_of_marks tails kept.past
  case free =>
    rw [identity]
    exact fun none => done_of_marks processes (kept.free none)
  case asked => exact asked
  case shown =>
    rw [observed, identity]
    exact kept.shown
  case follows =>
    rw [observed]
    exact kept.follows
  case announced =>
    rw [observed, identities]
    exact kept.announced

theorem exit_marks (index : Nat) : List.Forall₂ Marks thread.processes
    (thread.processes.modify index
      fun process => { process with exited := true }) := by
  refine forall₂_modify _ ?_ _ _
  exact fun _ => ⟨rfl, fun _ => rfl, id⟩

theorem terminate_marks (restarts : Bool) : List.Forall₂ Marks
    thread.processes (thread.terminate restarts).processes := by
  rw [RunnerThread.terminate, List.modifyHead_eq_modify_zero]
  refine forall₂_modify _ ?_ _ _
  exact fun _ => ⟨rfl, id, fun _ => rfl⟩

theorem Kept.exits {index : Nat} (kept : thread.Kept) :
    Kept { thread with
      processes := thread.processes.modify index
        fun process => { process with exited := true } } :=
  kept.marked (exit_marks index) rfl rfl rfl rfl fun restarts due phase =>
    terminated_of_marks (exit_marks index) (kept.asked restarts due phase)

theorem Kept.observes (kept : thread.Kept)
    {identity : Option ProcessIdentity}
    (follows : Follows identity thread.identity) :
    (identity :: thread.observed).IsChain Follows := by
  have shown := kept.shown
  cases h : thread.observed with
  | nil => exact List.IsChain.singleton _
  | cons last earlier =>
      rw [h, List.head?_cons, Option.some_inj] at shown
      have chain := kept.follows
      rw [h] at chain
      exact List.isChain_cons_cons.mpr ⟨shown ▸ follows, chain⟩

theorem Kept.release (kept : thread.Kept) {phase : RunnerPhase}
    (done : ∀ process ∈ thread.processes.head?, process.IsDone)
    (holds : phase.holds = false) : (thread.release phase).Kept where
  named := nofun
  present h := by
    rw [show (thread.release phase).phase = phase from rfl, holds] at h
    cases h
  absent _ := rfl
  past := kept.past
  free _ := by
    have past := kept.past
    change ∀ process ∈ thread.processes, process.IsDone
    cases h : thread.processes with
    | nil => nofun
    | cons process earlier =>
        rw [h] at done past
        exact List.forall_mem_cons.mpr ⟨done process rfl, past⟩
  asked restarts due h := by
    rw [show phase = .terminating restarts due from h] at holds
    cases holds
  shown := rfl
  follows := kept.observes (.inl rfl)
  announced identity := by
    simpa [RunnerThread.release] using kept.announced identity

theorem Kept.terminate (kept : thread.Kept) {restarts : Bool}
    (holds : thread.phase.holds = true) :
    (thread.terminate restarts).Kept := by
  refine kept.marked (terminate_marks restarts) rfl rfl holds.symm ?_ ?_
  · cases h : thread.phase <;>
      simp_all [RunnerThread.terminate]
  · intro _ _ _ process hmem
    rw [RunnerThread.terminate, List.head?_modifyHead] at hmem
    obtain ⟨_, -, rfl⟩ := Option.map_eq_some_iff.mp hmem
    rfl

theorem Kept.backOff (kept : thread.Kept) (none : thread.identity = none) :
    thread.backOff.Kept :=
  kept.frame rfl rfl rfl nofun (fun _ => none) nofun

theorem Kept.launch (kept : thread.Kept) (phase : thread.phase = .launching)
    (result : LaunchResult) : (thread.launch result).Kept := by
  have none : thread.identity = none := kept.absent (by simp [phase])
  cases result with
  | failed =>
      refine Kept.backOff ?_ none
      exact kept.frame rfl rfl rfl kept.present kept.absent fun _ _ _ => rfl
  | unidentified =>
      refine Kept.backOff ?_ none
      exact kept.frame rfl rfl rfl kept.present kept.absent fun _ _ _ => rfl
  | launched identity =>
      constructor
      case named =>
        rintro _ ⟨⟩
        rfl
      case present => exact fun _ => rfl
      case absent => nofun
      case past => exact kept.free none
      case free => nofun
      case asked => nofun
      case shown => rfl
      case follows => exact kept.observes (.inr (.inl none))
      case announced =>
        intro other
        simp [RunnerThread.launch, RunnerThread.hold, kept.announced other]

theorem Kept.adopt (kept : thread.Kept) (phase : thread.phase = .adopting) :
    (thread.hold thread.identity).Kept := by
  constructor
  case named => exact kept.named
  case present => exact fun _ => kept.present (by simp [phase])
  case absent => nofun
  case past => exact kept.past
  case free => exact kept.free
  case asked => nofun
  case shown => rfl
  case follows => exact kept.observes (.inr (.inr rfl))
  case announced =>
    intro other
    have shown : thread.identity ∈ thread.observed :=
      List.mem_of_mem_head? kept.shown
    rw [RunnerThread.hold, List.mem_cons, ← kept.announced]
    exact or_iff_right_of_imp fun same => same ▸ shown

theorem done_of_exited (exited : thread.exited = true) :
    ∀ process ∈ thread.processes.head?, process.IsDone := by
  intro process hmem
  rw [RunnerThread.exited, Option.mem_def.mp hmem, Option.any_some] at exited
  exact .inl exited

theorem Kept.receive (kept : thread.Kept) {due : Nat}
    (phase : thread.phase = .backingOff due) (command : Option RunnerCommand) :
    (thread.receive command).Kept := by
  have none : thread.identity = none := kept.absent (by simp [phase])
  rcases command with _ | _ | _ | _
  · exact kept.frame rfl rfl rfl nofun (fun _ => none) nofun
  · exact kept.frame rfl rfl rfl nofun (fun _ => none) nofun
  · exact kept.frame rfl rfl rfl nofun nofun nofun
  · exact kept.frame rfl rfl rfl nofun nofun nofun

theorem Kept.obey (kept : thread.Kept) {launchedAt : Nat}
    (phase : thread.phase = .polling launchedAt) (command : RunnerCommand) :
    (thread.obey command).Kept := by
  have holds : thread.phase.holds = true := by simp [phase]
  cases command with
  | restart =>
      refine Kept.terminate ?_ holds
      exact kept.frame rfl rfl rfl kept.present kept.absent fun _ _ _ => rfl
  | endSession =>
      exact kept.frame rfl rfl rfl (fun _ => kept.present holds) nofun nofun
  | detach => exact kept.frame rfl rfl rfl nofun nofun nofun

theorem Kept.turn (kept : thread.Kept) (turn : thread.Turn next) :
    next.Kept := by
  cases turn with
  | adopts phase => exact kept.adopt phase
  | launches phase result => exact kept.launch phase result
  | receives phase | retries phase => exact kept.receive phase _
  | obeys phase => exact kept.obey phase _
  | leaves => exact kept.frame rfl rfl rfl nofun nofun nofun
  | watches phase | polls phase | awaits phase | looks phase =>
      have present := kept.present (by simp [phase])
      exact kept.frame rfl rfl rfl (fun _ => present) nofun nofun
  | settles phase exited =>
      have released : (thread.release .launching).Kept :=
        kept.release (done_of_exited exited) rfl
      exact released.frame rfl rfl rfl nofun (fun _ => rfl) nofun
  | terminates phase => exact kept.terminate (by simp [phase])
  | ends phase exited => exact kept.release (done_of_exited exited) rfl
  | replaces phase | kills phase =>
      have done : ∀ process ∈ thread.processes.head?, process.IsDone :=
        fun process hmem => .inr (kept.asked _ _ phase process hmem)
      refine Kept.release ?_ done rfl
      exact kept.frame rfl rfl rfl kept.present kept.absent fun _ _ _ => rfl

theorem Kept.step (kept : thread.Kept)
    (moved : thread.step event = some next) : next.Kept := by
  cases event with
  | passes time =>
      cases moved
      exact kept.frame rfl rfl rfl kept.present kept.absent fun _ _ _ => rfl
  | exits index =>
      cases moved
      exact kept.exits
  | send command | drop =>
      obtain ⟨-, moved⟩ := Option.ite_none_right_eq_some.mp moved
      cases moved
      exact kept.frame rfl rfl rfl kept.present kept.absent fun _ _ _ => rfl
  | turn result signaled => exact kept.turn (turn_cases moved)

def Begins (initial : InitialProcess) (thread : RunnerThread) :
    Prop :=
  ∃ clock, Runs RunnerThread.step (fun _ _ => True) (start initial clock)
    thread

variable {initial : InitialProcess}

theorem Begins.kept (begins : Begins initial thread) : thread.Kept := by
  obtain ⟨clock, run⟩ := begins
  exact run.invariant (fun _ _ _ kept _ moved => kept.step moved)
    (start_kept initial clock)

/--
Of all the processes of a runner, at most the present one has neither ended nor
been told to, and the identity that others read names it.  What the observer was
told last is this identity; it was told of all processes and of no others, and
of none before it was told that the one before had gone.
-/
structure OneController (thread : RunnerThread) : Prop where
  single : (thread.processes.filter fun process => ¬process.IsDone).length ≤ 1
  named : ∀ process ∈ thread.processes, ¬process.IsDone →
    thread.identity = some process.identity
  shown : thread.observed.head? = some thread.identity
  follows : thread.observed.IsChain Follows
  announced : ∀ identity, some identity ∈ thread.observed ↔
    identity ∈ thread.processes.map RunnerProcess.identity

theorem one_controller (begins : Begins initial thread) :
    thread.OneController := by
  have kept := begins.kept
  have named : ∀ process ∈ thread.processes, ¬process.IsDone →
      thread.identity = some process.identity := by
    intro process hmem running
    cases hidentity : thread.identity with
    | none => exact absurd (kept.free hidentity process hmem) running
    | some identity =>
        have head := kept.named identity hidentity
        have past := kept.past
        cases h : thread.processes with
        | nil => simp [h] at hmem
        | cons first earlier =>
            rw [h] at head hmem past
            rcases List.mem_cons.mp hmem with rfl | hmem
            · exact head.symm
            · exact absurd (past process hmem) running
  refine ⟨?_, named, kept.shown, kept.follows, kept.announced⟩
  have past := kept.past
  cases h : thread.processes with
  | nil => exact Nat.zero_le _
  | cons first earlier =>
      rw [h] at past
      have none : (earlier.filter fun process => ¬process.IsDone) = [] :=
        List.filter_eq_nil_iff.mpr fun process hmem => by
          simpa using past process hmem
      rw [List.filter_cons, none]
      split <;> simp

/-- Two launches fail, the next process ends, and another is launched. -/
def restartedEvents : List RunnerEvent :=
  [.turn .failed false, .passes initialDelay, .turn .failed false,
    .turn (.launched ⟨4208, 7⟩) false, .turn .failed false, .exits 0,
    .turn .failed true, .send .restart, .turn .failed false,
    .turn (.launched ⟨4324, 8⟩) false]

def restartedRunner : RunnerThread :=
  (execute RunnerThread.step (start (.launched .failed) 0)
    restartedEvents).getD (start (.launched .failed) 0)

theorem restartedRunner_begins : Begins (.launched .failed) restartedRunner :=
  ⟨0, execute_getD_runs (by decide +kernel)⟩

theorem one_controller_restarted : restartedRunner.OneController :=
  one_controller restartedRunner_begins

end RunnerThread

end Susm.Host
