import Mathlib.Data.List.Chain
import Mathlib.Data.List.Nodup
import Susm.Supervisor.CheckpointSequence

/-!
# Attempts and processes

The attempts of one execution are numbered from one on, across all supervisors
that share its journal, and no attempt gets a second process.  A job whose
supervisor was lost in an attempt gets no further process at all.
-/

namespace Susm.Supervisor

open Susm.Foundation
open Susm.Protocol

/-! ## Launches and processes -/

def launchesIn (checkpoints : List Checkpoint) : List Nat :=
  checkpoints.filterMap fun checkpoint =>
    if checkpoint.phase = .launching then some checkpoint.attempt else none

theorem launchesIn_append (first second : List Checkpoint) :
    launchesIn (first ++ second) = launchesIn first ++ launchesIn second :=
  List.filterMap_append

def createdBy (attempt : Nat) :
    (op : SupervisorOp) → SupervisorAnswer op → List Nat
  | .spawn .., .ok _ => [attempt]
  | _, _ => []

def Progress.attempt (progress : Progress) : Nat :=
  (progress.last.map Prod.fst).getD 0

def Progress.through (progress : Progress)
    (history : List (Occurrence SupervisorOp SupervisorAnswer)) : Progress :=
  history.foldl (fun progress occurrence =>
    progress.after occurrence.1 occurrence.2) progress

/-- The attempts whose processes were created; a process belongs to the attempt
of the last checkpoint. -/
def createdFrom (progress : Progress) :
    List (Occurrence SupervisorOp SupervisorAnswer) → List Nat
  | [] => []
  | ⟨op, answer⟩ :: history =>
      createdBy progress.attempt op answer ++
        createdFrom (progress.after op answer) history

/-- Every append has succeeded. -/
def allSynced (history : List (Occurrence SupervisorOp SupervisorAnswer)) :
    Bool :=
  history.all fun
    | ⟨.append _, answer⟩ => answer = .synced
    | _ => true

/-! ## One supervisor -/

def Progress.reached (progress : Progress) : Nat :=
  match progress.last with
  | none => 0
  | some (attempt, .restartBackoff) => attempt - 1
  | some (attempt, _) => attempt

/-- The first attempt that may still get a process. -/
def Progress.fresh (progress : Progress) : Nat :=
  match progress.last with
  | none => 1
  | some (attempt, .restartBackoff) => attempt
  | some (attempt, _) => if progress.spawned then attempt + 1 else attempt

structure Sequence (progress : Progress) (launched created : List Nat) :
    Prop where
  first : ∀ attempt ∈ launched.head?, attempt = 1
  steps : launched.IsChain fun current next =>
    next = current ∨ next = current + 1
  distinct : created.Nodup
  reached : launched.getLast?.getD 0 = progress.reached
  bounded : ∀ attempt ∈ created, attempt < progress.fresh
  valid : ∀ last ∈ progress.last, 1 ≤ last.1 ∧ last.1 + 1 < 2 ^ 32

section Sequence

variable {progress : Progress} {launched created : List Nat}

theorem Sequence.launch (sequence : Sequence progress launched created)
    {next : Nat} (positive : 1 ≤ next)
    (h : next = progress.reached ∨ next = progress.reached + 1) :
    (∀ attempt ∈ (launched ++ [next]).head?, attempt = 1) ∧
      (launched ++ [next]).IsChain fun current next =>
        next = current ∨ next = current + 1 := by
  rw [← sequence.reached] at h
  constructor
  · cases launched with
    | nil =>
        simp only [List.getLast?_nil, Option.getD_none] at h
        simp only [List.nil_append, List.head?_cons, Option.mem_some_iff]
        omega
    | cons attempt launched => exact sequence.first
  · refine sequence.steps.append (.singleton _) ?_
    intro last hlast attempt hattempt
    rw [Option.mem_def.mp hlast, Option.getD_some] at h
    cases hattempt
    exact h

variable {attempt : Nat} {phase : CheckpointPhase}

theorem Continues.counts (continues : Continues 1 progress.last attempt phase)
    (valid : ∀ last ∈ progress.last, 1 ≤ last.1 ∧ last.1 + 1 < 2 ^ 32) :
    1 ≤ attempt ∧
      progress.fresh ≤ (progress.marked attempt phase).fresh ∧
      if phase = .launching then
        attempt = progress.reached ∨ attempt = progress.reached + 1
      else (progress.marked attempt phase).reached = progress.reached := by
  have below (current : Nat) (spawned : Bool) :
      current ≤ if spawned then current + 1 else current := by
    cases spawned <;> simp
  unfold Progress.fresh Progress.reached
  generalize progress.last = last at continues valid
  cases continues with
  | begins => exact ⟨le_rfl, below 1 _, .inr rfl⟩
  | again =>
      obtain ⟨positive, -⟩ := valid _ rfl
      cases phase <;> simp [Progress.marked, positive]
  | runs =>
      obtain ⟨positive, -⟩ := valid _ rfl
      simp [Progress.marked, positive]
  | @retries current phase active =>
      obtain ⟨positive, room⟩ := valid _ rfl
      have next : saturatingAdd (2 ^ 32) current 1 = current + 1 :=
        saturatingAdd_of_lt room
      rw [next]
      cases phase with
      | launching | running =>
          simp only [Progress.marked]
          split <;> simp
      | restartBackoff => exact absurd rfl active
  | launches =>
      obtain ⟨positive, -⟩ := valid _ rfl
      refine ⟨positive, below attempt _, ?_⟩
      simp only [if_true]
      omega

theorem Sequence.marked (sequence : Sequence progress launched created)
    (continues : Continues 1 progress.last attempt phase)
    (room : attempt + 1 < 2 ^ 32) :
    Sequence (progress.marked attempt phase)
      (launched ++ if phase = .launching then [attempt] else []) created := by
  obtain ⟨positive, fresh, reached⟩ := continues.counts sequence.valid
  have bounded : ∀ earlier ∈ created,
      earlier < (progress.marked attempt phase).fresh := fun earlier h =>
    (sequence.bounded earlier h).trans_le fresh
  have valid : ∀ last ∈ (progress.marked attempt phase).last,
      1 ≤ last.1 ∧ last.1 + 1 < 2 ^ 32 := by
    rintro last ⟨⟩
    exact ⟨positive, room⟩
  split_ifs at reached with hphase
  · obtain ⟨first, steps⟩ := sequence.launch positive reached
    rw [if_pos hphase]
    refine ⟨first, steps, sequence.distinct, ?_, bounded, valid⟩
    rw [List.getLast?_append, hphase]
    rfl
  · rw [if_neg hphase, List.append_nil]
    exact ⟨sequence.first, sequence.steps, sequence.distinct,
      sequence.reached.trans reached.symm, bounded, valid⟩

theorem Sequence.spawned (sequence : Sequence progress launched created)
    (unspawned : progress.spawned = false)
    (last : progress.last = some (attempt, .launching)) :
    Sequence { progress with spawned := true } launched
      (created ++ [attempt]) := by
  have fresh : progress.fresh = attempt := by
    simp [Progress.fresh, last, unspawned]
  have later : Progress.fresh { progress with spawned := true } =
      attempt + 1 := by
    simp [Progress.fresh, last]
  refine ⟨sequence.first, sequence.steps, ?_, sequence.reached, ?_,
    sequence.valid⟩
  · refine sequence.distinct.append (List.nodup_singleton attempt) ?_
    rw [List.disjoint_singleton]
    intro h
    exact (sequence.bounded attempt h).ne fresh.symm
  · intro earlier h
    rw [later]
    rcases List.mem_append.mp h with h | h
    · have below := sequence.bounded earlier h
      omega
    · rw [List.mem_singleton.mp h]
      exact attempt.lt_succ_self

theorem Sequence.after (sequence : Sequence progress launched created)
    {op : SupervisorOp} {answer : SupervisorAnswer op}
    {history : List (Occurrence SupervisorOp SupervisorAnswer)}
    (permitted : progress.permits 1 op)
    (synced : allSynced (⟨op, answer⟩ :: history) = true)
    (room : ∀ checkpoint ∈ keptCheckpoint op answer,
      checkpoint.attempt + 1 < 2 ^ 32) :
    Sequence (progress.after op answer)
      (launched ++ launchesIn (keptCheckpoint op answer))
      (created ++ createdBy progress.attempt op answer) := by
  have unchanged : Sequence progress (launched ++ []) (created ++ []) := by
    simpa only [List.append_nil] using sequence
  cases op with
  | append record =>
      obtain ⟨hsynced, -⟩ := Bool.and_eq_true_iff.mp synced
      obtain rfl := of_decide_eq_true hsynced
      cases record with
      | checkpoint checkpoint =>
          have marked := sequence.marked permitted.2
            (room checkpoint (List.mem_singleton_self _))
          have launches : launchesIn [checkpoint] =
              if checkpoint.phase = .launching then [checkpoint.attempt]
              else [] := by
            unfold launchesIn
            split_ifs with hphase <;> simp [hphase]
          rw [← launches] at marked
          change Sequence _ _ (created ++ [])
          rw [List.append_nil]
          exact marked
      | observation observation => exact unchanged
      | acknowledgement acknowledgement => exact unchanged
  | spawn preflight arguments =>
      obtain ⟨unspawned, attempt, last⟩ := permitted
      have spawned := sequence.spawned unspawned last
      have hattempt : progress.attempt = attempt := by
        simp [Progress.attempt, last]
      change Sequence { progress with spawned := true } (launched ++ []) _
      rw [List.append_nil, hattempt]
      cases answer with
      | ok processId => exact spawned
      | error reason =>
          change Sequence _ _ (created ++ [])
          rw [List.append_nil]
          exact { spawned with
            distinct := sequence.distinct
            bounded := fun earlier h =>
              spawned.bounded earlier (List.mem_append_left _ h) }
  | newSupervisorId =>
      exact ⟨unchanged.first, unchanged.steps, unchanged.distinct,
        unchanged.reached, unchanged.bounded, unchanged.valid⟩
  | _ => exact unchanged

theorem Sequence.through {progress : Progress} {launched created : List Nat}
    (sequence : Sequence progress launched created)
    {history : List (Occurrence SupervisorOp SupervisorAnswer)}
    (permitted : (progressMonitor 1).Permits progress history)
    (synced : allSynced history = true)
    (room : ∀ checkpoint ∈ checkpoints (journaled history),
      checkpoint.attempt + 1 < 2 ^ 32) :
    Sequence (progress.through history)
      (launched ++ launchesIn (checkpoints (journaled history)))
      (created ++ createdFrom progress history) := by
  induction history generalizing progress launched created with
  | nil =>
      change Sequence progress (launched ++ []) (created ++ [])
      simpa only [List.append_nil] using sequence
  | cons occurrence history ih =>
      obtain ⟨op, answer⟩ := occurrence
      rw [checkpoints_journaled_cons] at room ⊢
      have later := sequence.after permitted.1 synced fun checkpoint h =>
        room checkpoint (List.mem_append_left _ h)
      have whole := ih later permitted.2 (Bool.and_eq_true_iff.mp synced).2
        fun checkpoint h => room checkpoint (List.mem_append_right _ h)
      rw [List.append_assoc, List.append_assoc] at whole
      rw [launchesIn_append]
      exact whole

end Sequence

theorem through_last {progress : Progress}
    {history : List (Occurrence SupervisorOp SupervisorAnswer)}
    (synced : allSynced history = true) :
    (progress.through history).last =
      ((checkpoints (journaled history)).getLast?.map fun checkpoint =>
        (checkpoint.attempt, checkpoint.phase)).or progress.last := by
  induction history generalizing progress with
  | nil => rfl
  | cons occurrence history ih =>
      obtain ⟨op, answer⟩ := occurrence
      obtain ⟨hfirst, hrest⟩ := Bool.and_eq_true_iff.mp synced
      have later := @ih (progress.after op answer) hrest
      rw [checkpoints_journaled_cons, List.getLast?_append]
      refine later.trans ?_
      have last : (progress.after op answer).last =
          ((keptCheckpoint op answer).getLast?.map fun checkpoint =>
            (checkpoint.attempt, checkpoint.phase)).or progress.last := by
        cases op with
        | append record =>
            obtain rfl := of_decide_eq_true hfirst
            cases record <;> rfl
        | _ => rfl
      rw [last, Option.map_or, Option.or_assoc]

theorem Sequence.restart {progress : Progress} {launched created : List Nat}
    (sequence : Sequence progress launched created)
    (identity : Option SupervisorIdentity) {checkpoint : Option Checkpoint}
    (last : progress.last = checkpoint.map fun checkpoint =>
      (checkpoint.attempt, checkpoint.phase)) :
    Sequence (.start identity checkpoint) launched created := by
  have fresh : progress.fresh ≤ (Progress.start identity checkpoint).fresh := by
    unfold Progress.fresh
    rw [last]
    cases checkpoint with
    | none => exact le_rfl
    | some checkpoint =>
        cases hphase : checkpoint.phase <;> cases progress.spawned <;>
          simp [Progress.start, hphase]
  refine ⟨sequence.first, sequence.steps, sequence.distinct, ?_,
    fun attempt h => (sequence.bounded attempt h).trans_le fresh, ?_⟩
  · rw [sequence.reached]
    simp only [Progress.reached, last, Progress.start]
  · intro current hcurrent
    exact sequence.valid current (last ▸ hcurrent)

/-! ## All supervisors of an execution -/

namespace Incarnation

/-- The checkpoint from which the supervisor started. -/
def checkpoint (incarnation : Incarnation) : Option Checkpoint :=
  (RuntimeJournal.mk false incarnation.recovered).recovery.checkpoint

def start (incarnation : Incarnation) : Progress :=
  .start (recoveredIdentity incarnation.checkpoint) incarnation.checkpoint

/-- The attempts whose processes this supervisor created. -/
def created (incarnation : Incarnation) : List Nat :=
  createdFrom incarnation.start incarnation.history

/-- The supervisor left an attempt that was launching or running. -/
def LostActive (incarnation : Incarnation) : Prop :=
  ∃ checkpoint ∈ (RuntimeJournal.mk false (incarnation.recovered ++
    journaled incarnation.history)).recovery.checkpoint,
    checkpoint.phase ≠ .restartBackoff

end Incarnation

theorem Incarnations.sequence {frames : List RuntimeFrame}
    {incarnations : List Incarnation} (run : Incarnations frames incarnations)
    (configured : ∀ incarnation ∈ incarnations,
      incarnation.configuration.attempt ≤ 1)
    (synced : ∀ incarnation ∈ incarnations,
      allSynced incarnation.history = true)
    (room : ∀ checkpoint ∈ checkpoints frames,
      checkpoint.attempt + 1 < 2 ^ 32) :
    Sequence (.start Option.none
        (RuntimeJournal.mk false frames).recovery.checkpoint)
      (launchesIn (checkpoints frames))
      (incarnations.reverse.flatMap Incarnation.created) := by
  induction run with
  | none => exact ⟨nofun, .nil, .nil, rfl, nofun, nofun⟩
  | @recover frames earlier incarnation before recovered lived uncut ih =>
      obtain ⟨configuredLast, configuredEarlier⟩ :=
        List.forall_mem_cons.mp configured
      obtain ⟨syncedLast, syncedEarlier⟩ := List.forall_mem_cons.mp synced
      have same := checkpoints_eq_of_recovered recovered
      rw [checkpoints_append] at room ⊢
      have sequence := ih configuredEarlier syncedEarlier fun checkpoint h =>
        room checkpoint (List.mem_append_left _ (same ▸ h))
      rw [recovery_checkpoint, ← same, ← recovery_checkpoint] at sequence
      have begun : Sequence incarnation.start
          (launchesIn (checkpoints incarnation.recovered))
          (earlier.reverse.flatMap Incarnation.created) :=
        sequence.restart _ rfl
      have positive : ∀ checkpoint ∈ incarnation.checkpoint,
          1 ≤ checkpoint.attempt := fun checkpoint h =>
        (sequence.valid _ (Option.mem_map_of_mem _ h)).1
      have permitted := lived.permits positive
      rw [max_eq_right configuredLast] at permitted
      have whole := begun.through permitted syncedLast fun checkpoint h =>
        room checkpoint (List.mem_append_right _ h)
      rw [List.reverse_cons, List.flatMap_append, List.flatMap_singleton,
        launchesIn_append]
      refine whole.restart _ ?_
      rw [through_last syncedLast, recovery_checkpoint, checkpoints_append,
        List.getLast?_append, Option.map_or]
      unfold Incarnation.start Incarnation.checkpoint
      rw [recovery_checkpoint]
      rfl

/-! ## Jobs -/

theorem createdFrom_eq_nil {progress : Progress}
    {history : List (Occurrence SupervisorOp SupervisorAnswer)}
    (h : ∀ occurrence ∈ history, ∀ preflight arguments,
      occurrence.1 ≠ .spawn preflight arguments) :
    createdFrom progress history = [] := by
  induction history generalizing progress with
  | nil => rfl
  | cons occurrence history ih =>
      obtain ⟨op, answer⟩ := occurrence
      obtain ⟨hfirst, hrest⟩ := List.forall_mem_cons.mp h
      have nothing : createdBy progress.attempt op answer = [] := by
        cases op with
        | spawn preflight arguments => exact absurd rfl (hfirst _ _)
        | _ => rfl
      rw [createdFrom, nothing, ih hrest]
      rfl

theorem settles_job {configuration : ExecutionConfiguration}
    {frames : List RuntimeFrame} {checkpoint : Checkpoint}
    (job : configuration.kind = .job)
    (recovered : (RuntimeJournal.mk false frames).recovery.checkpoint =
      some checkpoint)
    (active : checkpoint.phase ≠ .restartBackoff) (stopRequested : Bool) :
    settles configuration frames stopRequested =
      some (if stopRequested then .cancelled else .outcomeUnknown) := by
  unfold settles
  rw [recovered, job]
  cases hphase : checkpoint.phase with
  | launching | running => simp only [hphase]
  | restartBackoff => exact absurd hphase active

section Jobs

variable {incarnation : Incarnation} {checkpoint : Checkpoint}

theorem Incarnation.Lived.idle (lived : incarnation.Lived)
    (job : incarnation.configuration.kind = .job)
    (recovered : incarnation.checkpoint = some checkpoint)
    (active : checkpoint.phase ≠ .restartBackoff) :
    incarnation.created = [] ∧
      ∀ later ∈ checkpoints (journaled incarnation.history),
        later.phase ≠ .restartBackoff := by
  have keeps := lived.keeps_settled
    (settles_job job recovered active incarnation.stopRequested)
  constructor
  · refine createdFrom_eq_nil fun occurrence h preflight arguments spawned => ?_
    have kept := keeps occurrence h
    rw [spawned] at kept
    cases kept
  · intro later hlater
    obtain ⟨occurrence, h, appended⟩ := mem_checkpoints_journaled hlater
    have kept := keeps occurrence h
    rw [appended] at kept
    exact of_decide_eq_false kept

theorem Incarnation.Lived.lostActive (lived : incarnation.Lived)
    (job : incarnation.configuration.kind = .job)
    (recovered : incarnation.checkpoint = some checkpoint)
    (active : checkpoint.phase ≠ .restartBackoff) :
    incarnation.LostActive := by
  have idle := (lived.idle job recovered active).2
  unfold Incarnation.LostActive
  rw [recovery_checkpoint, checkpoints_append, List.getLast?_append]
  cases hlast : (checkpoints (journaled incarnation.history)).getLast? with
  | none =>
      refine ⟨checkpoint, ?_, active⟩
      rw [Option.none_or, ← recovery_checkpoint]
      exact recovered
  | some later =>
      exact ⟨later, rfl, idle later (List.mem_of_getLast? hlast)⟩

theorem Incarnation.checkpoint_eq (incarnation : Incarnation)
    {frames : List RuntimeFrame}
    (recovered : withoutAcknowledgements incarnation.recovered =
      withoutAcknowledgements frames) :
    incarnation.checkpoint =
      (RuntimeJournal.mk false frames).recovery.checkpoint := by
  unfold Incarnation.checkpoint
  rw [recovery_checkpoint, recovery_checkpoint,
    checkpoints_eq_of_recovered recovered]

theorem Incarnations.stays_active {frames : List RuntimeFrame}
    {incarnations : List Incarnation} (run : Incarnations frames incarnations)
    (job : ∀ incarnation ∈ incarnations,
      incarnation.configuration.kind = .job)
    (lost : ∃ incarnation ∈ incarnations, incarnation.LostActive) :
    ∃ checkpoint ∈ (RuntimeJournal.mk false frames).recovery.checkpoint,
      checkpoint.phase ≠ .restartBackoff := by
  induction run with
  | none => simp at lost
  | @recover frames earlier incarnation before recovered lived uncut ih =>
      obtain ⟨jobLast, jobEarlier⟩ := List.forall_mem_cons.mp job
      obtain ⟨lostOne, hmem, hlost⟩ := lost
      rcases List.mem_cons.mp hmem with rfl | hmem
      · exact hlost
      obtain ⟨checkpoint, hcheckpoint, active⟩ :=
        ih jobEarlier ⟨lostOne, hmem, hlost⟩
      rw [← incarnation.checkpoint_eq recovered] at hcheckpoint
      exact lived.lostActive jobLast hcheckpoint active

theorem Incarnations.job_over {frames : List RuntimeFrame}
    {incarnations : List Incarnation} (run : Incarnations frames incarnations)
    (job : ∀ incarnation ∈ incarnations,
      incarnation.configuration.kind = .job) :
    incarnations.Pairwise fun later earlier =>
      earlier.LostActive → later.created = [] := by
  induction run with
  | none => exact .nil
  | @recover frames earlier incarnation before recovered lived uncut ih =>
      obtain ⟨jobLast, jobEarlier⟩ := List.forall_mem_cons.mp job
      refine .cons (fun lostOne hmem hlost => ?_) (ih jobEarlier)
      obtain ⟨checkpoint, hcheckpoint, active⟩ :=
        before.stays_active jobEarlier ⟨lostOne, hmem, hlost⟩
      rw [← incarnation.checkpoint_eq recovered] at hcheckpoint
      exact (lived.idle jobLast hcheckpoint active).1

end Jobs

/-! ## The attempts of an execution -/

/--
No attempt has a second process, the attempts are launched in order from the
first one, and a job is over once a supervisor was lost in an attempt.
-/
structure AttemptsOnce (frames : List RuntimeFrame)
    (incarnations : List Incarnation) : Prop where
  created : (incarnations.reverse.flatMap Incarnation.created).Nodup
  first : ∀ attempt ∈ (launchesIn (checkpoints frames)).head?, attempt = 1
  steps : (launchesIn (checkpoints frames)).IsChain fun current next =>
    next = current ∨ next = current + 1
  job : (∀ incarnation ∈ incarnations,
      incarnation.configuration.kind = .job) →
    incarnations.Pairwise fun later earlier =>
      earlier.LostActive → later.created = []

theorem Incarnations.attempts_once {frames : List RuntimeFrame}
    {incarnations : List Incarnation} (run : Incarnations frames incarnations)
    (configured : ∀ incarnation ∈ incarnations,
      incarnation.configuration.attempt ≤ 1)
    (synced : ∀ incarnation ∈ incarnations,
      allSynced incarnation.history = true)
    (room : ∀ checkpoint ∈ checkpoints frames,
      checkpoint.attempt + 1 < 2 ^ 32) :
    AttemptsOnce frames incarnations := by
  have sequence := run.sequence configured synced room
  exact ⟨sequence.distinct, sequence.first, sequence.steps, run.job_over⟩

/-- A tool that fails twice, under two supervisors. -/
theorem Incarnations.attempts_once_replaced :
    [replacedTool retriedConfiguration 1,
        finishedTool retriedConfiguration 1].reverse.flatMap
          Incarnation.created = [1, 2] ∧
      AttemptsOnce ((replacedTool retriedConfiguration 1).recovered ++
          journaled (replacedTool retriedConfiguration 1).history)
        [replacedTool retriedConfiguration 1,
          finishedTool retriedConfiguration 1] := by
  refine ⟨by decide +kernel, Incarnations.attempts_once
    (Incarnations.tool retriedConfiguration 1 ?_ ?_) ?_ ?_ ?_⟩
  · decide +kernel
  · decide +kernel
  · decide
  · decide +kernel
  · decide +kernel

end Susm.Supervisor
