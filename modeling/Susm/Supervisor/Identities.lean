import Susm.Supervisor.JournaledRuns
import Susm.Supervisor.LinkFailures
import Susm.Supervisor.ProcessAttempts

/-!
# The identities of supervisor processes

A process takes its identity from the last checkpoint in the journal and
presents it to the controller before it has appended a checkpoint of its own.
Two processes with no checkpoint between them present the same identity.
-/

namespace Susm.Supervisor

open Susm.Foundation
open Susm.Protocol

/-! ## Identities -/

/-- The id that was taken for an execution without a checkpoint. -/
def issued (history : List (Occurrence SupervisorOp SupervisorAnswer)) :
    Option String :=
  history.findSome? fun
    | ⟨.newSupervisorId, id⟩ => some id
    | _ => none

/-- The identity of the process, once it has one. -/
def Incarnation.identity (incarnation : Incarnation) :
    Option SupervisorIdentity :=
  (recoveredIdentity incarnation.checkpoint).or
    ((issued incarnation.history).map fun id => ⟨id, 1⟩)

theorem identified {first : Nat} {progress : Progress}
    {history : List (Occurrence SupervisorOp SupervisorAnswer)}
    (permitted : (progressMonitor first).Permits progress history) :
    ∀ checkpoint ∈ checkpoints (journaled history),
      progress.identity.or ((issued history).map fun id => ⟨id, 1⟩) =
        some ⟨checkpoint.supervisorId, checkpoint.incarnation⟩ := by
  induction history generalizing progress with
  | nil => nofun
  | cons occurrence history ih =>
      obtain ⟨op, answer⟩ := occurrence
      intro checkpoint h
      rw [checkpoints_journaled_cons] at h
      rcases List.mem_append.mp h with h | h
      · obtain rfl := eq_of_mem_keptCheckpoint h
        rw [permitted.1.1, Option.some_or]
      · have later := ih permitted.2 checkpoint h
        cases op with
        | newSupervisorId =>
            have unnamed : progress.identity = none := permitted.1
            rw [unnamed]
            exact later
        | append record => cases record <;> exact later
        | _ => exact later

theorem Incarnation.Lived.identified {incarnation : Incarnation}
    (lived : incarnation.Lived)
    (positive : ∀ checkpoint ∈ incarnation.checkpoint,
      1 ≤ checkpoint.attempt) :
    ∀ checkpoint ∈ checkpoints (journaled incarnation.history),
      incarnation.identity =
        some ⟨checkpoint.supervisorId, checkpoint.incarnation⟩ :=
  Supervisor.identified (lived.permits positive)

/-! ## The journal behind a process -/

/-- The last checkpoint is of this process or of a later one, unless there is
none behind its start. -/
structure Precedes (earlier : Incarnation) (frames : List RuntimeFrame)
    (checkpoint : Checkpoint) : Prop where
  count : (checkpoints earlier.recovered).length ≤ (checkpoints frames).length
  last : ∃ last, (checkpoints frames).getLast? = some last ∧
    last.supervisorId = checkpoint.supervisorId ∧
    ((checkpoints earlier.recovered).length = (checkpoints frames).length →
      last = checkpoint) ∧
    ((checkpoints earlier.recovered).length < (checkpoints frames).length →
      saturatingAdd (2 ^ 32) checkpoint.incarnation 1 ≤ last.incarnation)

section Precedes

variable {earlier incarnation : Incarnation} {checkpoint : Checkpoint}
  {frames : List RuntimeFrame}

theorem Incarnation.identity_of_checkpoint
    (recovered : incarnation.checkpoint = some checkpoint) :
    incarnation.identity = some ⟨checkpoint.supervisorId,
      saturatingAdd (2 ^ 32) checkpoint.incarnation 1⟩ := by
  unfold Incarnation.identity recoveredIdentity
  rw [recovered]
  rfl

theorem Incarnation.identity_positive {identity : SupervisorIdentity}
    (h : incarnation.identity = some identity) : 1 ≤ identity.incarnation := by
  cases hcheckpoint : incarnation.checkpoint with
  | some checkpoint =>
      rw [incarnation.identity_of_checkpoint hcheckpoint] at h
      cases h
      unfold saturatingAdd
      dsimp only
      omega
  | none =>
      unfold Incarnation.identity recoveredIdentity at h
      rw [hcheckpoint] at h
      obtain ⟨id, -, rfl⟩ := Option.map_eq_some_iff.mp h
      exact le_rfl

theorem Precedes.after (lived : incarnation.Lived)
    (positive : ∀ checkpoint ∈ incarnation.checkpoint, 1 ≤ checkpoint.attempt)
    (precedes : Precedes earlier incarnation.recovered checkpoint) :
    Precedes earlier (incarnation.recovered ++ journaled incarnation.history)
      checkpoint := by
  obtain ⟨count, last, hlast, sameId, unchanged, renewed⟩ := precedes
  have recovered : incarnation.checkpoint = some last := by
    unfold Incarnation.checkpoint
    rw [recovery_checkpoint, hlast]
  have identified := lived.identified positive
  rw [incarnation.identity_of_checkpoint recovered] at identified
  cases hown : (checkpoints (journaled incarnation.history)).getLast? with
  | none =>
      have nothing : checkpoints (journaled incarnation.history) = [] :=
        List.getLast?_eq_none_iff.mp hown
      have same : checkpoints (incarnation.recovered ++
          journaled incarnation.history) =
            checkpoints incarnation.recovered := by
        rw [checkpoints_append, nothing, List.append_nil]
      refine ⟨?_, last, ?_, sameId, ?_, ?_⟩ <;> rw [same] <;> assumption
  | some own =>
      have hmem := List.mem_of_getLast? hown
      obtain ⟨ownId, ownIncarnation⟩ := SupervisorIdentity.mk.inj
        (Option.some.inj (identified own hmem))
      have longer := List.length_pos_of_mem hmem
      have length : (checkpoints (incarnation.recovered ++
          journaled incarnation.history)).length =
            (checkpoints incarnation.recovered).length +
              (checkpoints (journaled incarnation.history)).length := by
        rw [checkpoints_append, List.length_append]
      refine ⟨by omega, own, ?_, ownId.symm.trans sameId, ?_, fun _ => ?_⟩
      · rw [checkpoints_append, List.getLast?_append, hown, Option.some_or]
      · omega
      · rw [← ownIncarnation]
        rcases count.eq_or_lt with equal | less
        · rw [unchanged equal]
        · have below := renewed less
          unfold saturatingAdd at below ⊢
          omega

theorem Precedes.self (recovered : earlier.checkpoint = some checkpoint) :
    Precedes earlier earlier.recovered checkpoint := by
  unfold Incarnation.checkpoint at recovered
  rw [recovery_checkpoint] at recovered
  exact ⟨le_rfl, checkpoint, recovered, rfl, fun _ => rfl,
    fun less => absurd less (lt_irrefl _)⟩

theorem Precedes.congr {other : List RuntimeFrame}
    (precedes : Precedes earlier frames checkpoint)
    (same : checkpoints other = checkpoints frames) :
    Precedes earlier other checkpoint := by
  obtain ⟨count, last⟩ := precedes
  rw [← same] at count last
  exact ⟨count, last⟩

theorem Incarnation.checkpoint_mem
    (h : incarnation.checkpoint = some checkpoint) :
    checkpoint ∈ checkpoints incarnation.recovered := by
  unfold Incarnation.checkpoint at h
  rw [recovery_checkpoint] at h
  exact List.mem_of_getLast? h

theorem Incarnation.checkpoint_positive (incarnation : Incarnation)
    (valid : ∀ checkpoint ∈ checkpoints incarnation.recovered,
      1 ≤ checkpoint.attempt ∧ 1 ≤ checkpoint.incarnation) :
    ∀ checkpoint ∈ incarnation.checkpoint, 1 ≤ checkpoint.attempt :=
  fun checkpoint h => (valid checkpoint (Incarnation.checkpoint_mem h)).1

end Precedes

theorem Incarnations.valid {frames : List RuntimeFrame}
    {incarnations : List Incarnation}
    (run : Incarnations frames incarnations) :
    ∀ checkpoint ∈ checkpoints frames,
      1 ≤ checkpoint.attempt ∧ 1 ≤ checkpoint.incarnation := by
  induction run with
  | none => nofun
  | @recover frames earlier incarnation before recovered lived uncut ih =>
      rw [← checkpoints_eq_of_recovered recovered] at ih
      intro checkpoint h
      rw [checkpoints_append] at h
      rcases List.mem_append.mp h with h | h
      · exact ih checkpoint h
      have positive := incarnation.checkpoint_positive ih
      refine ⟨checkpoints_positive (lived.permits positive) (le_max_right _ _)
        ?_ checkpoint h, Incarnation.identity_positive
          (lived.identified positive checkpoint h)⟩
      intro last hlast
      obtain ⟨recoveredLast, hrecovered, rfl⟩ :=
        Option.map_eq_some_iff.mp hlast
      exact positive recoveredLast hrecovered

/-! ## Two processes -/

/-- A checkpoint was appended since the start of the earlier process, and its
number is not the last one; an execution without a checkpoint has fresh ids. -/
def Renewed (earlier later : Incarnation) : Prop :=
  ∀ checkpoint ∈ earlier.checkpoint, checkpoint.incarnation + 2 < 2 ^ 32 ∧
    (checkpoints earlier.recovered).length <
      (checkpoints later.recovered).length

section Pair

variable {earlier later : Incarnation}
  {earlierIdentity laterIdentity : SupervisorIdentity}

theorem renewed_iff_of_none (fresh : ∀ id ∈ issued later.history,
      id ∉ issued earlier.history)
    (valid : ∀ checkpoint ∈ checkpoints later.recovered,
      1 ≤ checkpoint.attempt ∧ 1 ≤ checkpoint.incarnation)
    (started : earlier.checkpoint = none)
    (hearlier : earlier.identity = some earlierIdentity)
    (hlater : later.identity = some laterIdentity) :
    laterIdentity ≠ earlierIdentity ↔ Renewed earlier later := by
  have renewed : Renewed earlier later := by
    intro checkpoint h
    rw [started] at h
    cases h
  refine iff_of_true ?_ renewed
  unfold Incarnation.identity recoveredIdentity at hearlier
  rw [started] at hearlier
  obtain ⟨id, issuedEarlier, rfl⟩ := Option.map_eq_some_iff.mp hearlier
  cases hcheckpoint : later.checkpoint with
  | none =>
      unfold Incarnation.identity recoveredIdentity at hlater
      rw [hcheckpoint] at hlater
      obtain ⟨other, issuedLater, rfl⟩ := Option.map_eq_some_iff.mp hlater
      rintro ⟨⟩
      exact fresh id issuedLater issuedEarlier
  | some checkpoint =>
      rw [later.identity_of_checkpoint hcheckpoint] at hlater
      obtain ⟨-, positive⟩ := valid checkpoint
        (Incarnation.checkpoint_mem hcheckpoint)
      rintro rfl
      obtain ⟨-, number⟩ := SupervisorIdentity.mk.inj (Option.some.inj hlater)
      unfold saturatingAdd at number
      omega

theorem renewed_iff_of_some {checkpoint : Checkpoint}
    (precedes : Precedes earlier later.recovered checkpoint)
    (started : earlier.checkpoint = some checkpoint)
    (hearlier : earlier.identity = some earlierIdentity)
    (hlater : later.identity = some laterIdentity) :
    laterIdentity ≠ earlierIdentity ↔ Renewed earlier later := by
  obtain ⟨count, last, hlast, sameId, unchanged, renewed⟩ := precedes
  have recovered : later.checkpoint = some last := by
    unfold Incarnation.checkpoint
    rw [recovery_checkpoint, hlast]
  rw [earlier.identity_of_checkpoint started] at hearlier
  rw [later.identity_of_checkpoint recovered] at hlater
  cases hearlier
  cases hlater
  have condition : Renewed earlier later ↔
      checkpoint.incarnation + 2 < 2 ^ 32 ∧
        (checkpoints earlier.recovered).length <
          (checkpoints later.recovered).length := by
    unfold Renewed
    rw [started]
    simp only [Option.mem_some_iff, forall_eq']
  rw [condition, sameId]
  rcases count.eq_or_lt with equal | less
  · rw [unchanged equal]
    simp [equal]
  · have below := renewed less
    simp only [ne_eq, SupervisorIdentity.mk.injEq, true_and]
    unfold saturatingAdd at below ⊢
    omega

end Pair

theorem Incarnations.precedes {frames : List RuntimeFrame}
    {incarnations : List Incarnation}
    (run : Incarnations frames incarnations) :
    ∀ earlier ∈ incarnations, ∀ checkpoint ∈ earlier.checkpoint,
      Precedes earlier frames checkpoint := by
  induction run with
  | none => simp
  | @recover frames rest incarnation before recovered lived uncut ih =>
      have same := checkpoints_eq_of_recovered recovered
      have valid := before.valid
      rw [← same] at valid
      have positive := incarnation.checkpoint_positive valid
      intro earlier hmem checkpoint hcheckpoint
      have precedes : Precedes earlier incarnation.recovered checkpoint := by
        rcases List.mem_cons.mp hmem with rfl | hmem
        · exact .self hcheckpoint
        · exact (ih earlier hmem checkpoint hcheckpoint).congr same
      exact precedes.after lived positive

/-- Two processes of an execution have different identities exactly if the
journal was renewed between their starts. -/
theorem Incarnations.renewed_iff {frames : List RuntimeFrame}
    {incarnations : List Incarnation} (run : Incarnations frames incarnations)
    (fresh : incarnations.Pairwise fun later earlier =>
      ∀ id ∈ issued later.history, id ∉ issued earlier.history) :
    incarnations.Pairwise fun later earlier =>
      ∀ laterIdentity ∈ later.identity,
      ∀ earlierIdentity ∈ earlier.identity,
        (laterIdentity ≠ earlierIdentity ↔ Renewed earlier later) := by
  induction run with
  | none => exact .nil
  | @recover frames rest incarnation before recovered lived uncut ih =>
      obtain ⟨freshLast, freshRest⟩ := List.pairwise_cons.mp fresh
      have same := checkpoints_eq_of_recovered recovered
      refine .cons (fun earlier hmem laterIdentity hlater earlierIdentity
        hearlier => ?_) (ih freshRest)
      cases started : earlier.checkpoint with
      | none =>
          have valid := before.valid
          rw [← same] at valid
          exact renewed_iff_of_none (freshLast earlier hmem) valid started
            hearlier hlater
      | some checkpoint =>
          exact renewed_iff_of_some
            ((before.precedes earlier hmem checkpoint started).congr same)
            started hearlier hlater

/-! ## What the processes present -/

def Sends (identity : SupervisorIdentity) (hello : Hello) : Prop :=
  ∃ (setup : LinkSetup) (link next : LinkLoop) (recovery : RuntimeRecovery),
    setup.identity = identity ∧ link.sendHello setup recovery = some next ∧
      next.requests = link.requests ++ [.hello hello]

theorem Sends.identity {identity : SupervisorIdentity} {hello : Hello}
    (sends : Sends identity hello) :
    identity = ⟨hello.supervisorId, hello.incarnation⟩ := by
  obtain ⟨setup, link, next, recovery, rfl, hsend, hrequests⟩ := sends
  unfold LinkLoop.sendHello LinkLoop.send at hsend
  split_ifs at hsend
  · cases hsend
    simp at hrequests
  · cases hsend
    cases List.singleton_inj.mp (List.append_cancel_left hrequests)
    rfl

structure SupervisorProcess where
  incarnation : Incarnation
  hello : Option Hello

/-- The Hello is sent as soon as the process has its identity, or never. -/
def SupervisorProcess.Greets (process : SupervisorProcess) : Prop :=
  ∀ hello ∈ process.hello, ∃ identity ∈ process.incarnation.identity,
    Sends identity hello

def PairsDiffer (processes : List SupervisorProcess) : Prop :=
  processes.Pairwise fun later earlier =>
    ∀ laterHello ∈ later.hello, ∀ earlierHello ∈ earlier.hello,
      (laterHello.supervisorId, laterHello.incarnation) ≠
        (earlierHello.supervisorId, earlierHello.incarnation)

/-- Of any two processes that present a pair, the journal is renewed between
their starts. -/
def RenewedBetween (processes : List SupervisorProcess) : Prop :=
  processes.Pairwise fun later earlier =>
    later.hello.isSome → earlier.hello.isSome →
      Renewed earlier.incarnation later.incarnation

theorem Incarnations.pairsDiffer {frames : List RuntimeFrame}
    {processes : List SupervisorProcess}
    (run : Incarnations frames (processes.map SupervisorProcess.incarnation))
    (greets : ∀ process ∈ processes, process.Greets)
    (fresh : processes.Pairwise fun later earlier =>
      ∀ id ∈ issued later.incarnation.history,
        id ∉ issued earlier.incarnation.history) :
    PairsDiffer processes ↔ RenewedBetween processes := by
  have renewed := List.pairwise_map.mp
    (run.renewed_iff (List.pairwise_map.mpr fresh))
  unfold PairsDiffer RenewedBetween
  constructor
  · intro differ
    refine (differ.and renewed).imp_of_mem ?_
    rintro later earlier hlater hearlier ⟨differ, renewed⟩ hsome hother
    obtain ⟨laterHello, hlaterHello⟩ := Option.isSome_iff_exists.mp hsome
    obtain ⟨earlierHello, hearlierHello⟩ := Option.isSome_iff_exists.mp hother
    obtain ⟨laterIdentity, hlaterIdentity, laterSends⟩ :=
      greets later hlater laterHello hlaterHello
    obtain ⟨earlierIdentity, hearlierIdentity, earlierSends⟩ :=
      greets earlier hearlier earlierHello hearlierHello
    refine (renewed _ hlaterIdentity _ hearlierIdentity).mp fun same => ?_
    rw [laterSends.identity, earlierSends.identity] at same
    exact differ _ hlaterHello _ hearlierHello
      (congrArg (fun identity => (identity.id, identity.incarnation)) same)
  · intro journal
    refine (journal.and renewed).imp_of_mem ?_
    rintro later earlier hlater hearlier ⟨journal, renewed⟩ laterHello
      hlaterHello earlierHello hearlierHello same
    obtain ⟨laterIdentity, hlaterIdentity, laterSends⟩ :=
      greets later hlater laterHello hlaterHello
    obtain ⟨earlierIdentity, hearlierIdentity, earlierSends⟩ :=
      greets earlier hearlier earlierHello hearlierHello
    refine (renewed _ hlaterIdentity _ hearlierIdentity).mpr
      (journal (Option.isSome_of_mem hlaterHello)
        (Option.isSome_of_mem hearlierHello)) ?_
    rw [laterSends.identity, earlierSends.identity]
    exact congrArg (fun pair => SupervisorIdentity.mk pair.1 pair.2) same

/--
The pairs differ exactly if the journal is renewed between the starts of any two
processes that present one, as long as nothing is appended behind an append that
stopped inside its frame.
-/
theorem pairsDiffer_iff {codec : FrameCodec}
    {processes : List SupervisorProcess} {events : List JournalEvent}
    (supervised : Supervised codec
      (processes.map SupervisorProcess.incarnation) events)
    (roundTrips : ∀ event ∈ events, event.RoundTrips codec)
    (untorn : events.Pairwise fun earlier later =>
      earlier.Tears codec → ¬ later.Appends)
    (greets : ∀ process ∈ processes, process.Greets)
    (fresh : processes.Pairwise fun later earlier =>
      ∀ id ∈ issued later.incarnation.history,
        id ∉ issued earlier.incarnation.history) :
    PairsDiffer processes ↔ RenewedBetween processes := by
  obtain ⟨frames, written, tail, refined⟩ :=
    supervised.refined roundTrips untorn
  exact refined.run.pairsDiffer greets fresh

/-! ## A process that leaves no checkpoint -/

def toolHello (identity : SupervisorIdentity) : Hello where
  managerSessionId := toolConfiguration.managerSessionId
  workloadId := toolConfiguration.workloadId
  executionId := toolConfiguration.executionId
  supervisorId := identity.id
  incarnation := identity.incarnation
  executionConfigHash := toolConfiguration.executionConfigHash
  lastSequence := 0

theorem toolHello_sends (identity : SupervisorIdentity) :
    Sends identity (toolHello identity) :=
  ⟨{ LinkLoop.toolSetup with identity := identity },
    { LinkLoop.toolLink with receiving := true }, _, ⟨none, 0, 0⟩, rfl, rfl,
    rfl⟩

def greeting (incarnation : Incarnation) : SupervisorProcess :=
  ⟨incarnation, incarnation.identity.map toolHello⟩

theorem greeting_greets (incarnation : Incarnation) :
    (greeting incarnation).Greets := by
  intro hello h
  obtain ⟨identity, hidentity, rfl⟩ := Option.map_eq_some_iff.mp h
  exact ⟨identity, hidentity, toolHello_sends identity⟩

/-- A replacement of a replacement, which disappears at once. -/
def silentTool (before : Incarnation) : Incarnation :=
  .interrupted retriedConfiguration
    (before.recovered ++ journaled before.history) [] 0

def silentTools : List Incarnation :=
  silentTool (replacedTool retriedConfiguration 1) ::
    twoTools retriedConfiguration 1

theorem Stored.silent {codec : FrameCodec} {before : Incarnation}
    {earlier : List Incarnation} {events : List JournalEvent}
    (stored : Stored codec (before :: earlier)
      (before.recovered ++ journaled before.history) events)
    (room : ((before.recovered ++ journaled before.history).flatMap
      (RuntimeJournal.encodeFrame codec)).length < fileLimit) :
    ∃ more, Stored codec (silentTool before :: before :: earlier)
      ((silentTool before).recovered ++ journaled (silentTool before).history)
      more := by
  have nothing : (silentTool before).history = [] := rfl
  have storable : Storable codec
      (before.recovered ++ journaled before.history)
      (silentTool before).history := by
    rw [nothing]
    refine ⟨by simp, by simp [askedFrames], ?_⟩
    rw [askedFrames, List.filterMap_nil, List.append_nil]
    exact room
  have lived : (silentTool before).Lived := Incarnation.interrupted_lived rfl
  exact ⟨_, stored.next rfl lived storable⟩

theorem stored_silentTools :
    ∃ events, Stored (toolCodec silentTools) silentTools
      ((silentTool (replacedTool retriedConfiguration 1)).recovered ++
        journaled (silentTool (replacedTool retriedConfiguration 1)).history)
      events := by
  have written : ∃ events, Stored (toolCodec silentTools)
      (twoTools retriedConfiguration 1)
      (journaled (finishedTool retriedConfiguration 1).history ++
        journaled (replacedTool retriedConfiguration 1).history) events := by
    refine Stored.twoTools (by decide +kernel) (by decide +kernel) ⟨?_, ?_, ?_⟩
      ⟨?_, ?_, ?_⟩ <;> decide +kernel
  obtain ⟨events, stored⟩ := written
  exact stored.silent (by decide +kernel)

/-- The first replacement has appended a checkpoint before the second starts. -/
theorem pairsDiffer_iff_tool :
    Renewed (replacedTool retriedConfiguration 1)
        (silentTool (replacedTool retriedConfiguration 1)) ∧
      (PairsDiffer (silentTools.map greeting) ↔
        RenewedBetween (silentTools.map greeting)) := by
  obtain ⟨events, stored⟩ := stored_silentTools
  have supervised : Supervised (toolCodec silentTools)
      ((silentTools.map greeting).map SupervisorProcess.incarnation) events :=
    stored.supervised
  refine ⟨?_, pairsDiffer_iff supervised stored.roundTrips stored.untorn
    ?_ ?_⟩
  · unfold Renewed
    decide +kernel
  · simp [greeting_greets]
  · decide +kernel

def reusedTools : List SupervisorProcess :=
  (silentTool (silentTool (replacedTool retriedConfiguration 1)) ::
    silentTools).map greeting

/-- A process that recovers a journal and disappears is followed by one with the
same identity. -/
theorem identity_reused :
    ∃ events,
      Supervised (toolCodec silentTools)
        (reusedTools.map SupervisorProcess.incarnation) events ∧
      (∀ event ∈ events, event.RoundTrips (toolCodec silentTools) ∧
        ¬ event.Tears (toolCodec silentTools)) ∧
      (∀ process ∈ reusedTools, process.Greets) ∧
      (reusedTools.Pairwise fun later earlier =>
        ∀ id ∈ issued later.incarnation.history,
          id ∉ issued earlier.incarnation.history) ∧
      ¬ PairsDiffer reusedTools := by
  obtain ⟨events, stored⟩ := stored_silentTools
  obtain ⟨more, last⟩ := stored.silent (by decide +kernel)
  refine ⟨more, last.supervised, last.tame, ?_, ?_, ?_⟩
  · simp [reusedTools, greeting_greets]
  · decide +kernel
  · unfold PairsDiffer
    decide +kernel

end Susm.Supervisor
