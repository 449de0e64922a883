import Susm.Supervisor.AttemptWorld

/-!
# Recovery behind a terminal observation

A supervisor that disappears after it journaled a terminal observation is
replaced by one that decides again, from the last checkpoint.  The decision is
known from that checkpoint, the configuration and the answer to the stop
check; the outcome stays final when it agrees with the journal.
-/

namespace Susm.Supervisor

open Susm.Foundation
open Susm.Protocol

def terminalKinds (frames : List RuntimeFrame) : List ObservationKind :=
  frames.filterMap fun frame =>
    match frame.record with
    | some (.observation observation) =>
        if observation.terminal then some observation.kind else none
    | _ => none

def settles (configuration : ExecutionConfiguration)
    (frames : List RuntimeFrame) (stopRequested : Bool) :
    Option ObservationKind :=
  match (RuntimeJournal.mk false frames).recovery.checkpoint with
  | none => none
  | some checkpoint =>
      match checkpoint.phase with
      | .restartBackoff => none
      | .launching | .running =>
          match configuration.kind with
          | .job => some (if stopRequested then .cancelled else .outcomeUnknown)
          | .service =>
              if stopRequested then some .stopped
              else if shouldRetry configuration false
                  (max checkpoint.attempt 1 - 1) then none
              else some .failed

/-- Whether the operation takes back a journaled outcome of this kind. -/
def reopens (kind : ObservationKind) : SupervisorOp → Bool
  | .spawn .. | .selectBackoff _ => true
  | .append (.checkpoint checkpoint) => checkpoint.phase = .restartBackoff
  | .append (.observation observation) =>
      observation.terminal ∧ observation.kind ≠ kind
  | _ => false

def stopAnswer : (op : SupervisorOp) → SupervisorAnswer op → Option Bool
  | .stopRequested, answer => some answer
  | _, _ => none

def finalMonitor (kind : ObservationKind) (stopRequested : Bool) :
    Program.Monitor SupervisorOp SupervisorAnswer Bool where
  admits asked op answer :=
    asked = false → ∀ given, stopAnswer op answer = some given →
      given = stopRequested
  permits _ op := reopens kind op = false
  after asked op answer := asked || (stopAnswer op answer).isSome

section Final

variable {kind : ObservationKind} {stopRequested : Bool}

/-! ## Finishing again -/

theorem safe_call {op : SupervisorOp} (h : reopens kind op = false) :
    Program.Safe (finalMonitor kind stopRequested) (call op) :=
  .call fun _ => h

theorem append_safe (recorder : RuntimeRecorder) {record : RuntimeRecord}
    (h : reopens kind (.append record) = false) :
    Program.Safe (finalMonitor kind stopRequested) (recorder.append record) := by
  refine .bind (safe_call h) ?_
  rintro (_ | ⟨source, left⟩) <;> exact .done _

theorem observeOrFail_safe (recorder : RuntimeRecorder)
    (facts : ObservationFacts) (h : facts.terminal = true → facts.kind = kind) :
    Program.Safe (finalMonitor kind stopRequested)
      (recorder.observeOrFail facts) := by
  refine .bind (.bind (safe_call rfl) fun now =>
    .bind (append_safe _ ?_) fun result => .done _) fun observed =>
      .bind (.done _) fun _ => .done _
  rw [reopens, decide_eq_false_iff_not, not_and, not_not]
  exact h

theorem finishExecutionKind_safe (recorder : RuntimeRecorder) (attempt : Nat)
    (result : AttemptResult) :
    Program.Safe (finalMonitor kind stopRequested)
      (finishExecutionKind recorder attempt result kind) :=
  .bind (observeOrFail_safe _ _ fun _ => rfl) fun _ =>
    .bind (safe_call rfl) fun _ => .done _

theorem finishExecution_safe {configuration : ExecutionConfiguration}
    (recorder : RuntimeRecorder) (attempt : Nat) {result : AttemptResult}
    (h : finishKind configuration result = kind) :
    Program.Safe (finalMonitor kind stopRequested)
      (finishExecution configuration recorder attempt result) := by
  subst h
  exact finishExecutionKind_safe recorder attempt result

theorem finishStopped_safe {configuration : ExecutionConfiguration}
    (recorder : RuntimeRecorder) (attempt : Nat)
    (h : (match configuration.kind with
      | .job => ObservationKind.cancelled
      | .service => .stopped) = kind) :
    Program.Safe (finalMonitor kind stopRequested)
      (finishStopped configuration recorder attempt) := by
  subst h
  refine .bind (safe_call rfl) fun now => ?_
  intro asked
  refine Program.wp_bind (Program.wp_bind ⟨rfl, fun ended _ => ?_⟩)
  exact Program.Safe.bind (finishExecution_safe recorder attempt rfl)
    (fun _ => .done _) _

structure SettlesOn (configuration : ExecutionConfiguration) (retries : Nat)
    (stopRequested : Bool) (kind : ObservationKind) : Prop where
  stopped : stopRequested = true →
    (match configuration.kind with
      | .job => ObservationKind.cancelled
      | .service => .stopped) = kind
  job : stopRequested = false → configuration.kind = .job →
    ObservationKind.outcomeUnknown = kind
  service : stopRequested = false → configuration.kind = .service →
    shouldRetry configuration false retries = false ∧
      ObservationKind.failed = kind

/-- The execution is over: the run loop is not entered. -/
def Ended (result : Except RunError RoundResult) : Prop :=
  ∀ next, result ≠ .ok (.inl next)

theorem Ended.error (error : RunError) : Ended (.error error) :=
  fun _ h => by cases h

theorem Ended.result (result : AttemptResult) : Ended (.ok (.inr result)) :=
  fun _ h => by cases h

theorem recoverActive_final {state : LoopState}
    (settles : SettlesOn state.configuration state.retries stopRequested kind)
    (fuel : Nat) (phase : CheckpointPhase) :
    (recoverActive fuel phase state).wp (finalMonitor kind stopRequested)
      (fun result _ => Ended result) false := by
  refine Program.wp_bind (Program.wp_call rfl ?_)
  intro answer hanswer
  obtain rfl : answer = stopRequested := hanswer rfl answer rfl
  suffices h : Program.Ensures (finalMonitor kind answer) Ended
      (ite (answer = true) _ _) from h true
  by_cases hstop : answer = true
  · rw [if_pos hstop]
    exact .bind (finishStopped_safe _ _ (settles.stopped hstop)) .error
      fun stopped => .done (.result stopped)
  rw [if_neg hstop]
  rw [Bool.not_eq_true] at hstop
  refine .bind (safe_call rfl) .error fun now => ?_
  refine .bind (.bind (safe_call rfl) fun _ => .done _) .error fun _ => ?_
  refine .bind (observeOrFail_safe _ _ nofun) .error fun recorder => ?_
  change Program.Ensures _ _ (ite (state.configuration.kind = .job) _
    (ite (shouldRetry state.configuration false state.retries = true) _ _))
  cases hkind : state.configuration.kind with
  | job =>
      obtain rfl := settles.job hstop hkind
      rw [if_pos rfl]
      exact .bind (finishExecutionKind_safe _ _ _) .error
        fun _ => .done (.result _)
  | service =>
      obtain ⟨hretry, rfl⟩ := settles.service hstop hkind
      rw [if_neg nofun, hretry, if_neg nofun]
      exact .bind (finishExecution_safe _ _ rfl) .error
        fun _ => .done (.result _)

theorem settles_eq_some {configuration : ExecutionConfiguration}
    {frames : List RuntimeFrame}
    (h : settles configuration frames stopRequested = some kind) :
    ∃ checkpoint,
      (RuntimeJournal.mk false frames).recovery.checkpoint = some checkpoint ∧
      checkpoint.phase ≠ .restartBackoff ∧
      SettlesOn configuration (max checkpoint.attempt 1 - 1) stopRequested
        kind := by
  unfold settles at h
  split at h
  · cases h
  rename_i checkpoint hcheckpoint
  have hphase : checkpoint.phase ≠ .restartBackoff := by
    intro hphase
    rw [hphase] at h
    cases h
  refine ⟨checkpoint, hcheckpoint, hphase, ?_⟩
  cases hkind : configuration.kind with
  | job =>
      have h : (if stopRequested then ObservationKind.cancelled
          else .outcomeUnknown) = kind := by
        cases hcase : checkpoint.phase <;> simp_all
      subst h
      exact ⟨by simp_all, by simp_all, by simp_all⟩
  | service =>
      have h : (if stopRequested then some ObservationKind.stopped
          else if shouldRetry configuration false
              (max checkpoint.attempt 1 - 1) then none
          else some .failed) = some kind := by
        cases hcase : checkpoint.phase <;> simp_all
      split_ifs at h with hstop hretry
      · cases h
        exact ⟨by simp_all, by simp_all, by simp_all⟩
      · cases h
        exact ⟨by simp_all, by simp_all, by simp_all⟩

theorem recover_final {state : LoopState} {checkpoint : Checkpoint}
    (hphase : checkpoint.phase ≠ .restartBackoff)
    (settles : SettlesOn state.configuration state.retries stopRequested kind)
    (fuel : Nat) :
    (recover fuel (some checkpoint) state).wp
      (finalMonitor kind stopRequested) (fun result _ => Ended result)
      false := by
  have hactive := recoverActive_final settles fuel checkpoint.phase
  unfold recover
  dsimp only
  cases hcase : checkpoint.phase with
  | launching => simpa only [hcase] using hactive
  | running => simpa only [hcase] using hactive
  | restartBackoff => exact absurd hcase hphase

theorem run_final {configuration : ExecutionConfiguration}
    {recovery : RuntimeRecovery} {checkpoint : Checkpoint}
    (hcheckpoint : recovery.checkpoint = some checkpoint)
    (hphase : checkpoint.phase ≠ .restartBackoff)
    (settles : SettlesOn configuration (max checkpoint.attempt 1 - 1)
      stopRequested kind)
    (fuel : Nat) (identity : SupervisorIdentity) :
    (run fuel configuration recovery identity).wp
      (finalMonitor kind stopRequested) (fun _ _ => True) false := by
  have hretries : (initialState configuration recovery identity).retries =
      max checkpoint.attempt 1 - 1 := by
    simp only [initialState, hcheckpoint]
  rw [← hretries] at settles
  unfold run
  rw [hcheckpoint]
  extract_lets start rest
  have hrest : (rest ()).wp (finalMonitor kind stopRequested)
      (fun _ _ => True) false := by
    refine Program.wp_bind (Program.wp_call rfl fun console _ => ?_)
    cases console with
    | error error => trivial
    | ok opened =>
        refine Program.wp_bind (Program.wp_bind (Program.wp_mono
          (recover_final hphase settles fuel) ?_))
        rintro (error | next | result) asked hended
        · trivial
        · exact absurd rfl (hended next)
        · trivial
  split_ifs with hsession
  · refine Program.wp_bind (Program.wp_call rfl fun opened _ => ?_)
    cases opened with
    | error error => trivial
    | ok opened => exact hrest
  · exact hrest

theorem supervise_final {configuration : ExecutionConfiguration}
    {frames : List RuntimeFrame}
    (h : settles configuration frames stopRequested = some kind) (fuel : Nat) :
    (supervise fuel configuration ⟨false, frames⟩).wp
      (finalMonitor kind stopRequested) (fun _ _ => True) false := by
  obtain ⟨checkpoint, hcheckpoint, hphase, settles⟩ := settles_eq_some h
  unfold supervise
  simp only [hcheckpoint]
  refine Program.wp_bind ?_
  refine Program.wp_bind (Program.wp_mono
    (run_final hcheckpoint hphase settles fuel _) ?_)
  rintro (error | result) asked -
  · trivial
  · refine Program.wp_bind (Program.wp_call rfl fun finalized _ => ?_)
    exact Program.wp_bind (by cases finalized <;> trivial)

end Final

/-! ## Supervisors on one journal -/

def journaled (history : List (Occurrence SupervisorOp SupervisorAnswer)) :
    List RuntimeFrame :=
  history.filterMap fun
    | ⟨.append record, .synced⟩ => some (RuntimeJournal.frameOf record)
    | ⟨.append record, .failed _ .whole⟩ =>
        some (RuntimeJournal.frameOf record)
    | _ => none

def cutsFrame :
    (op : SupervisorOp) → (answer : SupervisorAnswer op) → Bool
  | .append _, .failed _ .part => true
  | _, _ => false

/-- Behind a frame that was cut nothing is appended. -/
def Uncut (history : List (Occurrence SupervisorOp SupervisorAnswer)) : Prop :=
  history.Pairwise fun earlier later =>
    cutsFrame earlier.1 earlier.2 = true → ∀ record, later.1 ≠ .append record

theorem Uncut.of_none
    {history : List (Occurrence SupervisorOp SupervisorAnswer)}
    (h : ∀ occurrence ∈ history, cutsFrame occurrence.1 occurrence.2 = false) :
    Uncut history :=
  List.pairwise_of_forall_mem_list fun earlier hearlier _ _ cut => by
    rw [h earlier hearlier] at cut
    cases cut

/-- The controller link acknowledges observations whenever it likes. -/
def withoutAcknowledgements (frames : List RuntimeFrame) :
    List RuntimeFrame :=
  frames.filter fun frame =>
    match frame.record with
    | some (.acknowledgement _) => false
    | _ => true

def firstStop (history : List (Occurrence SupervisorOp SupervisorAnswer)) :
    Option Bool :=
  history.findSome? fun occurrence => stopAnswer occurrence.1 occurrence.2

/-- What one supervisor started from and did until it disappeared. -/
structure Incarnation where
  configuration : ExecutionConfiguration
  recovered : List RuntimeFrame
  stopRequested : Bool
  fuel : Nat
  history : List (Occurrence SupervisorOp SupervisorAnswer)

namespace Incarnation

structure Lived (incarnation : Incarnation) : Prop where
  reached : (supervise incarnation.fuel incarnation.configuration
    ⟨false, incarnation.recovered⟩).Reaches incarnation.history
  firstStop : ∀ answer, Supervisor.firstStop incarnation.history = some answer →
    answer = incarnation.stopRequested

/-- Recovery settles on every outcome that the journal already has. -/
def Agrees (incarnation : Incarnation) : Prop :=
  ∀ kind ∈ terminalKinds incarnation.recovered,
    settles incarnation.configuration incarnation.recovered
      incarnation.stopRequested = some kind

def outcomes (incarnation : Incarnation) : List ObservationKind :=
  terminalKinds (journaled incarnation.history)

/-- No operation of this incarnation takes back such an outcome. -/
def Keeps (incarnation : Incarnation) (kind : ObservationKind) : Prop :=
  ∀ occurrence ∈ incarnation.history, reopens kind occurrence.1 = false

/-- A supervisor in a world of attempts that disappears after so many
operations. -/
def interrupted (configuration : ExecutionConfiguration)
    (recovered : List RuntimeFrame) (facts : List AttemptFact)
    (count : Nat) : Incarnation where
  configuration := configuration
  recovered := recovered
  stopRequested := false
  fuel := 2
  history :=
    (life 2 configuration recovered ⟨0, facts⟩).history.take count

theorem interrupted_lived {configuration : ExecutionConfiguration}
    {recovered : List RuntimeFrame} {facts : List AttemptFact} {count : Nat}
    (h : (Supervisor.firstStop (interrupted configuration recovered facts
      count).history).getD false = false) :
    (interrupted configuration recovered facts count).Lived where
  reached := Program.exec_reaches ..
  firstStop answer hanswer := by
    rw [hanswer] at h
    exact h

theorem interrupted_uncut (configuration : ExecutionConfiguration)
    (recovered : List RuntimeFrame) (facts : List AttemptFact) (count : Nat) :
    ∀ occurrence ∈ (interrupted configuration recovered facts count).history,
      cutsFrame occurrence.1 occurrence.2 = false := by
  intro occurrence h
  obtain ⟨world, hanswer⟩ :=
    Program.exec_answers _ _ _ occurrence (List.mem_of_mem_take h)
  obtain ⟨op, answer⟩ := occurrence
  change (world.answer op).1 = answer at hanswer
  subst hanswer
  cases op <;> rfl

end Incarnation

/-- The operations of all supervisors, the last one of which comes first. -/
def wholeHistory (incarnations : List Incarnation) :
    List (Occurrence SupervisorOp SupervisorAnswer) :=
  incarnations.reverse.flatMap Incarnation.history

theorem wholeHistory_cons (incarnation : Incarnation)
    (earlier : List Incarnation) :
    wholeHistory (incarnation :: earlier) =
      wholeHistory earlier ++ incarnation.history := by
  simp [wholeHistory]

theorem uncut_wholeHistory {incarnations : List Incarnation}
    (h : ∀ incarnation ∈ incarnations, ∀ occurrence ∈ incarnation.history,
      cutsFrame occurrence.1 occurrence.2 = false) :
    Uncut (wholeHistory incarnations) := by
  refine .of_none fun occurrence hoccurrence => ?_
  obtain ⟨incarnation, hmem, hhistory⟩ := List.mem_flatMap.mp hoccurrence
  exact h incarnation (List.mem_reverse.mp hmem) occurrence hhistory

/-- The supervisors of one execution, the last one first, and the frames of
their journal, which is readable as long as none is cut in the middle. -/
inductive Incarnations : List RuntimeFrame → List Incarnation → Prop
  | none : Incarnations [] []
  | recover {frames : List RuntimeFrame} {earlier : List Incarnation}
      {incarnation : Incarnation} (before : Incarnations frames earlier)
      (recovered : withoutAcknowledgements incarnation.recovered =
        withoutAcknowledgements frames)
      (lived : incarnation.Lived)
      (uncut : Uncut (wholeHistory (incarnation :: earlier))) :
      Incarnations (incarnation.recovered ++ journaled incarnation.history)
        (incarnation :: earlier)

theorem terminalKinds_append (first second : List RuntimeFrame) :
    terminalKinds (first ++ second) =
      terminalKinds first ++ terminalKinds second :=
  List.filterMap_append

theorem terminalKinds_withoutAcknowledgements (frames : List RuntimeFrame) :
    terminalKinds (withoutAcknowledgements frames) = terminalKinds frames := by
  unfold terminalKinds withoutAcknowledgements
  rw [List.filterMap_filter]
  congr 1
  funext frame
  obtain ⟨format, _ | checkpoint | observation | acknowledgement⟩ := frame <;>
    rfl

theorem admits_asked {kind : ObservationKind} {stopRequested : Bool}
    (history : List (Occurrence SupervisorOp SupervisorAnswer)) :
    (finalMonitor kind stopRequested).Admits true history := by
  induction history with
  | nil => trivial
  | cons occurrence history ih => exact ⟨nofun, ih⟩

theorem admits_firstStop {kind : ObservationKind} {stopRequested : Bool}
    {history : List (Occurrence SupervisorOp SupervisorAnswer)}
    (h : ∀ answer, firstStop history = some answer → answer = stopRequested) :
    (finalMonitor kind stopRequested).Admits false history := by
  induction history with
  | nil => trivial
  | cons occurrence history ih =>
      obtain ⟨op, answer⟩ := occurrence
      unfold firstStop at h ih
      rw [List.findSome?_cons] at h
      cases hanswer : stopAnswer op answer with
      | none =>
          simp only [hanswer] at h
          refine ⟨by simp [finalMonitor, hanswer], ?_⟩
          simpa [finalMonitor, hanswer] using ih h
      | some given =>
          simp only [hanswer] at h
          refine ⟨fun _ answer hgiven => ?_, ?_⟩
          · exact h answer (hanswer ▸ hgiven)
          · simpa [finalMonitor, hanswer] using admits_asked history

theorem Incarnation.Lived.keeps_settled {incarnation : Incarnation}
    (lived : incarnation.Lived) {kind : ObservationKind}
    (settled : settles incarnation.configuration incarnation.recovered
      incarnation.stopRequested = some kind) :
    incarnation.Keeps kind := by
  obtain ⟨last, steps⟩ := lived.reached
  have permitted := Program.wp_permits
    (supervise_final settled incarnation.fuel) steps
    (admits_firstStop lived.firstStop)
  exact permitted.forall fun _ _ allowed => allowed

theorem Incarnation.Lived.keeps {incarnation : Incarnation}
    (lived : incarnation.Lived) (agrees : incarnation.Agrees)
    {kind : ObservationKind}
    (h : kind ∈ terminalKinds incarnation.recovered) :
    incarnation.Keeps kind :=
  lived.keeps_settled (agrees kind h)

theorem Incarnations.outcomes_recovered {frames : List RuntimeFrame}
    {incarnations : List Incarnation}
    (run : Incarnations frames incarnations) :
    ∀ incarnation ∈ incarnations, ∀ kind ∈ incarnation.outcomes,
      kind ∈ terminalKinds frames := by
  induction run with
  | none => simp
  | recover before recovered lived uncut ih =>
      rintro incarnation (_ | ⟨_, earlier⟩) kind hkind
      · rw [terminalKinds_append]
        exact List.mem_append_right _ hkind
      · rw [terminalKinds_append, ← terminalKinds_withoutAcknowledgements,
          recovered, terminalKinds_withoutAcknowledgements]
        exact List.mem_append_left _ (ih incarnation earlier kind hkind)

theorem Incarnations.outcomes_kept {frames : List RuntimeFrame}
    {incarnations : List Incarnation}
    (run : Incarnations frames incarnations)
    (agrees : ∀ incarnation ∈ incarnations, incarnation.Agrees) :
    incarnations.Pairwise fun later earlier =>
      ∀ kind ∈ earlier.outcomes, later.Keeps kind := by
  induction run with
  | none => exact .nil
  | recover before recovered lived uncut ih =>
      obtain ⟨agreesLast, agreesEarlier⟩ := List.forall_mem_cons.mp agrees
      refine .cons ?_ (ih agreesEarlier)
      intro earlier hearlier kind hkind
      refine lived.keeps agreesLast ?_
      rw [← terminalKinds_withoutAcknowledgements, recovered,
        terminalKinds_withoutAcknowledgements]
      exact before.outcomes_recovered earlier hearlier kind hkind

/-- The supervisor disappears between the terminal observation and the
result. -/
def finishedTool (configuration : ExecutionConfiguration)
    (code : UInt32) : Incarnation :=
  .interrupted configuration [] [.exited code 5] 20

def replacedTool (configuration : ExecutionConfiguration)
    (code : UInt32) : Incarnation :=
  .interrupted configuration
    (journaled (finishedTool configuration code).history) [.exited code 5] 20

theorem Incarnations.tool (configuration : ExecutionConfiguration)
    (code : UInt32)
    (finished : (firstStop (finishedTool configuration code).history).getD
      false = false)
    (replaced : (firstStop (replacedTool configuration code).history).getD
      false = false) :
    Incarnations
      ((replacedTool configuration code).recovered ++
        journaled (replacedTool configuration code).history)
      [replacedTool configuration code,
        finishedTool configuration code] :=
  have first : ∀ incarnation ∈ [finishedTool configuration code],
      ∀ occurrence ∈ incarnation.history,
        cutsFrame occurrence.1 occurrence.2 = false :=
    List.forall_mem_singleton.mpr (Incarnation.interrupted_uncut _ _ _ _)
  .recover (.recover .none rfl (Incarnation.interrupted_lived finished)
      (uncut_wholeHistory first)) rfl
    (Incarnation.interrupted_lived replaced)
    (uncut_wholeHistory (List.forall_mem_cons.mpr
      ⟨Incarnation.interrupted_uncut _ _ _ _, first⟩))

end Susm.Supervisor
