import Susm.Supervisor.Reconsideration

/-!
# Waiting for a retry under changing policies

Three calls wait for a retry: after an attempt that has failed, after an attempt
that a lost supervisor left behind, and again when a supervisor was lost while
it waited.  A watch follows the policy updates that arrive and compares what
comes next with the execution state machine.
-/

namespace Susm.Supervisor

open Susm.Foundation
open Susm.Domain
open Susm.Protocol
open Susm.Controller
open Susm.Config (WorkloadDefinition)

/-! ## The watch -/

/-- What stays the same during a wait. -/
structure BackoffPlan where
  attempt : Nat
  retryAtUnixMs : Int
  delayMs : Nat
  deriving DecidableEq, Repr

/-- Before the wait, with the retry that was persisted last; during it, between
updates and after one; and when nothing is compared any more. -/
inductive Watch where
  | before (scheduled : Option (Nat × Int))
  | waiting (machine : ExecutionState) (plan : BackoffPlan) (policyOpen : Bool)
  | due (machine : ExecutionState) (plan : BackoffPlan) (update : PolicyUpdate)
  | settled

namespace Watch

/-- The wait has begun, and there is something left to compare. -/
def unsettled : Watch → Bool
  | .waiting .. | .due .. => true
  | .before _ | .settled => false

def heard (machine : ExecutionState) (plan : BackoffPlan) (policyOpen : Bool) :
    BackoffEvent → Watch
  | .policyChanged (some update) =>
      if policyOpen then .due machine plan update
      else .waiting machine plan policyOpen
  | .policyClosed => .waiting machine plan false
  | .policyChanged none | .externalChanged false | .externalClosed
  | .stdinClosed => .waiting machine plan policyOpen
  | .sessionEnded | .externalChanged true | .stdinStop | .elapsed => .settled

/-- The machine with which the supervisor waits on, unless it has ended. -/
def listens (meaning : PolicyUpdate → WorkloadDefinition)
    (machine : ExecutionState) (delayMs : Nat) :
    Watch → Option (ExecutionState × BackoffPlan × Bool)
  | .before scheduled =>
      scheduled.map fun retry => (machine, ⟨retry.1, retry.2, delayMs⟩, true)
  | .waiting machine plan policyOpen => some (machine, plan, policyOpen)
  | .due machine plan update =>
      match reconsidered machine (meaning update) with
      | .ok reaction =>
          match reaction.state.phase with
          | .restartBackoff .. => some (reaction.state, plan, true)
          | _ => none
      | .error _ => none
  | .settled => none

def after (meaning : PolicyUpdate → WorkloadDefinition)
    (machine : ExecutionState) (watch : Watch) :
    (op : SupervisorOp) → SupervisorAnswer op → Watch
  | .selectBackoff delayMs, event =>
      match watch.listens meaning machine delayMs with
      | some (machine, plan, policyOpen) => heard machine plan policyOpen event
      | none => .settled
  | .append (.checkpoint checkpoint), _ =>
      match watch with
      | .before _ =>
          if checkpoint.phase = .restartBackoff then
            .before (some (checkpoint.attempt, checkpoint.retryAtUnixMs))
          else watch
      | _ => watch
  | .append (.observation observation), _ =>
      match watch with
      | .due .. => if observation.terminal then .settled else watch
      | _ => watch
  | _, _ => watch

end Watch

/--
After an update the supervisor waits on exactly if the machine does, or records
the outcome of the machine, wherever `enough` holds, and nowhere else; the
attempt and the deadline that it persists stay the same.
-/
def backoffMonitor (host : Host) (meaning : PolicyUpdate → WorkloadDefinition)
    (machine : ExecutionState) (enough : PolicyUpdate → Prop) :
    Program.Monitor SupervisorOp SupervisorAnswer Watch where
  admits
    | watch, .selectBackoff delayMs, event =>
        ∀ current plan update,
          watch.listens meaning machine delayMs = some (current, plan, true) →
          event = .policyChanged (some update) →
          Announces host current (meaning update) update
    | _, _, _ => True
  permits
    | .waiting _ plan _, .selectBackoff delayMs => delayMs = plan.delayMs
    | .waiting .., .append _ => False
    | .due current plan update, .selectBackoff delayMs =>
        delayMs = plan.delayMs ∧
          (GoesOn current (meaning update) ↔ enough update)
    | .due _ plan _, .append (.checkpoint checkpoint) =>
        checkpoint.phase = .restartBackoff ∧
          checkpoint.attempt = plan.attempt ∧
          checkpoint.retryAtUnixMs = plan.retryAtUnixMs
    | .due current _ update, .append (.observation observation) =>
        observation.terminal = true →
          (EndsWith current (meaning update) observation.kind ↔ enough update)
    | _, _ => True
  after := Watch.after meaning machine

/-! ## The calls that wait -/

/-- The limit permits a retry after both counts of others, or after neither. -/
def SameSide (update : PolicyUpdate) (first second : Nat) : Prop :=
  allows update first = true ↔ allows update second = true

theorem sameSide_iff {update : PolicyUpdate} {first second : Nat} :
    SameSide update first second ↔
      allows update first = allows update second :=
  Bool.eq_iff_iff.symm

inductive BackoffEntry where
  | attempted (state : LoopState) (result : AttemptResult)
  | lost (phase : CheckpointPhase) (state : LoopState)
  | recovered (checkpoint : Checkpoint) (state : LoopState)

namespace BackoffEntry

def program (fuel : Nat) : BackoffEntry → Run RoundResult
  | .attempted state result => decideRetry fuel state result
  | .lost phase state => recoverActive fuel phase state
  | .recovered checkpoint state => recoverBackoff fuel checkpoint state

def known : BackoffEntry → Known
  | .attempted state result =>
      ⟨isSuccessful state.configuration result.exitCode,
        (state.counted result).retried.retries - 1, false⟩
  | .lost _ state => ⟨false, state.retried.retries - 1, false⟩
  | .recovered _ state => ⟨false, state.attempt - 2, true⟩

def attempt : BackoffEntry → Nat
  | .attempted state _ | .lost _ state => state.retried.attempt
  | .recovered _ state => state.attempt

def Recorded (exitCode : Option UInt32) : BackoffEntry → Prop
  | .attempted _ result => result.exitCode = exitCode
  | .lost .. => none = exitCode
  | .recovered .. => True

/-- The retries before the one that is waited for, as the supervisor counts
them. -/
def count : BackoffEntry → Nat
  | .attempted state result => (state.counted result).retried.retries - 1
  | .lost _ state => state.retried.retries - 1
  | .recovered _ state => state.attempt - 2

/--
When an update decides the retry as it decides the recorded attempt.  An exit
code that was classified before the wait keeps its class, unless the limit
permits no retry of the failure that it was or has become.  A lost supervisor
has left none, and one that is recovered from a wait is forgotten, so that it
must not be a success that the update would end with.  Where the limit is looked
at, it does not lie between the two counts of retries.
-/
def Spares (exitCode : Option UInt32) (retries : Nat) (update : PolicyUpdate)
    (entry : BackoffEntry) : Prop :=
  match entry, update.restartPolicy with
  | .attempted .., .never | .lost .., .never => True
  | .attempted .., .always | .lost .., .always | .lost .., .onFailure =>
      SameSide update entry.count retries
  | .attempted state result, .onFailure =>
      match isSuccessful state.configuration result.exitCode,
        succeeds update exitCode with
      | true, true => True
      | true, false => allows update retries = false
      | false, true => allows update entry.count = false
      | false, false => SameSide update entry.count retries
  | .recovered .., .never => succeeds update exitCode = false
  | .recovered .., .always =>
      SameSide update entry.count retries ∧
        (succeeds update exitCode = true → allows update retries = true)
  | .recovered .., .onFailure =>
      SameSide update entry.count retries ∧ succeeds update exitCode = false

def start : BackoffEntry → Watch
  | .attempted .. | .lost .. => .before none
  | .recovered checkpoint state =>
      .before (some (state.attempt, checkpoint.retryAtUnixMs))

theorem spares_iff {entry : BackoffEntry} {exitCode : Option UInt32}
    {retries : Nat} {update : PolicyUpdate}
    (recorded : entry.Recorded exitCode) :
    entry.Spares exitCode retries update ↔
      Suffices entry.known exitCode retries update := by
  unfold Spares Suffices
  cases entry with
  | attempted state result =>
      dsimp only [known, count]
      cases update.restartPolicy with
      | never => simp
      | always => simp [sameSide_iff]
      | onFailure =>
          cases hold : isSuccessful state.configuration result.exitCode <;>
            cases hnew : succeeds update exitCode <;>
            simp [hold, sameSide_iff]
  | lost phase state =>
      cases recorded
      dsimp only [known, count]
      cases update.restartPolicy <;> simp [succeeds, sameSide_iff]
  | recovered checkpoint state =>
      dsimp only [known, count]
      cases update.restartPolicy with
      | never => simp
      | always => simp [sameSide_iff]
      | onFailure =>
          cases succeeds update exitCode <;> simp [sameSide_iff]

end BackoffEntry

/-- The program keeps to the monitor and leaves nothing unsettled. -/
def Complies (host : Host) (meaning : PolicyUpdate → WorkloadDefinition)
    (machine : ExecutionState) (enough : PolicyUpdate → Prop) {Value : Type}
    (program : Run Value) (watch : Watch) : Prop :=
  program.wp (backoffMonitor host meaning machine enough)
    (Program.onOk fun _ last => last.unsettled = false) watch

/-! ## Operations under the watch -/

section Operations

variable {host : Host} {meaning : PolicyUpdate → WorkloadDefinition}
  {machine current : ExecutionState} {enough : PolicyUpdate → Prop}
  {watch : Watch} {plan : BackoffPlan} {update : PolicyUpdate} {Value : Type}

theorem complies_settled (program : Run Value) :
    Complies host meaning machine enough program .settled := by
  induction program with
  | done result => cases result <;> trivial
  | exhausted => trivial
  | perform op next ih =>
      refine ⟨by cases op <;> trivial, fun answer _ => ?_⟩
      have settled : (backoffMonitor host meaning machine enough).after .settled op
          answer = .settled := by
        rcases op with _ | _ | _ | _ | _ | ⟨⟨⟩⟩ | _ <;> rfl
      rw [settled]
      exact ih answer

theorem complies_unixMs {rest : Int → Run Value}
    (h : ∀ now, Complies host meaning machine enough (rest now) watch) :
    Complies host meaning machine enough (unixMs.bind rest) watch :=
  ⟨by cases watch <;> trivial, fun now _ => h now⟩

theorem complies_persist {recorder : RuntimeRecorder}
    {configuration : ExecutionConfiguration} {attempt : Nat}
    {phase : CheckpointPhase} {retryAt : Int} {preflight : Option Preflight}
    {rest : Unit → Run Value}
    (h : ∀ checkpoint, checkpoint.phase = phase →
      checkpoint.attempt = attempt → checkpoint.retryAtUnixMs = retryAt →
      (backoffMonitor host meaning machine enough).permits watch
          (.append (.checkpoint checkpoint)) ∧
        Complies host meaning machine enough (rest ())
          (Watch.after meaning machine watch
            (.append (.checkpoint checkpoint)) .synced)) :
    Complies host meaning machine enough
      ((recorder.checkpoint configuration attempt phase retryAt
        preflight).bind fun persisted => (Program.orFail persisted).bind rest)
      watch := by
  obtain ⟨permitted, hrest⟩ := h (recorder.checkpointRecord configuration
    attempt phase retryAt preflight) rfl rfl rfl
  refine ⟨permitted, fun answer _ => ?_⟩
  cases answer with
  | synced => exact hrest
  | failed source left => trivial

theorem complies_observe {recorder : RuntimeRecorder} {facts : ObservationFacts}
    {rest : RuntimeRecorder → Run Value}
    (h : ∀ observation, observation.kind = facts.kind →
      observation.terminal = facts.terminal →
      (backoffMonitor host meaning machine enough).permits watch
          (.append (.observation observation)) ∧
        Complies host meaning machine enough (rest recorder.advanced)
          (Watch.after meaning machine watch
            (.append (.observation observation)) .synced)) :
    Complies host meaning machine enough
      ((recorder.observeOrFail facts).bind rest) watch := by
  refine complies_unixMs fun now => ?_
  obtain ⟨permitted, hrest⟩ := h
    { sequence := recorder.advanced.sequence
      kind := facts.kind
      attempt := facts.attempt
      exitCode := facts.exitCode
      detail := facts.detail
      observedUnixMs := now
      terminal := facts.terminal
      workloadProcessId := facts.workloadProcessId } rfl rfl
  refine ⟨permitted, fun answer _ => ?_⟩
  cases answer with
  | synced => exact hrest
  | failed source left => trivial

theorem complies_finish_before {scheduled : Option (Nat × Int)}
    {recorder : RuntimeRecorder} {attempt : Nat} {result : AttemptResult}
    {kind : ObservationKind} {rest : Unit → Run Value}
    (h : Complies host meaning machine enough (rest ()) (.before scheduled)) :
    Complies host meaning machine enough
      ((finishExecutionKind recorder attempt result kind).bind rest)
      (.before scheduled) := by
  refine ⟨trivial, fun now _ => ⟨trivial, fun answer _ => ?_⟩⟩
  cases answer with
  | failed source left => trivial
  | synced =>
      refine ⟨trivial, fun written _ => ?_⟩
      cases written with
      | error error => trivial
      | ok done => exact h

theorem complies_finish_due {recorder : RuntimeRecorder} {attempt : Nat}
    {result : AttemptResult} {kind : ObservationKind} {rest : Unit → Run Value}
    (h : EndsWith current (meaning update) kind ↔ enough update) :
    Complies host meaning machine enough
      ((finishExecutionKind recorder attempt result kind).bind rest)
      (.due current plan update) := by
  refine ⟨trivial, fun now _ => ⟨fun _ => h, fun answer _ => ?_⟩⟩
  cases answer with
  | failed source left => trivial
  | synced => exact complies_settled _

end Operations

/-! ## The wait -/

section Wait

variable {host : Host} {meaning : PolicyUpdate → WorkloadDefinition}
  {machine current : ExecutionState} {context : BackoffContext}
  {delayMs : Nat} {exitCode : Option UInt32} {retries : Nat} {known : Known}
  {state : BackoffState} {watch : Watch} {update : PolicyUpdate} {Value : Type}

theorem complies_updateBackoff
    {rest : BackoffState ⊕ BackoffState × BackoffOutcome → Run Value}
    (continues : shouldRetry (applyPolicy state.configuration update)
        context.successful context.decisionRetries = true →
      ∀ recorder, Complies host meaning machine
        (Suffices known exitCode retries)
        (rest (.inl { state with
          configuration := applyPolicy state.configuration update
          recorder := recorder }))
        (.due current ⟨context.attempt, context.retryAtUnixMs, delayMs⟩
          update))
    (denies : shouldRetry (applyPolicy state.configuration update)
        context.successful context.decisionRetries = false →
      ∀ recorder, Complies host meaning machine
        (Suffices known exitCode retries)
        (rest (.inr ({ state with
          configuration := applyPolicy state.configuration update
          recorder := recorder }, .retryDenied)))
        (.due current ⟨context.attempt, context.retryAtUnixMs, delayMs⟩
          update)) :
    Complies host meaning machine (Suffices known exitCode retries)
      ((updateBackoff context update state).bind rest)
      (.due current ⟨context.attempt, context.retryAtUnixMs, delayMs⟩
        update) := by
  simp only [updateBackoff, Program.bind_eq, Program.bind_bind]
  refine complies_persist fun checkpoint hphase hattempt hretryAt =>
    ⟨⟨hphase, hattempt, hretryAt⟩, ?_⟩
  change Complies host meaning machine _ _ (.due current
    ⟨context.attempt, context.retryAtUnixMs, delayMs⟩ update)
  refine complies_observe fun observation _ terminal =>
    ⟨fun ends => absurd (terminal.symm.trans ends) nofun, ?_⟩
  have unchanged : Watch.after meaning machine
      (.due current ⟨context.attempt, context.retryAtUnixMs, delayMs⟩ update)
      (.append (.observation observation)) .synced =
        .due current ⟨context.attempt, context.retryAtUnixMs, delayMs⟩
          update := if_neg (terminal ▸ nofun)
  rw [unchanged]
  cases decided : shouldRetry (applyPolicy state.configuration update)
      context.successful context.decisionRetries with
  | true => exact continues decided _
  | false => exact denies decided _

/-- Where the loop of `wait_backoff` is when it selects again. -/
inductive Selects (host : Host) (meaning : PolicyUpdate → WorkloadDefinition)
    (machine : ExecutionState) (context : BackoffContext) (delayMs : Nat)
    (exitCode : Option UInt32) (retries : Nat) (state : BackoffState) :
    Watch → Prop
  | begins (policyOpen : state.policyOpen = true)
      (pending : Pending machine context.attempt exitCode retries) :
      Selects host meaning machine context delayMs exitCode retries state
        (.before (some (context.attempt, context.retryAtUnixMs)))
  | waits {current : ExecutionState}
      (pending : Pending current context.attempt exitCode retries) :
      Selects host meaning machine context delayMs exitCode retries state
        (.waiting current ⟨context.attempt, context.retryAtUnixMs, delayMs⟩
          state.policyOpen)
  | updated {current : ExecutionState} {update : PolicyUpdate}
      {configuration : ExecutionConfiguration}
      (policyOpen : state.policyOpen = true)
      (pending : Pending current context.attempt exitCode retries)
      (announces : Announces host current (meaning update) update)
      (permitted : shouldRetry (applyPolicy configuration update)
        context.successful context.decisionRetries = true) :
      Selects host meaning machine context delayMs exitCode retries state
        (.due current ⟨context.attempt, context.retryAtUnixMs, delayMs⟩ update)
  | settled :
      Selects host meaning machine context delayMs exitCode retries state .settled

theorem Selects.listens
    (selects : Selects host meaning machine context delayMs exitCode retries
      state watch)
    (same : known.successful = context.successful ∧
      known.decisionRetries = context.decisionRetries) :
    (backoffMonitor host meaning machine
        (Suffices known exitCode retries)).permits watch
          (.selectBackoff delayMs) ∧
      (watch.listens meaning machine delayMs = none ∨
        ∃ current, Pending current context.attempt exitCode retries ∧
          watch.listens meaning machine delayMs =
            some (current, ⟨context.attempt, context.retryAtUnixMs, delayMs⟩,
              state.policyOpen)) := by
  cases selects with
  | begins policyOpen pending =>
      refine ⟨trivial, .inr ⟨machine, pending, ?_⟩⟩
      rw [policyOpen]
      rfl
  | waits pending => exact ⟨rfl, .inr ⟨_, pending, rfl⟩⟩
  | @updated current update configuration policyOpen pending announces
      permitted =>
      rw [← same.1, ← same.2] at permitted
      refine ⟨⟨rfl, pending.continues announces permitted⟩, ?_⟩
      simp only [Watch.listens]
      rcases pending.reconsidered_cases announces configuration with
        ⟨-, decided⟩ | ⟨-, reaction, outcome, decided, hterminal, -⟩
      · obtain ⟨previousAttempt, previousEnd, nextAttempt, retry, retryAt,
          hphase, -⟩ := (pending.reconfigured (meaning update)).phase
        refine .inr ⟨_, pending.reconfigured (meaning update), ?_⟩
        rw [decided]
        simp only [Transition.withoutEffects, hphase, policyOpen]
      · rw [decided]
        simp only [hterminal, true_or]
  | settled => exact ⟨trivial, .inl rfl⟩

/-- The update has denied the retry that the machine waits for. -/
structure Denied (host : Host) (meaning : PolicyUpdate → WorkloadDefinition)
    (known : Known) (attempt : Nat) (exitCode : Option UInt32) (retries : Nat)
    (current : ExecutionState) (update : PolicyUpdate)
    (configuration : ExecutionConfiguration) : Prop where
  pending : Pending current attempt exitCode retries
  announces : Announces host current (meaning update) update
  applied : ∃ before, configuration = applyPolicy before update
  denied : shouldRetry configuration known.successful known.decisionRetries =
    false

theorem complies_wait {rest : BackoffState × BackoffOutcome → Run Value}
    (same : known.successful = context.successful ∧
      known.decisionRetries = context.decisionRetries)
    (denies : ∀ {current plan update} (state : BackoffState),
      Denied host meaning known context.attempt exitCode retries current update
        state.configuration →
      Complies host meaning machine (Suffices known exitCode retries)
        (rest (state, .retryDenied)) (.due current plan update))
    (fuel : Nat)
    (selects : Selects host meaning machine context delayMs exitCode retries
      state watch) :
    Complies host meaning machine (Suffices known exitCode retries)
      ((Program.iterate (backoffRound delayMs context) fuel state).bind rest)
      watch := by
  induction fuel generalizing state watch with
  | zero => trivial
  | succ fuel ih =>
      obtain ⟨permitted, listened⟩ := selects.listens same
      refine ⟨permitted, fun event admitted => ?_⟩
      change Complies host meaning machine _ _ (Watch.after meaning machine
        watch (.selectBackoff delayMs) event)
      rcases listened with listened | ⟨current, pending, listened⟩
      · have settled : Watch.after meaning machine watch (.selectBackoff delayMs)
            event = .settled := by
          simp only [Watch.after, listened]
        rw [settled]
        exact complies_settled _
      have heard : Watch.after meaning machine watch (.selectBackoff delayMs)
          event = Watch.heard current
            ⟨context.attempt, context.retryAtUnixMs, delayMs⟩ state.policyOpen
            event := by
        simp only [Watch.after, listened]
      rw [heard]
      have again : Selects host meaning machine context delayMs exitCode
          retries state (.waiting current
            ⟨context.attempt, context.retryAtUnixMs, delayMs⟩
            state.policyOpen) := .waits pending
      cases event with
      | sessionEnded | elapsed | stdinStop => exact complies_settled _
      | externalChanged stop =>
          cases stop with
          | true => exact complies_settled _
          | false => exact ih again
      | externalClosed => exact ih again
      | stdinClosed => exact ih (.waits pending)
      | policyClosed => exact ih (.waits pending)
      | policyChanged update =>
          cases update with
          | none => exact ih again
          | some update =>
              change Complies host meaning machine _
                (((ite (state.policyOpen = true)
                  (updateBackoff context update state) _).bind _).bind rest)
                (ite (state.policyOpen = true) _ _)
              split_ifs with hopen
              · have announces := admitted current _ update
                  (hopen ▸ listened) rfl
                rw [Program.bind_bind]
                refine complies_updateBackoff (fun continues recorder => ?_)
                  fun denied recorder => ?_
                · exact ih (.updated hopen pending announces continues)
                · rw [← same.1, ← same.2] at denied
                  exact denies _ ⟨pending, announces, ⟨_, rfl⟩, denied⟩
              · exact ih again

/-- An execution whose retry was denied is finished as the machine ends it,
if enough is known. -/
theorem complies_finish_denied {configuration : ExecutionConfiguration}
    {attempt finished : Nat} {plan : BackoffPlan}
    {recorder : RuntimeRecorder} {result : AttemptResult}
    {rest : Unit → Run Value}
    (denied : Denied host meaning known attempt exitCode retries current update
      configuration)
    (unstopped : result.stopRequested = false)
    (code : result.exitCode = if known.recovered then none else exitCode) :
    Complies host meaning machine (Suffices known exitCode retries)
      ((finishExecution configuration recorder finished result).bind rest)
      (.due current plan update) := by
  obtain ⟨pending, announces, ⟨before, rfl⟩, denied⟩ := denied
  refine complies_finish_due (pending.denies announces denied ?_)
  unfold finishKind
  rw [unstopped, if_neg nofun, isSuccessful_applyPolicy, code]
  cases known.recovered <;> rfl

theorem complies_backOff {loop : LoopState} {successful : Bool}
    {detail : String} {code : Option UInt32}
    {rest : LoopState × BackoffOutcome → Run Value}
    (pending : Pending machine loop.retried.attempt exitCode retries)
    (denies : ∀ {current plan update} (waited : LoopState),
      Denied host meaning ⟨successful, loop.retried.retries - 1, false⟩
        loop.retried.attempt exitCode retries current update
        waited.configuration →
      Complies host meaning machine
        (Suffices ⟨successful, loop.retried.retries - 1, false⟩ exitCode
          retries)
        (rest (waited, .retryDenied)) (.due current plan update))
    (fuel : Nat) :
    Complies host meaning machine
      (Suffices ⟨successful, loop.retried.retries - 1, false⟩ exitCode retries)
      ((backOff fuel loop successful code detail).bind rest)
      (.before none) := by
  simp only [backOff, Program.bind_eq, Program.bind_bind]
  refine complies_unixMs fun now => ?_
  refine complies_persist fun checkpoint hphase hattempt hretryAt =>
    ⟨trivial, ?_⟩
  have scheduled : Watch.after meaning machine (.before none)
      (.append (.checkpoint checkpoint)) .synced =
        .before (some (loop.retried.attempt,
          retryAtUnixMs now loop.delay)) := by
    refine (if_pos hphase).trans ?_
    rw [hattempt, hretryAt]
    rfl
  rw [scheduled]
  refine complies_observe fun observation _ _ => ⟨trivial, ?_⟩
  refine complies_wait ⟨rfl, rfl⟩ (fun waited denied => ?_) fuel
    (.begins rfl pending)
  exact denies _ denied

end Wait

/-! ## The three entries -/

section Entries

variable {host : Host} {meaning : PolicyUpdate → WorkloadDefinition}
  {machine : ExecutionState} {exitCode : Option UInt32} {retries : Nat}
  {state : LoopState}

theorem decideRetry_complies {result : AttemptResult}
    (pending : Pending machine state.retried.attempt exitCode retries)
    (recorded : result.exitCode = exitCode) (fuel : Nat) :
    Complies host meaning machine
      (Suffices (BackoffEntry.attempted state result).known exitCode retries)
      (decideRetry fuel state result) (.before none) := by
  have pending : Pending machine (state.counted result).retried.attempt
    exitCode retries := pending
  unfold decideRetry
  by_cases hstop : result.stopRequested = true
  · rw [if_pos hstop]
    exact complies_finish_before rfl
  rw [if_neg hstop]
  rw [Bool.not_eq_true] at hstop
  dsimp only
  by_cases hretry : shouldRetry state.configuration
    (isSuccessful state.configuration result.exitCode)
    (state.counted result).retries = true
  · rw [if_pos (by exact hretry)]
    refine complies_backOff pending (fun waited denied => ?_) fuel
    exact complies_finish_denied denied hstop recorded
  · rw [if_neg (by exact hretry)]
    exact complies_finish_before rfl

theorem recoverActive_complies
    (pending : Pending machine state.retried.attempt none retries)
    (fuel : Nat) (phase : CheckpointPhase) :
    Complies host meaning machine
      (Suffices (BackoffEntry.lost phase state).known none retries)
      (recoverActive fuel phase state) (.before none) := by
  refine ⟨trivial, fun stop _ => ?_⟩
  change Complies host meaning machine _ (ite (stop = true) _ _) (.before none)
  by_cases hstop : stop = true
  · rw [if_pos hstop]
    simp only [finishStopped, stoppedResult, Program.bind_eq,
      Program.bind_bind]
    refine complies_unixMs fun now => complies_unixMs fun ended => ?_
    exact complies_finish_before rfl
  rw [if_neg hstop]
  refine complies_unixMs fun now => ?_
  refine ⟨trivial, fun written _ => ?_⟩
  cases written with
  | error error => trivial
  | ok done => ?_
  refine complies_observe fun observation _ _ => ⟨trivial, ?_⟩
  by_cases hjob : state.configuration.kind = .job
  · rw [if_pos hjob]
    exact complies_finish_before rfl
  rw [if_neg hjob]
  by_cases hretry : shouldRetry state.configuration false state.retries = true
  · rw [if_pos hretry]
    have pending : Pending machine (LoopState.retried
      { state with recorder := state.recorder.advanced }).attempt none
      retries := pending
    refine complies_backOff pending (fun waited denied => ?_) fuel
    exact complies_finish_denied denied rfl rfl
  · rw [if_neg hretry]
    exact complies_finish_before rfl

theorem recoverBackoff_complies {checkpoint : Checkpoint}
    (pending : Pending machine state.attempt exitCode retries) (fuel : Nat) :
    Complies host meaning machine
      (Suffices (BackoffEntry.recovered checkpoint state).known exitCode
        retries)
      (recoverBackoff fuel checkpoint state)
      (.before (some (state.attempt, checkpoint.retryAtUnixMs))) := by
  refine complies_unixMs fun now => ?_
  split_ifs
  · refine complies_unixMs fun later => ?_
    refine complies_wait ⟨rfl, rfl⟩ (fun waited denied => ?_) fuel
      (.begins rfl pending)
    refine complies_unixMs fun started => ?_
    refine complies_unixMs fun ended => ?_
    exact complies_finish_denied denied rfl rfl
  · exact rfl

theorem entry_complies {entry : BackoffEntry}
    (pending : Pending machine entry.attempt exitCode retries)
    (recorded : entry.Recorded exitCode) (fuel : Nat) :
    Complies host meaning machine (Suffices entry.known exitCode retries)
      (entry.program fuel) entry.start := by
  cases entry with
  | attempted state result => exact decideRetry_complies pending recorded fuel
  | lost phase state =>
      cases recorded
      exact recoverActive_complies pending fuel phase
  | recovered checkpoint state => exact recoverBackoff_complies pending fuel

/--
In every wait the supervisor goes on after an update as the machine does, for
the same attempt and deadline, or ends with the outcome of the machine, exactly
if the update spares what it does not look at again.
-/
theorem updates_reconsidered {entry : BackoffEntry}
    (pending : Pending machine entry.attempt exitCode retries)
    (recorded : entry.Recorded exitCode) (fuel : Nat) :
    Complies host meaning machine
      (fun update => entry.Spares exitCode retries update)
      (entry.program fuel) entry.start := by
  have same : (fun update => entry.Spares exitCode retries update) =
      Suffices entry.known exitCode retries :=
    funext fun update => propext (BackoffEntry.spares_iff recorded)
  rw [same]
  exact entry_complies pending recorded fuel

end Entries

/-! ## An exit code that becomes a success -/

def patientPolicy : ServiceRestartPolicy :=
  .onFailure (steadyRetry .two 2000 250 (by decide) (by decide))

def patientDefinition : WorkloadDefinition where
  id := ⟨"tool"⟩
  kind := .service
  process := ⟨"C:\\tool.exe", [], "C:\\", ⟨.empty, .empty⟩⟩
  processHash := []
  successExitCodes := ⟨[(3, ())], List.pairwise_singleton _ _⟩
  restart := .service patientPolicy
  stop := .kill
  logging := .disabled

def patientUpdate : PolicyUpdate :=
  policyUpdate exampleHost (definitionSnapshot exampleHost patientDefinition)

def patientMachine : ExecutionState :=
  (ExecutionState.sample (.serviceIntent Counter.first)
    (.service patientPolicy)).backoffState Counter.first
      (.exited ⟨3⟩ (.fromMillis 5 (by decide)))
      (Counter.first.next.getD Counter.first) Counter.first
      ⟨⟨2_500_000, by decide⟩⟩

/-- The supervisor at the end of that attempt. -/
def patientState : LoopState :=
  initialState (applyRestart toolConfiguration (.service patientPolicy))
    ⟨none, 0, 0⟩ ⟨"supervisor", 1⟩

def patientResult : AttemptResult where
  launched := true
  exitCode := some 3
  error := ""
  startedUnixMs := 0
  endedUnixMs := 5
  stopRequested := false
  forced := false
  outcome := none

def patientEntry : BackoffEntry := .attempted patientState patientResult

theorem patientMachine_pending :
    Pending patientMachine patientEntry.attempt (some 3) 0 :=
  ⟨_, _, _, _, _, rfl, rfl, by decide +kernel, rfl⟩

theorem patientUpdate_announces :
    Announces exampleHost patientMachine patientDefinition patientUpdate :=
  ⟨rfl, rfl⟩

theorem updates_reconsidered_patient :
    ¬ patientEntry.Spares (some 3) 0 patientUpdate ∧
      Complies exampleHost (fun _ => patientDefinition) patientMachine
        (fun update => patientEntry.Spares (some 3) 0 update)
        (patientEntry.program 2) patientEntry.start :=
  ⟨by
      have recorded : patientEntry.Recorded (some 3) := rfl
      rw [BackoffEntry.spares_iff recorded, @suffices_iff toolConfiguration]
      decide +kernel,
    updates_reconsidered patientMachine_pending rfl 2⟩

/-- The machine completes the execution, and the supervisor waits on. -/
theorem success_ignored :
    ¬ ∀ (host : Host) (meaning : PolicyUpdate → WorkloadDefinition)
        (machine : ExecutionState) (entry : BackoffEntry)
        (exitCode : Option UInt32) (retries fuel : Nat),
      Pending machine entry.attempt exitCode retries →
      entry.Recorded exitCode →
      Complies host meaning machine (fun _ => True) (entry.program fuel)
        entry.start := by
  intro complies
  have waits := complies exampleHost (fun _ => patientDefinition) patientMachine
    patientEntry (some 3) 0 2 patientMachine_pending rfl
  have failed : isSuccessful patientState.configuration
      patientResult.exitCode = false := by
    decide +kernel
  have kept : resetsRetries patientState.configuration patientResult =
      false := by
    decide +kernel
  change Complies exampleHost (fun _ => patientDefinition) patientMachine
    (fun _ => True) (decideRetry 2 patientState patientResult)
    (.before none) at waits
  unfold decideRetry at waits
  rw [if_neg nofun, failed, kept] at waits
  -- The retry is persisted and announced, and the wait begins.
  obtain ⟨-, waits⟩ := waits
  obtain ⟨-, waits⟩ := waits 0 trivial
  obtain ⟨-, waits⟩ := waits .synced trivial
  obtain ⟨-, waits⟩ := waits 0 trivial
  obtain ⟨-, waits⟩ := waits .synced trivial
  -- The update arrives and is persisted.
  obtain ⟨-, waits⟩ := waits (.policyChanged (some patientUpdate)) (by
    rintro current plan update listened ⟨⟩
    cases Option.some.inj listened
    exact patientUpdate_announces)
  obtain ⟨-, waits⟩ := waits .synced trivial
  obtain ⟨-, waits⟩ := waits 0 trivial
  obtain ⟨⟨-, goesOn⟩, -⟩ := waits .synced trivial
  have goesOn : GoesOn patientMachine patientDefinition := goesOn.mpr trivial
  rw [patientMachine_pending.goesOn_iff patientUpdate_announces
    toolConfiguration] at goesOn
  revert goesOn
  decide +kernel

end Susm.Supervisor
