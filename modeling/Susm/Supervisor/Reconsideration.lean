import Susm.Controller.DefinitionSnapshot
import Susm.Supervisor.RestartSimulation

/-!
# Policy updates during a restart backoff

The execution state machine decides a pending retry again from the end of the
last attempt, with the new policy and the new success codes.  The supervisor
decides from what it knew when it began to wait: whether that attempt was
successful then, and how many retries had been used.
-/

namespace Susm.Supervisor

open Susm.Foundation
open Susm.Domain
open Susm.Protocol
open Susm.Controller
open Susm.Config (WorkloadDefinition)

/-! ## The decision of the machine -/

def recordedCode : AttemptEnd → Option UInt32
  | .exited exitCode _ => some exitCode.get
  | .launchFailed _ | .killed | .supervisorLost => none

def reconfigured (self : ExecutionState) (definition : WorkloadDefinition) :
    ExecutionState :=
  { self with
    restartPolicy := definition.restart
    successExitCodes :=
      (definition.successExitCodes.keys.map ExitCode.mk).toFinset }

def reconsidered (self : ExecutionState) (definition : WorkloadDefinition) :
    ExecutionResult :=
  (reconfigured self definition).reconsiderBackoff

/-- The machine waits for the same retry until the same deadline. -/
def GoesOn (self : ExecutionState) (definition : WorkloadDefinition) : Prop :=
  ∃ reaction, reconsidered self definition = .ok reaction ∧
    reaction.state.phase = self.phase

def EndsWith (self : ExecutionState) (definition : WorkloadDefinition)
    (kind : ObservationKind) : Prop :=
  ∃ reaction outcome, reconsidered self definition = .ok reaction ∧
    reaction.state.phase = .terminal outcome ∧ outcomeKind outcome = kind

/-! ## What the supervisor knows -/

/-- The facts with which the supervisor waits.  After a recovery the end of the
last attempt is lost, and a denied retry is a failure. -/
structure Known where
  successful : Bool
  decisionRetries : Nat
  recovered : Bool
  deriving DecidableEq, Repr

def allows (update : PolicyUpdate) (retries : Nat) : Bool :=
  update.maxRestartsUnlimited || retries < update.maxRestarts

def succeeds (update : PolicyUpdate) (exitCode : Option UInt32) : Bool :=
  exitCode.any (· ∈ update.successExitCodes)

/--
What the supervisor knows is enough to follow the machine: where the policy
looks at it, its count of retries is as good as the recorded one, and the exit
code is classified as it was when the wait began.
-/
def Suffices (known : Known) (exitCode : Option UInt32) (retries : Nat)
    (update : PolicyUpdate) : Prop :=
  match update.restartPolicy with
  | .never => known.recovered = true → succeeds update exitCode = false
  | .always =>
      (allows update known.decisionRetries = allows update retries) ∧
        (known.recovered = true → succeeds update exitCode = true →
          allows update retries = true)
  | .onFailure =>
      ((!known.successful && allows update known.decisionRetries) =
        (!succeeds update exitCode && allows update retries)) ∧
        (known.recovered = true → succeeds update exitCode = false)

section Decision

variable {configuration : ExecutionConfiguration} {update : PolicyUpdate}
  {known : Known} {exitCode : Option UInt32} {retries : Nat}

theorem shouldRetry_applyPolicy (successful : Bool) :
    shouldRetry (applyPolicy configuration update) successful retries =
      ((update.restartPolicy = .always ∨
          (update.restartPolicy = .onFailure ∧ !successful)) ∧
        allows update retries : Bool) := by
  simp [shouldRetry, applyPolicy, allows]

theorem isSuccessful_applyPolicy :
    isSuccessful (applyPolicy configuration update) exitCode =
      succeeds update exitCode := rfl

/-- Enough is known exactly when both decide alike, and a success that is not
retried is not forgotten. -/
theorem suffices_iff :
    Suffices known exitCode retries update ↔
      shouldRetry (applyPolicy configuration update) known.successful
          known.decisionRetries =
        shouldRetry (applyPolicy configuration update)
          (succeeds update exitCode) retries ∧
      (known.recovered = true → succeeds update exitCode = true →
        shouldRetry (applyPolicy configuration update)
          (succeeds update exitCode) retries = true) := by
  simp only [shouldRetry_applyPolicy, Suffices]
  cases update.restartPolicy <;> cases known.successful <;>
    cases known.recovered <;> cases succeeds update exitCode <;> simp

end Decision

/-! ## Updates from definitions -/

section Updates

variable {host : Host} {definition : WorkloadDefinition}
  {self : ExecutionState} {update : PolicyUpdate}
  {configuration : ExecutionConfiguration}

/-- What a decision about a retry reads. -/
structure SameRetry (first second : ExecutionConfiguration) : Prop where
  restartPolicy : first.restartPolicy = second.restartPolicy
  maxRestarts : first.maxRestarts = second.maxRestarts
  maxRestartsUnlimited :
    first.maxRestartsUnlimited = second.maxRestartsUnlimited

theorem SameRetry.shouldRetry {first second : ExecutionConfiguration}
    (same : SameRetry first second) (successful : Bool) (retries : Nat) :
    shouldRetry first successful retries =
      shouldRetry second successful retries := by
  simp only [Supervisor.shouldRetry, same.restartPolicy, same.maxRestarts,
    same.maxRestartsUnlimited]

theorem definitionSnapshot_retry (host : Host)
    (definition : WorkloadDefinition) :
    SameRetry (definitionSnapshot host definition)
      (applyRestart (processSnapshot definition) definition.restart) := by
  have stop (snapshot : ExecutionConfiguration) :
      SameRetry (applyStop snapshot definition.stop) snapshot := by
    cases definition.stop <;> exact ⟨rfl, rfl, rfl⟩
  have logging (snapshot : ExecutionConfiguration) :
      SameRetry (applyLogging snapshot definition.logging) snapshot := by
    rcases definition.logging with _ | ⟨size, age, retentionSize, retentionAge⟩
    · exact ⟨rfl, rfl, rfl⟩
    · cases retentionSize <;> cases retentionAge <;> exact ⟨rfl, rfl, rfl⟩
  obtain ⟨policy, maximum, unlimited⟩ := logging (applyStop (applyRestart
    (processSnapshot definition) definition.restart) definition.stop)
  obtain ⟨policy', maximum', unlimited'⟩ := stop (applyRestart
    (processSnapshot definition) definition.restart)
  exact ⟨policy.trans policy', maximum.trans maximum',
    unlimited.trans unlimited'⟩

theorem definitionSnapshot_successExitCodes (host : Host)
    (definition : WorkloadDefinition) :
    (definitionSnapshot host definition).successExitCodes =
      definition.successExitCodes.keys := by
  have restart : (applyRestart (processSnapshot definition)
      definition.restart).successExitCodes =
        definition.successExitCodes.keys := by
    rcases definition.restart with (_ | policy | policy) | (_ | policy) <;>
      try rfl
    all_goals
      simp only [applyRestart, applyServiceRetry]
      cases policy.limit <;> rfl
  have stop (snapshot : ExecutionConfiguration) :
      (applyStop snapshot definition.stop).successExitCodes =
        snapshot.successExitCodes := by
    cases definition.stop <;> rfl
  have logging (snapshot : ExecutionConfiguration) :
      (applyLogging snapshot definition.logging).successExitCodes =
        snapshot.successExitCodes := by
    rcases definition.logging with _ | ⟨size, age, retentionSize, retentionAge⟩
    · rfl
    · cases retentionSize <;> cases retentionAge <;> rfl
  exact (logging _).trans ((stop _).trans restart)

theorem attemptFailed_reconfigured
    (announced :
      update = policyUpdate host (definitionSnapshot host definition))
    (attemptEnd : AttemptEnd) :
    (reconfigured self definition).attemptFailed attemptEnd =
      !succeeds update (recordedCode attemptEnd) := by
  have codes : update.successExitCodes = definition.successExitCodes.keys := by
    rw [announced]
    exact definitionSnapshot_successExitCodes host definition
  cases attemptEnd with
  | exited exitCode ranFor =>
      obtain ⟨code⟩ := exitCode
      simp [ExecutionState.attemptFailed, reconfigured, succeeds,
        recordedCode, codes]
  | launchFailed | killed | supervisorLost => rfl

theorem reconsidered_eq {previousAttempt nextAttempt : AttemptNumber}
    {previousEnd : AttemptEnd} {retry : RetryOrdinal} {retryAt : RetryDeadline}
    (announced :
      update = policyUpdate host (definitionSnapshot host definition))
    (kind : (reconfigured self definition).KindMatches)
    (phase : self.phase = .restartBackoff previousAttempt previousEnd
      nextAttempt retry retryAt) :
    reconsidered self definition = .ok
      (if shouldRetry (applyPolicy configuration update)
          (succeeds update (recordedCode previousEnd)) (retry.get - 1) then
        .withoutEffects (reconfigured self definition)
      else (reconfigured self definition).finishTerminal previousAttempt
        previousEnd) := by
  have unset : RestartUnset (processSnapshot definition) :=
    ⟨rfl, rfl, rfl, rfl, rfl, rfl⟩
  have same : SameRetry (applyPolicy configuration update)
      (applyRestart (processSnapshot definition) definition.restart) := by
    rw [announced]
    exact ⟨(definitionSnapshot_retry host definition).1,
      (definitionSnapshot_retry host definition).2,
      (definitionSnapshot_retry host definition).3⟩
  have permits := policyPermits_applyRestart unset kind previousEnd retry
  have decision := same.shouldRetry
    (succeeds update (recordedCode previousEnd)) (retry.get - 1)
  rw [attemptFailed_reconfigured announced, Bool.not_not] at permits
  have hphase : (reconfigured self definition).phase =
      .restartBackoff previousAttempt previousEnd nextAttempt retry retryAt :=
    phase
  unfold reconsidered ExecutionState.reconsiderBackoff
  rw [hphase, decision]
  dsimp only
  rw [permits]
  dsimp only [reconfigured]
  cases shouldRetry (applyRestart (processSnapshot definition)
    definition.restart) _ _ <;> rfl

structure Pending (machine : ExecutionState) (attempt : Nat)
    (exitCode : Option UInt32) (retries : Nat) : Prop where
  phase : ∃ previousAttempt previousEnd nextAttempt retry retryAt,
    machine.phase = .restartBackoff previousAttempt previousEnd nextAttempt
      retry retryAt ∧
    recordedCode previousEnd = exitCode ∧ nextAttempt.get = attempt ∧
    retry.get - 1 = retries

structure Announces (host : Host) (machine : ExecutionState)
    (definition : WorkloadDefinition) (update : PolicyUpdate) : Prop where
  update : update = policyUpdate host (definitionSnapshot host definition)
  kind : (reconfigured machine definition).KindMatches

variable {attempt retries : Nat} {exitCode : Option UInt32} {known : Known}

theorem Pending.reconfigured (pending : Pending self attempt exitCode retries)
    (definition : WorkloadDefinition) :
    Pending (reconfigured self definition) attempt exitCode retries :=
  ⟨pending.phase⟩

theorem Pending.reconsidered_cases
    (pending : Pending self attempt exitCode retries)
    (announces : Announces host self definition update)
    (configuration : ExecutionConfiguration) :
    (shouldRetry (applyPolicy configuration update) (succeeds update exitCode)
          retries = true ∧
        reconsidered self definition =
          .ok (.withoutEffects (Supervisor.reconfigured self definition))) ∨
      (shouldRetry (applyPolicy configuration update)
            (succeeds update exitCode) retries = false ∧
        ∃ reaction outcome, reconsidered self definition = .ok reaction ∧
          reaction.state.phase = .terminal outcome ∧
          outcomeKind outcome =
            if succeeds update exitCode then .completed else .failed) := by
  obtain ⟨previousAttempt, previousEnd, nextAttempt, retry, retryAt, hphase,
    rfl, -, rfl⟩ := pending.phase
  have decided := @reconsidered_eq host definition self update configuration
    _ _ _ _ _ announces.update announces.kind hphase
  cases hretry : shouldRetry (applyPolicy configuration update)
      (succeeds update (recordedCode previousEnd)) (retry.get - 1) with
  | true =>
      rw [if_pos hretry] at decided
      exact .inl ⟨rfl, decided⟩
  | false =>
      rw [if_neg (by simp [hretry])] at decided
      refine .inr ⟨rfl, _, _, decided, rfl, ?_⟩
      rw [outcomeKind_attemptOutcome,
        attemptFailed_reconfigured announces.update, Bool.not_not]

theorem Pending.goesOn_iff (pending : Pending self attempt exitCode retries)
    (announces : Announces host self definition update)
    (configuration : ExecutionConfiguration) :
    GoesOn self definition ↔
      shouldRetry (applyPolicy configuration update) (succeeds update exitCode)
        retries = true := by
  obtain ⟨previousAttempt, previousEnd, nextAttempt, retry, retryAt, hphase,
    -⟩ := pending.phase
  rcases pending.reconsidered_cases announces configuration with
    ⟨hretry, decided⟩ | ⟨hretry, reaction, outcome, decided, hterminal, -⟩
  · exact iff_of_true ⟨_, decided, rfl⟩ hretry
  · refine iff_of_false ?_ (by simp [hretry])
    rintro ⟨other, hother, hsame⟩
    cases decided.symm.trans hother
    rw [hterminal, hphase] at hsame
    cases hsame

theorem Pending.endsWith_iff (pending : Pending self attempt exitCode retries)
    (announces : Announces host self definition update)
    (configuration : ExecutionConfiguration) {kind : ObservationKind} :
    EndsWith self definition kind ↔
      shouldRetry (applyPolicy configuration update) (succeeds update exitCode)
          retries = false ∧
        kind = if succeeds update exitCode then .completed else .failed := by
  obtain ⟨previousAttempt, previousEnd, nextAttempt, retry, retryAt, hphase,
    -⟩ := pending.phase
  rcases pending.reconsidered_cases announces configuration with
    ⟨hretry, decided⟩ | ⟨hretry, reaction, outcome, decided, hterminal, hkind⟩
  · refine iff_of_false ?_ (by simp [hretry])
    rintro ⟨other, outcome, hother, hterminal, -⟩
    cases decided.symm.trans hother
    cases hphase.symm.trans hterminal
  · rw [and_iff_right hretry, ← hkind]
    constructor
    · rintro ⟨other, otherOutcome, hother, hotherTerminal, rfl⟩
      cases decided.symm.trans hother
      cases hterminal.symm.trans hotherTerminal
      rfl
    · rintro rfl
      exact ⟨reaction, outcome, decided, hterminal, rfl⟩

theorem Pending.continues (pending : Pending self attempt exitCode retries)
    (announces : Announces host self definition update)
    (permitted : shouldRetry (applyPolicy configuration update)
      known.successful known.decisionRetries = true) :
    GoesOn self definition ↔ Suffices known exitCode retries update := by
  rw [pending.goesOn_iff announces configuration,
    @suffices_iff configuration, permitted]
  constructor
  · intro retried
    exact ⟨retried.symm, fun _ _ => retried⟩
  · exact fun enough => enough.1.symm

theorem Pending.denies (pending : Pending self attempt exitCode retries)
    (announces : Announces host self definition update)
    (denied : shouldRetry (applyPolicy configuration update)
      known.successful known.decisionRetries = false)
    {kind : ObservationKind}
    (recorded : kind =
      if !known.recovered && succeeds update exitCode then .completed
      else .failed) :
    EndsWith self definition kind ↔ Suffices known exitCode retries update := by
  rw [pending.endsWith_iff announces configuration,
    @suffices_iff configuration, denied, recorded]
  cases shouldRetry (applyPolicy configuration update)
    (succeeds update exitCode) retries <;> cases known.recovered <;>
    cases succeeds update exitCode <;> simp

end Updates

end Susm.Supervisor
