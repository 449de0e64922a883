import Susm.Config.Accepted
import Susm.Config.Defaults
import Susm.Controller.Snapshot
import Susm.Domain.Execution
import Susm.Supervisor.Policy

/-!
# Snapshots of definitions

The configuration that a supervisor runs from, made of an accepted definition.
A duration below one millisecond becomes zero there, which stands for an absent
duration; every other positive duration stays positive.
-/

namespace Susm.Controller

open Susm.Foundation
open Susm.Domain
open Susm.Protocol
open Susm.Config
open Susm.Supervisor

def applyStop (snapshot : ExecutionConfiguration) (stop : StopDefinition) :
    ExecutionConfiguration :=
  match stop with
  | .ctrlBreak timeout =>
      { snapshot with
        stopMethod := .ctrlBreak
        stopTimeoutMs := durationMs timeout }
  | .command timeout command =>
      { snapshot with
        stopMethod := .command
        stopTimeoutMs := durationMs timeout
        stopExecutable := command.executable
        stopArguments := command.arguments }
  | .kill => { snapshot with stopMethod := .kill }

def applyLogging (snapshot : ExecutionConfiguration)
    (logging : LoggingPolicy) : ExecutionConfiguration :=
  match logging with
  | .disabled => { snapshot with captureLogs := false }
  | .capture segmentSize segmentAge retentionSize retentionAge =>
      let snapshot :=
        { snapshot with
          captureLogs := true
          segmentSize := segmentSize.toNat
          segmentAgeMs := durationMs segmentAge }
      let snapshot := match retentionSize with
        | .limited size => { snapshot with retentionSize := size.toNat }
        | .unlimited => { snapshot with retentionSizeUnlimited := true }
      match retentionAge with
      | .limited age => { snapshot with retentionAgeMs := durationMs age }
      | .unlimited => { snapshot with retentionAgeUnlimited := true }

/-- The fields before the policies; those that have no default here are set by
the policies in every case. -/
def processSnapshot (definition : WorkloadDefinition) :
    ExecutionConfiguration where
  workloadId := definition.id.value
  executionId := ""
  attempt := 0
  kind := definition.kind
  executable := definition.process.executable
  arguments := definition.process.arguments
  workingDirectory := definition.process.workingDirectory
  environmentSet := definition.process.environment.set.entries.map
    fun entry => ⟨entry.1.value, entry.2⟩
  environmentUnset := definition.process.environment.unset.entries.map
    fun entry => entry.1.value
  successExitCodes := definition.successExitCodes.keys
  stopMethod := .kill
  stopTimeoutMs := 0
  stopExecutable := ""
  stopArguments := []
  captureLogs := false
  segmentSize := 0
  segmentAgeMs := 0
  retentionSize := 0
  retentionSizeUnlimited := false
  retentionAgeMs := 0
  retentionAgeUnlimited := false
  logDirectory := ""
  runtimeJournal := ""
  resultFile := ""
  restartPolicy := .never
  maxRestarts := 0
  maxRestartsUnlimited := false
  restartResetAfterMs := 0
  restartBackoffInitialMs := 0
  restartBackoffMultiplier := 0
  restartBackoffMaximumMs := 0
  executionConfigHash := []
  managerSessionId := ""
  processDefinitionHash := definition.processHash
  supervisorExecutable := ""
  versionPin := ""

def definitionSnapshot (host : Host) (definition : WorkloadDefinition) :
    ExecutionConfiguration :=
  let snapshot := processSnapshot definition
  let snapshot := applyRestart snapshot definition.restart
  let snapshot := applyStop snapshot definition.stop
  let snapshot := applyLogging snapshot definition.logging
  setExecutionHash host snapshot

/-! ## The fields of a snapshot -/

section

variable (snapshot : ExecutionConfiguration)

/-- The restart fields of two configurations agree. -/
structure SameRestart (first second : ExecutionConfiguration) : Prop where
  resetAfter : first.restartResetAfterMs = second.restartResetAfterMs
  initial : first.restartBackoffInitialMs = second.restartBackoffInitialMs
  maximum : first.restartBackoffMaximumMs = second.restartBackoffMaximumMs

theorem applyLogging_frame (logging : LoggingPolicy) :
    SameRestart (applyLogging snapshot logging) snapshot ∧
      (applyLogging snapshot logging).stopTimeoutMs = snapshot.stopTimeoutMs ∧
      (applyLogging snapshot logging).processDefinitionHash =
        snapshot.processDefinitionHash := by
  rcases logging with _ | ⟨size, age, retentionSize, retentionAge⟩
  · exact ⟨⟨rfl, rfl, rfl⟩, rfl, rfl⟩
  · cases retentionSize <;> cases retentionAge <;>
      exact ⟨⟨rfl, rfl, rfl⟩, rfl, rfl⟩

theorem applyStop_frame (stop : StopDefinition) :
    SameRestart (applyStop snapshot stop) snapshot ∧
      (applyStop snapshot stop).processDefinitionHash =
        snapshot.processDefinitionHash := by
  cases stop <;> exact ⟨⟨rfl, rfl, rfl⟩, rfl⟩

theorem applyRestart_processDefinitionHash
    (restart : ExecutionRestartPolicy) :
    (applyRestart snapshot restart).processDefinitionHash =
      snapshot.processDefinitionHash := by
  rcases restart with (_ | policy | policy) | (_ | policy) <;> try rfl
  · simp only [applyRestart, applyServiceRetry]
    cases policy.limit <;> rfl
  · simp only [applyRestart, applyServiceRetry]
    cases policy.limit <;> rfl

end

variable (host : Host) (definition : WorkloadDefinition)

theorem definitionSnapshot_restart :
    SameRestart (definitionSnapshot host definition)
      (applyRestart (processSnapshot definition) definition.restart) := by
  obtain ⟨⟨reset, initial, maximum⟩, -⟩ := applyLogging_frame
    (applyStop (applyRestart (processSnapshot definition) definition.restart)
      definition.stop) definition.logging
  obtain ⟨⟨reset', initial', maximum'⟩, -⟩ := applyStop_frame
    (applyRestart (processSnapshot definition) definition.restart)
    definition.stop
  exact ⟨reset.trans reset', initial.trans initial', maximum.trans maximum'⟩

theorem definitionSnapshot_processDefinitionHash :
    (definitionSnapshot host definition).processDefinitionHash =
      definition.processHash :=
  calc
    (definitionSnapshot host definition).processDefinitionHash
      = (applyStop (applyRestart (processSnapshot definition)
          definition.restart) definition.stop).processDefinitionHash :=
        (applyLogging_frame _ definition.logging).2.2
    _ = (applyRestart (processSnapshot definition)
          definition.restart).processDefinitionHash :=
        (applyStop_frame _ definition.stop).2
    _ = definition.processHash :=
        applyRestart_processDefinitionHash _ definition.restart

theorem definitionSnapshot_stopTimeoutMs :
    (definitionSnapshot host definition).stopTimeoutMs =
      (applyStop (applyRestart (processSnapshot definition)
        definition.restart) definition.stop).stopTimeoutMs :=
  (applyLogging_frame _ definition.logging).2.1

/-! ## Positive durations -/

theorem durationMs_ne_zero_iff {duration : Duration} :
    durationMs duration ≠ 0 ↔ 10 ^ 6 ≤ duration.nanos := by
  unfold durationMs Duration.asMillis
  cases h : checked (2 ^ 64) (duration.nanos / 10 ^ 6) with
  | none =>
      have hlarge := checked_eq_none_iff.mp h
      have hpos : (none : Option Nat).getD (2 ^ 64 - 1) ≠ 0 := by decide
      exact iff_of_true hpos (by omega)
  | some millis =>
      obtain ⟨-, rfl⟩ := checked_eq_some_iff.mp h
      rw [Option.getD_some]
      omega

def serviceRetry? : ExecutionRestartPolicy → Option ServiceRetryPolicy
  | .service (.onFailure policy) | .service (.always policy) => some policy
  | _ => none

def backoff? : ExecutionRestartPolicy → Option BackoffPolicy
  | .service (.onFailure policy) | .service (.always policy) =>
      some policy.backoff
  | .job (.onFailure policy) => some policy.backoff
  | _ => none

def retentionAge? : LoggingPolicy → Option Duration
  | .capture _ _ _ (.limited age) => some age
  | _ => none

/--
Every duration of the definition that has to be positive is not zero in the
snapshot, and where the machine forgets the retries of a service after a long
attempt, so does the supervisor.
-/
structure DurationsSurvive (definition : WorkloadDefinition)
    (snapshot : ExecutionConfiguration) : Prop where
  resetAfter : ∀ policy, serviceRetry? definition.restart = some policy →
    snapshot.restartResetAfterMs ≠ 0
  backoff : ∀ policy, backoff? definition.restart = some policy →
    snapshot.restartBackoffInitialMs ≠ 0 ∧
      snapshot.restartBackoffMaximumMs ≠ 0
  stopTimeout : definition.stop ≠ .kill → snapshot.stopTimeoutMs ≠ 0
  segmentAge : definition.logging ≠ .disabled → snapshot.segmentAgeMs ≠ 0
  retentionAge : ∀ age, retentionAge? definition.logging = some age →
    snapshot.retentionAgeMs ≠ 0
  resets : ∀ (self : ExecutionState) (revision : IntentRevision)
      (retry : RetryOrdinal) (exitCode : ExitCode) (ranFor : Duration)
      (started : Nat) (result : AttemptResult),
    self.origin = .serviceIntent revision →
    self.restartPolicy = definition.restart → self.lastRetry = some retry →
    (self.resetRetries (.exited exitCode ranFor)).lastRetry = none →
    result.launched = true →
    result.startedUnixMs = ((started / 10 ^ 6 : Nat) : Int) →
    result.endedUnixMs = (((started + ranFor.nanos) / 10 ^ 6 : Nat) : Int) →
    resetsRetries snapshot result = true

/-- The machine forgets the retries only for a run of at least `reset_after`. -/
theorem resetRetries_forgets {self : ExecutionState}
    {revision : IntentRevision} {retry : RetryOrdinal} {exitCode : ExitCode}
    {ranFor : Duration} (origin : self.origin = .serviceIntent revision)
    (counted : self.lastRetry = some retry)
    (forgotten : (self.resetRetries (.exited exitCode ranFor)).lastRetry = none) :
    ∃ policy, serviceRetry? self.restartPolicy = some policy ∧
      policy.resetAfter.get ≤ ranFor := by
  unfold ExecutionState.resetRetries at forgotten
  rw [origin] at forgotten
  rcases hpolicy : self.restartPolicy with (_ | policy | policy) | _ <;>
    simp only [hpolicy] at forgotten
  · rw [counted] at forgotten
    cases forgotten
  · split at forgotten
    · rename_i long
      exact ⟨policy, rfl, long⟩
    · rw [counted] at forgotten
      cases forgotten
  · split at forgotten
    · rename_i long
      exact ⟨policy, rfl, long⟩
    · rw [counted] at forgotten
      cases forgotten
  · rw [counted] at forgotten
    cases forgotten

/-- A run as long as `reset_after` is measured to be so long. -/
theorem resetsRetries_of_le {configuration : ExecutionConfiguration}
    {reset : Duration} {started ran : Nat} {result : AttemptResult}
    (field : configuration.restartResetAfterMs = durationMs reset)
    (present : durationMs reset ≠ 0) (long : reset.nanos ≤ ran)
    (launched : result.launched = true)
    (hstarted : result.startedUnixMs = ((started / 10 ^ 6 : Nat) : Int))
    (hended :
      result.endedUnixMs = (((started + ran) / 10 ^ 6 : Nat) : Int)) :
    resetsRetries configuration result = true := by
  have whole : durationMs reset ≤ reset.nanos / 10 ^ 6 := by
    unfold durationMs Duration.asMillis
    cases h : checked (2 ^ 64) (reset.nanos / 10 ^ 6) with
    | none =>
        have hlarge := checked_eq_none_iff.mp h
        simp
        omega
    | some millis =>
        obtain ⟨-, rfl⟩ := checked_eq_some_iff.mp h
        exact le_refl _
  unfold resetsRetries saturateI64 maxI64
  rw [decide_eq_true_eq, field, hstarted, hended]
  refine ⟨launched, present, ?_⟩
  omega

theorem applyRestart_resetAfter {snapshot : ExecutionConfiguration}
    {restart : ExecutionRestartPolicy} {policy : ServiceRetryPolicy}
    (h : serviceRetry? restart = some policy) :
    (applyRestart snapshot restart).restartResetAfterMs =
      durationMs policy.resetAfter.get := by
  rcases restart with (_ | policy | policy) | (_ | policy) <;> cases h <;> rfl

theorem applyRestart_backoff {snapshot : ExecutionConfiguration}
    {restart : ExecutionRestartPolicy} {policy : BackoffPolicy}
    (h : backoff? restart = some policy) :
    (applyRestart snapshot restart).restartBackoffInitialMs =
        durationMs policy.initial.get ∧
      (applyRestart snapshot restart).restartBackoffMaximumMs =
        durationMs policy.maximum.get := by
  rcases restart with (_ | policy | policy) | (_ | policy) <;> cases h <;>
    exact ⟨rfl, rfl⟩

theorem forall_durations_iff {Holds : Duration → Prop} :
    (∀ duration ∈ definition.durations, Holds duration) ↔
      (∀ policy, serviceRetry? definition.restart = some policy →
        Holds policy.resetAfter.get) ∧
      (∀ policy, backoff? definition.restart = some policy →
        Holds policy.initial.get ∧ Holds policy.maximum.get) ∧
      (∀ timeout ∈ stopDurations definition.stop, Holds timeout) ∧
      ∀ age ∈ loggingDurations definition.logging, Holds age := by
  have restart : (∀ duration ∈ restartDurations definition.restart,
      Holds duration) ↔
        (∀ policy, serviceRetry? definition.restart = some policy →
          Holds policy.resetAfter.get) ∧
        ∀ policy, backoff? definition.restart = some policy →
          Holds policy.initial.get ∧ Holds policy.maximum.get := by
    rcases definition.restart with (_ | policy | policy) | (_ | policy) <;>
      simp [restartDurations, serviceRetry?, backoff?, backoffDurations]
  unfold WorkloadDefinition.durations
  simp only [List.forall_mem_append, restart, and_assoc]

theorem applyLogging_durations_iff (snapshot : ExecutionConfiguration)
    (logging : LoggingPolicy) :
    (∀ age ∈ loggingDurations logging, durationMs age ≠ 0) ↔
      (logging ≠ .disabled → (applyLogging snapshot logging).segmentAgeMs ≠ 0) ∧
      ∀ age, retentionAge? logging = some age →
        (applyLogging snapshot logging).retentionAgeMs ≠ 0 := by
  rcases logging with _ | ⟨size, age, retentionSize, retentionAge⟩
  · simp [loggingDurations, retentionAge?]
  · cases retentionSize <;> cases retentionAge <;>
      simp [loggingDurations, retentionDurations, retentionAge?, applyLogging]

theorem definitionSnapshot_durations_iff :
    (∀ duration ∈ definition.durations, durationMs duration ≠ 0) ↔
      (∀ policy, serviceRetry? definition.restart = some policy →
        (definitionSnapshot host definition).restartResetAfterMs ≠ 0) ∧
      (∀ policy, backoff? definition.restart = some policy →
        (definitionSnapshot host definition).restartBackoffInitialMs ≠ 0 ∧
          (definitionSnapshot host definition).restartBackoffMaximumMs ≠ 0) ∧
      (definition.stop ≠ .kill →
        (definitionSnapshot host definition).stopTimeoutMs ≠ 0) ∧
      (definition.logging ≠ .disabled →
        (definitionSnapshot host definition).segmentAgeMs ≠ 0) ∧
      ∀ age, retentionAge? definition.logging = some age →
        (definitionSnapshot host definition).retentionAgeMs ≠ 0 := by
  have same := definitionSnapshot_restart host definition
  have reset : (∀ policy, serviceRetry? definition.restart = some policy →
      durationMs policy.resetAfter.get ≠ 0) ↔
        ∀ policy, serviceRetry? definition.restart = some policy →
          (definitionSnapshot host definition).restartResetAfterMs ≠ 0 := by
    refine forall₂_congr fun policy h => ?_
    rw [same.resetAfter, applyRestart_resetAfter h]
  have backoff : (∀ policy, backoff? definition.restart = some policy →
      durationMs policy.initial.get ≠ 0 ∧
        durationMs policy.maximum.get ≠ 0) ↔
        ∀ policy, backoff? definition.restart = some policy →
          (definitionSnapshot host definition).restartBackoffInitialMs ≠ 0 ∧
            (definitionSnapshot host definition).restartBackoffMaximumMs ≠
              0 := by
    refine forall₂_congr fun policy h => ?_
    rw [same.initial, same.maximum, (applyRestart_backoff h).1,
      (applyRestart_backoff h).2]
  have stop : (∀ timeout ∈ stopDurations definition.stop,
      durationMs timeout ≠ 0) ↔
        (definition.stop ≠ .kill →
          (definitionSnapshot host definition).stopTimeoutMs ≠ 0) := by
    rw [definitionSnapshot_stopTimeoutMs]
    cases definition.stop <;> simp [stopDurations, applyStop]
  have logging : (∀ age ∈ loggingDurations definition.logging,
      durationMs age ≠ 0) ↔
        (definition.logging ≠ .disabled →
          (definitionSnapshot host definition).segmentAgeMs ≠ 0) ∧
        ∀ age, retentionAge? definition.logging = some age →
          (definitionSnapshot host definition).retentionAgeMs ≠ 0 :=
    applyLogging_durations_iff _ definition.logging
  rw [forall_durations_iff, reset, backoff, stop, logging]

theorem durationsSurvive_iff :
    DurationsSurvive definition (definitionSnapshot host definition) ↔
      ∀ duration ∈ definition.durations, 10 ^ 6 ≤ duration.nanos := by
  have millis : (∀ duration ∈ definition.durations, 10 ^ 6 ≤ duration.nanos) ↔
      ∀ duration ∈ definition.durations, durationMs duration ≠ 0 :=
    forall₂_congr fun duration _ => durationMs_ne_zero_iff.symm
  rw [millis, definitionSnapshot_durations_iff host]
  constructor
  · intro survive
    exact ⟨survive.resetAfter, survive.backoff, survive.stopTimeout,
      survive.segmentAge, survive.retentionAge⟩
  · rintro ⟨resetAfter, backoff, stopTimeout, segmentAge, retentionAge⟩
    refine ⟨resetAfter, backoff, stopTimeout, segmentAge, retentionAge, ?_⟩
    intro self revision retry exitCode ranFor started result origin restart
      counted forgotten launched hstarted hended
    obtain ⟨policy, hpolicy, long⟩ :=
      resetRetries_forgets origin counted forgotten
    rw [restart] at hpolicy
    have field : (definitionSnapshot host definition).restartResetAfterMs =
        durationMs policy.resetAfter.get :=
      (definitionSnapshot_restart host definition).resetAfter.trans
        (applyRestart_resetAfter hpolicy)
    exact resetsRetries_of_le field (field ▸ resetAfter policy hpolicy) long
      launched hstarted hended

/-! ## A reset window below a millisecond -/

def exampleHost : Host where
  encodeConfiguration _ := []
  encodePolicy _ := []
  sha256 _ := []
  supervisorExecutable := "C:\\susm\\susm-supervisor.exe"
  versionPinPath _ := none

/-- A service that forgets its retries after 500 µs. -/
def briefReset : RawDefinition where
  kind := .service
  executable := "C:\\tool.exe"
  arguments := []
  workingDirectory := none
  successExitCodes := none
  environment := ⟨.empty, []⟩
  restart := some ⟨none, none, some ⟨500_000, by decide⟩, none⟩
  stop := none
  logging := none

/-- The window is accepted and then taken to be absent. -/
theorem briefReset_lost :
    ¬ ∀ (libraries : Libraries) (host : Host) (raw : RawDefinition)
        (id : WorkloadId) (definition : WorkloadDefinition),
      raw.intoDefinition libraries id = .ok definition →
      DurationsSurvive definition (definitionSnapshot host definition) := by
  intro survives
  have brief :
      (briefReset.intoDefinition sampleLibraries ⟨"tool"⟩).toOption.any
        (fun definition => definition.durations.any
          fun duration => duration.nanos == 500_000) = true := by
    decide +kernel
  cases accepted : briefReset.intoDefinition sampleLibraries ⟨"tool"⟩ with
  | error error =>
      rw [accepted] at brief
      cases brief
  | ok definition =>
      rw [accepted] at brief
      obtain ⟨duration, hmem, hnanos⟩ := List.any_eq_true.mp brief
      have survive := survives sampleLibraries exampleHost _ _ _ accepted
      have long := (durationsSurvive_iff exampleHost definition).mp survive
        duration hmem
      rw [beq_iff_eq] at hnanos
      omega

end Susm.Controller
