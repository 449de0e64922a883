import Susm.Config.Raw
import Susm.Foundation.EventMachine

/-!
# Defaults that are spelled out

An omitted field means its default.  Writing the default out, wherever the
field is allowed, defines the same workload, and so does a limit of no restarts
instead of the policy `never`.
-/

namespace Susm.Config

open Susm.Foundation
open Susm.Domain
open Susm.Protocol

/-! ## Fields and tables -/

section Fields

variable {Value : Type}

/-- An omitted field is left out, or written with its default where it is
allowed. -/
def Fills (allowed : Prop) (default : Value) (omitted written : Option Value) :
    Prop :=
  written = omitted ∨ omitted = none ∧ allowed ∧ written = some default

/-- A table is left as it is, or its omitted fields are written. -/
def FillsTable (allowed : Prop) (empty : Value) (fills : Value → Value → Prop)
    (omitted written : Option Value) : Prop :=
  written = omitted ∨
    allowed ∧ ∃ table, written = some table ∧ fills (omitted.getD empty) table

variable {allowed : Prop} {default empty : Value}
  {fills : Value → Value → Prop} {omitted written : Option Value}

theorem Fills.refl (field : Option Value) :
    Fills allowed default field field :=
  .inl rfl

theorem Fills.getD (h : Fills allowed default omitted written) :
    written.getD default = omitted.getD default := by
  rcases h with rfl | ⟨rfl, -, rfl⟩ <;> rfl

theorem Fills.unchanged (h : Fills allowed default omitted written)
    (forbidden : ¬ allowed) : written = omitted :=
  h.resolve_right fun filled => forbidden filled.2.1

theorem FillsTable.getD (h : FillsTable allowed empty fills omitted written)
    (refl : ∀ table, fills table table) :
    fills (omitted.getD empty) (written.getD empty) := by
  rcases h with rfl | ⟨-, table, rfl, filled⟩
  · exact refl _
  · exact filled

theorem FillsTable.unchanged
    (h : FillsTable allowed empty fills omitted written)
    (forbidden : ¬ allowed) : written = omitted :=
  h.resolve_right fun filled => forbidden filled.1

end Fields

/-! ## Which defaults may be written -/

structure FillsBackoff (omitted written : RawBackoff) : Prop where
  initial : Fills True defaultBackoffInitial omitted.initial written.initial
  multiplier : Fills True defaultBackoffMultiplier omitted.multiplier
    written.multiplier
  maximum : Fills True defaultBackoffMaximum omitted.maximum written.maximum

def defaultRestart : WorkloadKind → RawRestartPolicy
  | .service => .onFailure
  | .job => .never

def RawRestart.effective (kind : WorkloadKind) (raw : RawRestart) :
    RawRestartPolicy :=
  raw.policy.getD (defaultRestart kind)

/-- A policy without retries allows no retry fields, and only a service has a
default for the limit and for the reset. -/
structure FillsRestart (kind : WorkloadKind) (omitted written : RawRestart) :
    Prop where
  policy : Fills True (defaultRestart kind) omitted.policy written.policy
  maxRestarts : Fills (omitted.effective kind ≠ .never ∧ kind = .service)
    (.finite 10) omitted.maxRestarts written.maxRestarts
  resetAfter : Fills (omitted.effective kind ≠ .never ∧ kind = .service)
    defaultServiceResetAfter omitted.resetAfter written.resetAfter
  backoff : FillsTable (omitted.effective kind ≠ .never) ⟨none, none, none⟩
    FillsBackoff omitted.backoff written.backoff

/-- The default timeout belongs to `ctrl-break`. -/
structure FillsStop (omitted written : RawStop) : Prop where
  method : Fills True .ctrlBreak omitted.method written.method
  timeout : Fills (omitted.method.getD .ctrlBreak = .ctrlBreak)
    defaultStopTimeout omitted.timeout written.timeout
  command : written.command = omitted.command

/-- Without capture no other field is allowed. -/
structure FillsLogging (omitted written : RawLogging) : Prop where
  capture : Fills True true omitted.capture written.capture
  segmentSize : Fills (omitted.capture.getD true = true) defaultSegmentSize
    omitted.segmentSize written.segmentSize
  segmentAge : Fills (omitted.capture.getD true = true) defaultSegmentAge
    omitted.segmentAge written.segmentAge
  retentionSize : Fills (omitted.capture.getD true = true)
    defaultRetentionSize omitted.retentionSize written.retentionSize
  retentionAge : Fills (omitted.capture.getD true = true)
    (.value defaultRetentionAge) omitted.retentionAge written.retentionAge

/-- The arguments of a process and of a stop command have no omitted form
here: a file without them is read as one with empty lists. -/
structure FillsDefinition (omitted written : RawDefinition) : Prop where
  kind : written.kind = omitted.kind
  executable : written.executable = omitted.executable
  arguments : written.arguments = omitted.arguments
  workingDirectory : Fills True defaultWorkingDirectory
    omitted.workingDirectory written.workingDirectory
  successExitCodes : Fills True [0] omitted.successExitCodes
    written.successExitCodes
  environment : written.environment = omitted.environment
  restart : FillsTable True ⟨none, none, none, none⟩
    (FillsRestart omitted.kind) omitted.restart written.restart
  stop : FillsTable True ⟨none, none, none⟩ FillsStop omitted.stop written.stop
  logging : FillsTable True ⟨none, none, none, none, none⟩ FillsLogging
    omitted.logging written.logging

theorem FillsBackoff.refl (table : RawBackoff) : FillsBackoff table table :=
  ⟨.refl _, .refl _, .refl _⟩

theorem FillsRestart.refl (kind : WorkloadKind) (table : RawRestart) :
    FillsRestart kind table table :=
  ⟨.refl _, .refl _, .refl _, .inl rfl⟩

theorem FillsStop.refl (table : RawStop) : FillsStop table table :=
  ⟨.refl _, .refl _, rfl⟩

theorem FillsLogging.refl (table : RawLogging) : FillsLogging table table :=
  ⟨.refl _, .refl _, .refl _, .refl _, .refl _⟩

/-! ## The same policies -/

section Policies

variable {libraries : Libraries}

theorem FillsBackoff.intoPolicy {omitted written : RawBackoff}
    (fills : FillsBackoff omitted written) :
    written.intoPolicy = omitted.intoPolicy := by
  simp only [RawBackoff.intoPolicy, fills.initial.getD, fills.multiplier.getD,
    fills.maximum.getD]

variable {kind : WorkloadKind} {omitted written : RawRestart}

theorem FillsRestart.effective (fills : FillsRestart kind omitted written) :
    written.effective kind = omitted.effective kind :=
  fills.policy.getD

theorem FillsRestart.intoPolicy (fills : FillsRestart kind omitted written) :
    (written.backoff.getD ⟨none, none, none⟩).intoPolicy =
      (omitted.backoff.getD ⟨none, none, none⟩).intoPolicy :=
  (fills.backoff.getD FillsBackoff.refl).intoPolicy

/-- Without retries nothing but the policy can be written. -/
theorem FillsRestart.rejectRetryFields
    (fills : FillsRestart kind omitted written)
    (never : omitted.effective kind = .never) (context : String) :
    rejectRetryFields written context = rejectRetryFields omitted context := by
  simp only [Config.rejectRetryFields,
    fills.maxRestarts.unchanged fun allowed => allowed.1 never,
    fills.resetAfter.unchanged fun allowed => allowed.1 never,
    fills.backoff.unchanged fun allowed => allowed never]

theorem FillsRestart.serviceLimit
    (fills : FillsRestart kind omitted written) :
    serviceLimit libraries written.maxRestarts =
      serviceLimit libraries omitted.maxRestarts := by
  rcases fills.maxRestarts with same | ⟨absent, -, filled⟩
  · rw [same]
  · rw [absent, filled]
    rfl

theorem FillsRestart.serviceRetry (fills : FillsRestart kind omitted written)
    (limit : ServiceRetryLimit) :
    serviceRetry written limit = serviceRetry omitted limit := by
  simp only [Config.serviceRetry, fills.resetAfter.getD, fills.intoPolicy]

theorem serviceRestartPolicy_fills
    (fills : FillsRestart .service omitted written) :
    serviceRestartPolicy libraries written =
      serviceRestartPolicy libraries omitted := by
  have same : written.policy.getD .onFailure =
      omitted.policy.getD .onFailure := fills.effective
  unfold serviceRestartPolicy
  rw [same]
  cases h : omitted.policy.getD .onFailure with
  | never => simp only [fills.rejectRetryFields h]
  | onFailure => simp only [fills.serviceLimit, fills.serviceRetry]
  | always => simp only [fills.serviceLimit, fills.serviceRetry]

theorem jobRestartPolicy_fills (fills : FillsRestart .job omitted written) :
    jobRestartPolicy libraries written =
      jobRestartPolicy libraries omitted := by
  have same : written.policy.getD .never = omitted.policy.getD .never :=
    fills.effective
  unfold jobRestartPolicy
  rw [same]
  cases h : omitted.policy.getD .never with
  | never => simp only [fills.rejectRetryFields h]
  | always => rfl
  | onFailure =>
      have resetAfter : written.resetAfter = omitted.resetAfter :=
        fills.resetAfter.unchanged fun allowed => nomatch allowed.2
      have maxRestarts : written.maxRestarts = omitted.maxRestarts :=
        fills.maxRestarts.unchanged fun allowed => nomatch allowed.2
      simp only [fills.intoPolicy]
      rw [resetAfter, maxRestarts]

theorem restartPolicy_fills {omitted written : Option RawRestart}
    (fills : FillsTable True ⟨none, none, none, none⟩ (FillsRestart kind)
      omitted written) :
    restartPolicy libraries kind written =
      restartPolicy libraries kind omitted := by
  have filled := fills.getD (FillsRestart.refl kind)
  unfold restartPolicy
  cases kind with
  | service => exact serviceRestartPolicy_fills filled
  | job => exact jobRestartPolicy_fills filled

theorem stopDefinition_fills {omitted written : Option RawStop}
    (fills : FillsTable True ⟨none, none, none⟩ FillsStop omitted written) :
    stopDefinition libraries written = stopDefinition libraries omitted := by
  have filled := fills.getD FillsStop.refl
  unfold stopDefinition
  dsimp only
  rw [filled.method.getD, filled.command]
  cases h : (omitted.getD ⟨none, none, none⟩).method.getD .ctrlBreak with
  | ctrlBreak => simp only [filled.timeout.getD]
  | command | kill =>
      have unchanged := filled.timeout.unchanged (by simp [h])
      simp only [unchanged]

theorem retentionLimit_fills {allowed : Prop} {omitted written : Option String}
    (fills : Fills allowed defaultRetentionSize omitted written) :
    retentionLimit libraries written = retentionLimit libraries omitted := by
  rcases fills with rfl | ⟨rfl, -, rfl⟩ <;> rfl

theorem retentionDuration_fills {allowed : Prop}
    {omitted written : Option RawRetentionAge}
    (fills : Fills allowed (.value defaultRetentionAge) omitted written) :
    retentionDuration libraries written =
      retentionDuration libraries omitted := by
  rcases fills with rfl | ⟨rfl, -, rfl⟩
  · rfl
  · rfl

theorem loggingPolicy_fills {omitted written : Option RawLogging}
    (fills : FillsTable True ⟨none, none, none, none, none⟩ FillsLogging
      omitted written) :
    loggingPolicy libraries written = loggingPolicy libraries omitted := by
  have filled := fills.getD FillsLogging.refl
  unfold loggingPolicy
  dsimp only
  rw [filled.capture.getD]
  split
  · simp only [filled.segmentSize.getD, filled.segmentAge.getD,
      retentionLimit_fills filled.retentionSize,
      retentionDuration_fills filled.retentionAge]
  · rename_i disabled
    simp only [rejectLoggingFields, filled.segmentSize.unchanged disabled,
      filled.segmentAge.unchanged disabled,
      filled.retentionSize.unchanged disabled,
      filled.retentionAge.unchanged disabled]

theorem intoDefinition_fills {omitted written : RawDefinition}
    (fills : FillsDefinition omitted written) (id : WorkloadId) :
    written.intoDefinition libraries id =
      omitted.intoDefinition libraries id := by
  simp only [RawDefinition.intoDefinition, fills.executable, fills.arguments,
    fills.workingDirectory.getD, fills.environment,
    fills.successExitCodes.getD, fills.kind, restartPolicy_fills fills.restart,
    stopDefinition_fills fills.stop, loggingPolicy_fills fills.logging]

/-! ## No restarts -/

def neverRestart : RawRestart := ⟨some .never, none, none, none⟩

structure NoRestarts (kind : WorkloadKind) (raw : RawRestart) : Prop where
  limit : raw.maxRestarts = some (.finite 0)
  policy : raw.effective kind = .onFailure ∨
    raw.effective kind = .always ∧ kind = .service

theorem restartPolicy_noRestarts {raw : RawRestart}
    {policy : ExecutionRestartPolicy} (none : NoRestarts kind raw)
    (accepted : restartPolicy libraries kind (some raw) = .ok policy) :
    restartPolicy libraries kind (some neverRestart) = .ok policy := by
  obtain ⟨limit, effective⟩ := none
  unfold restartPolicy at accepted ⊢
  cases kind with
  | service =>
      have never : serviceRestartPolicy libraries raw =
          .ok (.service .never) := by
        unfold serviceRestartPolicy
        rw [limit]
        rcases effective with onFailure | ⟨always, -⟩
        · rw [show raw.policy.getD .onFailure = .onFailure from onFailure]
          rfl
        · rw [show raw.policy.getD .onFailure = .always from always]
          rfl
      exact never.symm.trans accepted
  | job =>
      have onFailure : raw.policy.getD .never = .onFailure := by
        rcases effective with onFailure | ⟨-, service⟩
        · exact onFailure
        · cases service
      change jobRestartPolicy libraries raw = .ok policy at accepted
      unfold jobRestartPolicy at accepted
      rw [onFailure, limit] at accepted
      dsimp only at accepted
      split at accepted
      · cases accepted
      · exact accepted

theorem intoDefinition_noRestarts {raw : RawDefinition} {restart : RawRestart}
    {id : WorkloadId} {definition : WorkloadDefinition}
    (written : raw.restart = some restart) (none : NoRestarts raw.kind restart)
    (accepted : raw.intoDefinition libraries id = .ok definition) :
    { raw with restart := some neverRestart }.intoDefinition libraries id =
      .ok definition := by
  have policies : ∀ policy,
      restartPolicy libraries raw.kind raw.restart = .ok policy →
        restartPolicy libraries raw.kind (some neverRestart) = .ok policy := by
    intro policy hpolicy
    rw [written] at hpolicy
    exact restartPolicy_noRestarts none hpolicy
  unfold RawDefinition.intoDefinition at accepted ⊢
  simp only [bind_eq_ok_iff] at accepted ⊢
  obtain ⟨_, hexecutable, _, harguments, _, hdirectory, _, henvironment, _,
    hhash, _, hrestart, rest⟩ := accepted
  exact ⟨_, hexecutable, _, harguments, _, hdirectory, _, henvironment, _,
    hhash, _, policies _ hrestart, rest⟩

end Policies

/-! ## The same workload -/

/-- Defaults that are written out, and a limit of no restarts in the place of
`never`, are accepted as the same definition with the same hashes. -/
structure DefinesSame (libraries : Libraries) (id : WorkloadId)
    (definition : WorkloadDefinition) (written : RawDefinition) : Prop where
  accepted : written.intoDefinition libraries id = .ok definition
  processHash : ∀ other, written.intoDefinition libraries id = .ok other →
    other.processHash = definition.processHash
  generation : ∀ other (definitions : Definitions),
    written.intoDefinition libraries id = .ok other →
      configGeneration libraries.sha256 (definitions.insert id other) =
        configGeneration libraries.sha256 (definitions.insert id definition)

theorem DefinesSame.of_accepted {libraries : Libraries} {id : WorkloadId}
    {definition : WorkloadDefinition} {written : RawDefinition}
    (accepted : written.intoDefinition libraries id = .ok definition) :
    DefinesSame libraries id definition written := by
  have same : ∀ other, written.intoDefinition libraries id = .ok other →
      other = definition := by
    intro other hother
    rw [accepted] at hother
    exact (Except.ok.inj hother).symm
  constructor
  case accepted => exact accepted
  case processHash =>
    intro other hother
    rw [same other hother]
  case generation =>
    intro other definitions hother
    rw [same other hother]

theorem defaults_define_same {libraries : Libraries} {id : WorkloadId}
    {raw : RawDefinition} {definition : WorkloadDefinition}
    (accepted : raw.intoDefinition libraries id = .ok definition) :
    (∀ written, FillsDefinition raw written →
      DefinesSame libraries id definition written) ∧
    ∀ restart, raw.restart = some restart → NoRestarts raw.kind restart →
      DefinesSame libraries id definition
        { raw with restart := some neverRestart } := by
  constructor
  · intro written fills
    exact .of_accepted ((intoDefinition_fills fills id).trans accepted)
  · intro restart hrestart none
    exact .of_accepted (intoDefinition_noRestarts hrestart none accepted)

/-! ## A service with the required fields only -/

def sampleLibraries : Libraries where
  sha256 bytes := [bytes.foldl (fun digest byte => 31 * digest + byte) 7]
  parseSize text :=
    if text = "16MiB" then .ok 16_777_216
    else if text = "1GiB" then .ok 1_073_741_824
    else .error "invalid size"
  toUppercase text := text
  debug text := text
  extension _ := some "exe"

def requiredFields : RawDefinition where
  kind := .service
  executable := "my-server.exe"
  arguments := []
  workingDirectory := none
  successExitCodes := none
  environment := ⟨.empty, []⟩
  restart := none
  stop := none
  logging := none

def spelledOut : RawDefinition :=
  { requiredFields with
    workingDirectory := some "${USERPROFILE}"
    successExitCodes := some [0]
    restart := some ⟨some .onFailure, some (.finite 10),
      some defaultServiceResetAfter, some ⟨some defaultBackoffInitial, some 2,
        some defaultBackoffMaximum⟩⟩
    stop := some ⟨some .ctrlBreak, some defaultStopTimeout, none⟩
    logging := some ⟨some true, some "16MiB", some defaultSegmentAge,
      some "1GiB", some (.value defaultRetentionAge)⟩ }

theorem spelledOut_fills : FillsDefinition requiredFields spelledOut where
  kind := rfl
  executable := rfl
  arguments := rfl
  workingDirectory := .inr ⟨rfl, trivial, rfl⟩
  successExitCodes := .inr ⟨rfl, trivial, rfl⟩
  environment := rfl
  restart := .inr ⟨trivial, _, rfl,
    { policy := .inr ⟨rfl, trivial, rfl⟩
      maxRestarts := .inr ⟨rfl, ⟨nofun, rfl⟩, rfl⟩
      resetAfter := .inr ⟨rfl, ⟨nofun, rfl⟩, rfl⟩
      backoff := .inr ⟨nofun, _, rfl, .inr ⟨rfl, trivial, rfl⟩,
        .inr ⟨rfl, trivial, rfl⟩, .inr ⟨rfl, trivial, rfl⟩⟩ }⟩
  stop := .inr ⟨trivial, _, rfl,
    .inr ⟨rfl, trivial, rfl⟩, .inr ⟨rfl, rfl, rfl⟩, rfl⟩
  logging := .inr ⟨trivial, _, rfl,
    .inr ⟨rfl, trivial, rfl⟩, .inr ⟨rfl, rfl, rfl⟩, .inr ⟨rfl, rfl, rfl⟩,
    .inr ⟨rfl, rfl, rfl⟩, .inr ⟨rfl, rfl, rfl⟩⟩

theorem defaults_define_same_service :
    ∃ definition,
      requiredFields.intoDefinition sampleLibraries ⟨"my-server"⟩ =
        .ok definition ∧
      DefinesSame sampleLibraries ⟨"my-server"⟩ definition spelledOut := by
  have accepts : (requiredFields.intoDefinition sampleLibraries
      ⟨"my-server"⟩).toBool = true := by
    decide +kernel
  cases accepted :
      requiredFields.intoDefinition sampleLibraries ⟨"my-server"⟩ with
  | error error =>
      rw [accepted] at accepts
      cases accepts
  | ok definition =>
      exact ⟨definition, rfl,
        (defaults_define_same accepted).1 spelledOut spelledOut_fills⟩

end Susm.Config
