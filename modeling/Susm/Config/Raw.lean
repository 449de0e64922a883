import Susm.Config.Canonical

/-!
# Raw definitions

A workload definition as it stands in a file: optional fields, which are
checked, completed by their defaults and combined into a definition.  An error
names the field that it is about.
-/

namespace Susm.Config

open Susm.Foundation
open Susm.Domain
open Susm.Protocol

/--
What the checks take from the tables of Unicode, from paths and from other
packages: SHA-256, the sizes with a binary suffix, upper case, the quoted form
of a string and the extension of a path.
-/
structure Libraries where
  sha256 : List UInt8 → List UInt8
  parseSize : String → Except String UInt64
  toUppercase : String → String
  debug : String → String
  extension : String → Option String

/-- The last error is an `expect` that fails: it ends the process. -/
inductive DefinitionError where
  | invalidField (field reason : String)
  | fieldNotAllowed (field context : String)
  | fieldRequired (field context : String)
  | panicked (message : String)
  deriving DecidableEq, Repr

abbrev Checked := Except DefinitionError

def invalid {Value : Type} (field reason : String) : Checked Value :=
  .error (.invalidField field reason)

/-! ## Durations and numbers -/

def nonZeroDuration (field : String) (value : Duration) :
    Checked NonZeroDuration :=
  match NonZeroDuration.new value with
  | some duration => .ok duration
  | none => invalid field "must be positive"

def nonZeroU32 (value : UInt32) : Option NonZeroU32 :=
  if h : 0 < value.toNat then some ⟨value.toNat, h, value.toNat_lt⟩ else none

def defaultServiceMaxRestarts : NonZeroU32 := ⟨10, by decide, by decide⟩

def defaultServiceResetAfter : Duration := .fromSecs (5 * 60) (by decide)

def defaultBackoffInitial : Duration := .fromMillis 250 (by decide)

def defaultBackoffMultiplier : UInt32 := 2

def defaultBackoffMaximum : Duration := .fromSecs 30 (by decide)

def defaultWorkingDirectory : String := "${USERPROFILE}"

def defaultStopTimeout : Duration := .fromSecs 10 (by decide)

def defaultSegmentSize : String := "16MiB"

def defaultSegmentAge : Duration := .fromSecs (60 * 60) (by decide)

def defaultRetentionSize : String := "1GiB"

def defaultRetentionAge : Duration :=
  .fromSecs (30 * 24 * 60 * 60) (by decide)

/-! ## Texts -/

def validateText (field value : String) (allowEmpty : Bool) : Checked Unit :=
  if !allowEmpty && value.isEmpty then invalid field "must not be empty"
  else if value.toList.contains '\x00' then
    invalid field "must not contain a null character"
  else .ok ()

/-- `eq_ignore_ascii_case` -/
def eqIgnoreAsciiCase (first second : String) : Bool :=
  first.toList.map Char.toLower == second.toList.map Char.toLower

def validateExecutable (libraries : Libraries) (field value : String) :
    Checked Unit := do
  validateText field value false
  match libraries.extension value with
  | none => .ok ()
  | some extension =>
      if ["cmd", "bat", "ps1"].any (eqIgnoreAsciiCase extension) then
        invalid field
          ("." ++ extension ++ " requires an explicit shell executable")
      else .ok ()

def validateArguments (field : String) : List String → Checked Unit
  | [] => .ok ()
  | value :: values => do
      validateText field value true
      validateArguments field values

def parsePositiveSize (libraries : Libraries) (field value : String) :
    Checked UInt64 :=
  match libraries.parseSize value with
  | .error error => invalid field error
  | .ok bytes =>
      if bytes = 0 then invalid field "must be positive" else .ok bytes

/-! ## The environment -/

inductive InvalidEnvironmentName where
  | empty
  | containsEquals
  | containsNull
  deriving DecidableEq, Repr

def InvalidEnvironmentName.message : InvalidEnvironmentName → String
  | .empty => "environment variable name is empty"
  | .containsEquals => "environment variable name contains '='"
  | .containsNull => "environment variable name contains a null character"

def EnvironmentName.parse (libraries : Libraries) (value : String) :
    Except InvalidEnvironmentName EnvironmentName :=
  if value.isEmpty then .error .empty
  else if value.toList.contains '=' then .error .containsEquals
  else if value.toList.contains '\x00' then .error .containsNull
  else .ok ⟨libraries.toUppercase value⟩

def environmentName (libraries : Libraries) (field rawName : String) :
    Checked EnvironmentName :=
  match EnvironmentName.parse libraries rawName with
  | .ok name => .ok name
  | .error error =>
      invalid field (libraries.debug rawName ++ ": " ++ error.message)

structure RawEnvironment where
  set : OrderedMap String String
  unset : List String

namespace RawEnvironment

def insertSet (libraries : Libraries)
    (set : OrderedMap EnvironmentName String) (entry : String × String) :
    Checked (OrderedMap EnvironmentName String) := do
  validateText "environment.set" entry.2 true
  let name ← environmentName libraries "environment.set" entry.1
  if set.contains name then
    invalid "environment.set"
      ("duplicate Windows environment name " ++ libraries.debug entry.1)
  else .ok (set.insert name entry.2)

def insertUnset (libraries : Libraries)
    (set : OrderedMap EnvironmentName String)
    (unset : OrderedSet EnvironmentName) (rawName : String) :
    Checked (OrderedSet EnvironmentName) := do
  let name ← environmentName libraries "environment.unset" rawName
  if unset.contains name then
    invalid "environment.unset"
      ("duplicate Windows environment name " ++ libraries.debug rawName)
  else if set.contains name then
    invalid "environment" (name.value ++ " appears in both set and unset")
  else .ok (unset.insert name ())

def intoOverlay (libraries : Libraries) (self : RawEnvironment) :
    Checked EnvironmentOverlay := do
  let set ← self.set.entries.foldlM (insertSet libraries) .empty
  let unset ← self.unset.foldlM (insertUnset libraries set) .empty
  return ⟨set, unset⟩

end RawEnvironment

/-! ## Restart policies -/

inductive RawRestartPolicy where
  | never
  | onFailure
  | always
  deriving DecidableEq, Repr

inductive RawRestartLimit where
  | finite (value : UInt32)
  | keyword (value : String)
  deriving DecidableEq, Repr

structure RawBackoff where
  initial : Option Duration
  multiplier : Option UInt32
  maximum : Option Duration
  deriving DecidableEq, Repr

structure RawRestart where
  policy : Option RawRestartPolicy
  maxRestarts : Option RawRestartLimit
  resetAfter : Option Duration
  backoff : Option RawBackoff
  deriving DecidableEq, Repr

/-- `BackoffPolicy::new` -/
def newBackoffPolicy (initial : NonZeroDuration) (multiplier : NonZeroU32)
    (maximum : NonZeroDuration) : Checked BackoffPolicy :=
  if h : initial.get ≤ maximum.get then .ok ⟨initial, multiplier, maximum, h⟩
  else
    invalid "restart.backoff" "maximum backoff is less than initial backoff"

def RawBackoff.intoPolicy (self : RawBackoff) : Checked BackoffPolicy := do
  let initial ← nonZeroDuration "restart.backoff.initial"
    (self.initial.getD defaultBackoffInitial)
  let maximum ← nonZeroDuration "restart.backoff.maximum"
    (self.maximum.getD defaultBackoffMaximum)
  match nonZeroU32 (self.multiplier.getD defaultBackoffMultiplier) with
  | none => invalid "restart.backoff.multiplier" "must be positive"
  | some multiplier => newBackoffPolicy initial multiplier maximum

def rejectRetryFields (raw : RawRestart) (context : String) : Checked Unit :=
  if raw.maxRestarts.isSome then
    .error (.fieldNotAllowed "restart.max_restarts" context)
  else if raw.resetAfter.isSome then
    .error (.fieldNotAllowed "restart.reset_after" context)
  else if raw.backoff.isSome then
    .error (.fieldNotAllowed "restart.backoff" context)
  else .ok ()

def serviceRetry (raw : RawRestart) (limit : ServiceRetryLimit) :
    Checked ServiceRetryPolicy := do
  let resetAfter ← nonZeroDuration "restart.reset_after"
    (raw.resetAfter.getD defaultServiceResetAfter)
  let backoff ← (raw.backoff.getD ⟨none, none, none⟩).intoPolicy
  return ⟨limit, resetAfter, backoff⟩

/-- The limit of a service; `none` when it is never restarted. -/
def serviceLimit (libraries : Libraries) :
    Option RawRestartLimit → Checked (Option ServiceRetryLimit)
  | none => .ok (some (.finite defaultServiceMaxRestarts))
  | some (.finite value) => .ok ((nonZeroU32 value).map .finite)
  | some (.keyword keyword) =>
      if keyword = "unlimited" then .ok (some .unlimited)
      else
        invalid "restart.max_restarts"
          ("unknown value " ++ libraries.debug keyword)

def serviceRestartPolicy (libraries : Libraries) (raw : RawRestart) :
    Checked ExecutionRestartPolicy :=
  match raw.policy.getD .onFailure with
  | .never => do
      rejectRetryFields raw "restart.policy is never"
      return .service .never
  | .onFailure => do
      match ← serviceLimit libraries raw.maxRestarts with
      | none => return .service .never
      | some limit => return .service (.onFailure (← serviceRetry raw limit))
  | .always => do
      match ← serviceLimit libraries raw.maxRestarts with
      | none => return .service .never
      | some limit => return .service (.always (← serviceRetry raw limit))

def jobRestartPolicy (libraries : Libraries) (raw : RawRestart) :
    Checked ExecutionRestartPolicy :=
  match raw.policy.getD .never with
  | .never => do
      rejectRetryFields raw "restart.policy is never"
      return .job .never
  | .always => invalid "restart.policy" "jobs do not support always"
  | .onFailure =>
      if raw.resetAfter.isSome then
        .error (.fieldNotAllowed "restart.reset_after" "the workload is a job")
      else
        match raw.maxRestarts with
        | some (.finite value) =>
            match nonZeroU32 value with
            | none => .ok (.job .never)
            | some maxRestarts => do
                let backoff ←
                  (raw.backoff.getD ⟨none, none, none⟩).intoPolicy
                return .job (.onFailure ⟨maxRestarts, backoff⟩)
        | some (.keyword keyword) =>
            invalid "restart.max_restarts"
              ("jobs require a finite integer, got " ++
                libraries.debug keyword)
        | none =>
            .error (.fieldRequired "restart.max_restarts"
              "a job uses on-failure restart")

def restartPolicy (libraries : Libraries) (kind : WorkloadKind)
    (raw : Option RawRestart) : Checked ExecutionRestartPolicy :=
  let raw := raw.getD ⟨none, none, none, none⟩
  match kind with
  | .service => serviceRestartPolicy libraries raw
  | .job => jobRestartPolicy libraries raw

/-! ## Stopping and logging -/

inductive RawStopMethod where
  | ctrlBreak
  | command
  | kill
  deriving DecidableEq, Repr

structure RawStop where
  method : Option RawStopMethod
  timeout : Option Duration
  command : Option StopCommand
  deriving DecidableEq, Repr

def stopDefinition (libraries : Libraries) (raw : Option RawStop) :
    Checked StopDefinition :=
  let raw := raw.getD ⟨none, none, none⟩
  match raw.method.getD .ctrlBreak with
  | .ctrlBreak =>
      if raw.command.isSome then
        .error (.fieldNotAllowed "stop.command" "stop.method is ctrl-break")
      else do
        let timeout ← nonZeroDuration "stop.timeout"
          (raw.timeout.getD defaultStopTimeout)
        return .ctrlBreak timeout.get
  | .command =>
      match raw.timeout, raw.command with
      | none, _ =>
          .error (.fieldRequired "stop.timeout" "stop.method is command")
      | some _, none =>
          .error (.fieldRequired "stop.command" "stop.method is command")
      | some timeout, some command => do
          validateExecutable libraries "stop.command.executable"
            command.executable
          validateArguments "stop.command.arguments" command.arguments
          let timeout ← nonZeroDuration "stop.timeout" timeout
          return .command timeout.get command
  | .kill =>
      if raw.timeout.isSome then
        .error (.fieldNotAllowed "stop.timeout" "stop.method is kill")
      else if raw.command.isSome then
        .error (.fieldNotAllowed "stop.command" "stop.method is kill")
      else .ok .kill

inductive RawRetentionAge where
  | value (age : Duration)
  | keyword (value : String)
  deriving DecidableEq, Repr

structure RawLogging where
  capture : Option Bool
  segmentSize : Option String
  segmentAge : Option Duration
  retentionSize : Option String
  retentionAge : Option RawRetentionAge
  deriving DecidableEq, Repr

def rejectLoggingFields (raw : RawLogging) (context : String) :
    Checked Unit :=
  if raw.segmentSize.isSome then
    .error (.fieldNotAllowed "logging.segment_size" context)
  else if raw.segmentAge.isSome then
    .error (.fieldNotAllowed "logging.segment_age" context)
  else if raw.retentionSize.isSome then
    .error (.fieldNotAllowed "logging.retention_size" context)
  else if raw.retentionAge.isSome then
    .error (.fieldNotAllowed "logging.retention_age" context)
  else .ok ()

def retentionLimit (libraries : Libraries) (raw : Option String) :
    Checked RetentionLimit :=
  if raw = some "unlimited" then .ok .unlimited
  else do
    let size ← parsePositiveSize libraries "logging.retention_size"
      (raw.getD defaultRetentionSize)
    return .limited size

def retentionDuration (libraries : Libraries) :
    Option RawRetentionAge → Checked RetentionDuration
  | some (.keyword keyword) =>
      if keyword = "unlimited" then .ok .unlimited
      else
        invalid "logging.retention_age"
          ("unknown value " ++ libraries.debug keyword)
  | some (.value value) => do
      let age ← nonZeroDuration "logging.retention_age" value
      return .limited age.get
  | none => .ok (.limited defaultRetentionAge)

def loggingPolicy (libraries : Libraries) (raw : Option RawLogging) :
    Checked LoggingPolicy :=
  let raw := raw.getD ⟨none, none, none, none, none⟩
  if raw.capture.getD true then do
    let segmentSize ← parsePositiveSize libraries "logging.segment_size"
      (raw.segmentSize.getD defaultSegmentSize)
    let segmentAge ← nonZeroDuration "logging.segment_age"
      (raw.segmentAge.getD defaultSegmentAge)
    let retentionSize ← retentionLimit libraries raw.retentionSize
    let retentionAge ← retentionDuration libraries raw.retentionAge
    return .capture segmentSize segmentAge.get retentionSize retentionAge
  else do
    rejectLoggingFields raw "logging.capture is false"
    return .disabled

/-! ## Definitions -/

structure RawDefinition where
  kind : WorkloadKind
  executable : String
  arguments : List String
  workingDirectory : Option String
  successExitCodes : Option (List UInt32)
  environment : RawEnvironment
  restart : Option RawRestart
  stop : Option RawStop
  logging : Option RawLogging

/-- The hash is missing when a length does not fit into 64 bits. -/
def checkedProcessHash (libraries : Libraries) (process : ProcessDefinition) :
    Checked (List UInt8) :=
  match processHash libraries.sha256 process with
  | some hash => .ok hash
  | none => .error (.panicked "in-memory collection length fits u64")

def RawDefinition.intoDefinition (libraries : Libraries)
    (self : RawDefinition) (id : WorkloadId) : Checked WorkloadDefinition := do
  validateExecutable libraries "executable" self.executable
  validateArguments "arguments" self.arguments
  let workingDirectory := self.workingDirectory.getD defaultWorkingDirectory
  validateText "working_directory" workingDirectory false
  let environment ← self.environment.intoOverlay libraries
  let process : ProcessDefinition :=
    { executable := self.executable
      arguments := self.arguments
      workingDirectory := workingDirectory
      environment := environment }
  let processHash ← checkedProcessHash libraries process
  let successExitCodes := (self.successExitCodes.getD [0]).foldl
    (fun codes code => codes.insert code ()) (.empty : OrderedSet UInt32)
  let restart ← restartPolicy libraries self.kind self.restart
  let stop ← stopDefinition libraries self.stop
  let logging ← loggingPolicy libraries self.logging
  return { id := id
           kind := self.kind
           process := process
           processHash := processHash
           successExitCodes := successExitCodes
           restart := restart
           stop := stop
           logging := logging }

end Susm.Config
