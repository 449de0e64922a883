import Susm.Protocol.Supervisor

/-!
# Protobuf

The encoding of the messages of `susm.runtime.v1` and `susm.supervisor.v1`, for
runs on given inputs.
-/

namespace Susm.Protocol.Protobuf

/-! ## Fields -/

/-- A variable-length integer, seven bits a byte. -/
def varint (value : Nat) : List UInt8 :=
  go 10 value
where
  go : Nat → Nat → List UInt8
    | 0, _ => []
    | rounds + 1, value =>
        if value < 128 then [UInt8.ofNat value]
        else UInt8.ofNat (value % 128 + 128) :: go rounds (value / 128)

def tag (field wireType : Nat) : List UInt8 := varint (8 * field + wireType)

def present (field : Nat) (bytes : List UInt8) : List UInt8 :=
  tag field 2 ++ varint bytes.length ++ bytes

/-- The default of a field is not written. -/
def bytes (field : Nat) (value : List UInt8) : List UInt8 :=
  if value.isEmpty then [] else present field value

def uint (field value : Nat) : List UInt8 :=
  if value = 0 then [] else tag field 0 ++ varint value

/-- A negative value takes the ten bytes of its two's complement. -/
def int (field : Nat) (value : Int) : List UInt8 :=
  uint field (value % 18446744073709551616).toNat

/-- A field that was declared `optional` is written when it is set. -/
def optional (field : Nat) : Option UInt32 → List UInt8
  | none => []
  | some value => tag field 0 ++ varint value.toNat

def bool (field : Nat) (value : Bool) : List UInt8 := uint field value.toNat

def utf8 (value : String) : List UInt8 :=
  value.toList.flatMap String.utf8EncodeChar

def string (field : Nat) (value : String) : List UInt8 :=
  bytes field (utf8 value)

def strings (field : Nat) (values : List String) : List UInt8 :=
  values.flatMap fun value => present field (utf8 value)

def packed (field : Nat) (values : List UInt32) : List UInt8 :=
  bytes field (values.flatMap fun value => varint value.toNat)

/-! ## Messages -/

def environment (field : Nat) (values : List EnvironmentValue) : List UInt8 :=
  values.flatMap fun value =>
    present field (string 1 value.name ++ string 2 value.value)

def checkpoint (value : Checkpoint) : List UInt8 :=
  string 1 value.managerSessionId ++ string 2 value.workloadId ++
  string 3 value.executionId ++ string 4 value.supervisorId ++
  uint 5 value.incarnation ++ bytes 6 value.executionConfigHash ++
  uint 7 value.attempt ++ string 8 value.phase.name ++
  uint 9 value.lastSequence ++ uint 10 value.committedSequence ++
  int 11 value.retryAtUnixMs ++ string 12 value.resolvedExecutable ++
  string 13 value.resolvedWorkingDirectory ++
  environment 14 value.resolvedEnvironment

def observation (value : RuntimeObservation) : List UInt8 :=
  uint 1 value.sequence ++ string 2 value.kind.name ++
  uint 3 value.attempt ++ optional 4 value.exitCode ++
  string 5 value.detail ++ int 6 value.observedUnixMs ++
  bool 7 value.terminal ++ uint 8 value.workloadProcessId

def acknowledgement (value : Acknowledgement) : List UInt8 :=
  uint 1 value.committedSequence

def runtimeFrame (value : RuntimeFrame) : List UInt8 :=
  uint 1 value.format ++
  match value.record with
  | none => []
  | some (.checkpoint record) => present 2 (checkpoint record)
  | some (.observation record) => present 3 (observation record)
  | some (.acknowledgement record) => present 4 (acknowledgement record)

def configuration (value : ExecutionConfiguration) : List UInt8 :=
  string 1 value.workloadId ++ string 2 value.executionId ++
  uint 3 value.attempt ++ string 4 value.kind.name ++
  string 5 value.executable ++ strings 6 value.arguments ++
  string 7 value.workingDirectory ++ environment 8 value.environmentSet ++
  strings 9 value.environmentUnset ++ packed 10 value.successExitCodes ++
  string 11 value.stopMethod.name ++ uint 12 value.stopTimeoutMs ++
  string 13 value.stopExecutable ++ strings 14 value.stopArguments ++
  bool 15 value.captureLogs ++ uint 16 value.segmentSize ++
  uint 17 value.segmentAgeMs ++ uint 18 value.retentionSize ++
  bool 19 value.retentionSizeUnlimited ++ uint 20 value.retentionAgeMs ++
  bool 21 value.retentionAgeUnlimited ++ string 22 value.logDirectory ++
  string 23 value.runtimeJournal ++ string 24 value.resultFile ++
  string 25 value.restartPolicy.name ++ uint 26 value.maxRestarts ++
  bool 27 value.maxRestartsUnlimited ++ uint 28 value.restartResetAfterMs ++
  uint 29 value.restartBackoffInitialMs ++
  uint 30 value.restartBackoffMultiplier ++
  uint 31 value.restartBackoffMaximumMs ++
  bytes 32 value.executionConfigHash ++ string 33 value.managerSessionId ++
  bytes 34 value.processDefinitionHash ++
  string 35 value.supervisorExecutable ++ string 36 value.versionPin

def policy (value : PolicyUpdate) : List UInt8 :=
  packed 1 value.successExitCodes ++ string 2 value.restartPolicy.name ++
  uint 3 value.maxRestarts ++ bool 4 value.maxRestartsUnlimited ++
  uint 5 value.restartResetAfterMs ++ uint 6 value.restartBackoffInitialMs ++
  uint 7 value.restartBackoffMultiplier ++
  uint 8 value.restartBackoffMaximumMs ++ string 9 value.stopMethod.name ++
  uint 10 value.stopTimeoutMs ++ string 11 value.stopExecutable ++
  strings 12 value.stopArguments ++ bool 13 value.captureLogs ++
  uint 14 value.segmentSize ++ uint 15 value.segmentAgeMs ++
  uint 16 value.retentionSize ++ bool 17 value.retentionSizeUnlimited ++
  uint 18 value.retentionAgeMs ++ bool 19 value.retentionAgeUnlimited ++
  bytes 20 value.policyHash

end Susm.Protocol.Protobuf
