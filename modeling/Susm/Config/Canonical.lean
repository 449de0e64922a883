import Susm.Config.Model
import Susm.Foundation.LittleEndian
import Susm.Foundation.PrefixCode

/-!
# Canonical encoding

The bytes that are hashed for a process definition and for a whole
configuration.  Every part is of a fixed width, counted or marked by a tag, so
that the bytes determine what they were written from.
-/

namespace Susm.Config

open Susm.Foundation
open Susm.Domain
open Susm.Protocol

/-! ## The hash writer -/

namespace HashWriter

def tag (value : UInt8) : Feed UInt8 := .of [value]

def u32 (value : Nat) : Feed UInt8 := .of (leBytes 4 value)

def u64 (value : Nat) : Feed UInt8 := .of (leBytes 8 value)

/-- The conversion of a length must not fail. -/
def usize (value : Nat) : Feed UInt8 :=
  if value < 2 ^ 64 then u64 value else .stopped

def duration (value : Duration) : Feed UInt8 := .of (leBytes 16 value.nanos)

def string (value : String) : Feed UInt8 :=
  let bytes := value.toUTF8.data.toList
  usize bytes.length ++ .of bytes

def new (format : String) : Feed UInt8 :=
  let bytes := format.toUTF8.data.toList
  .of (leBytes 8 bytes.length) ++ .of bytes

end HashWriter

open HashWriter

/-! ## The encodings -/

def writeProcess (process : ProcessDefinition) : Feed UInt8 :=
  string process.executable ++
  usize process.arguments.length ++
  .all (process.arguments.map string) ++
  string process.workingDirectory ++
  usize process.environment.set.entries.length ++
  .all (process.environment.set.entries.map fun entry =>
    string entry.1.value ++ string entry.2) ++
  usize process.environment.unset.entries.length ++
  .all (process.environment.unset.entries.map fun entry =>
    string entry.1.value)

def writeBackoff (backoff : BackoffPolicy) : Feed UInt8 :=
  duration backoff.initial.get ++
  u32 backoff.multiplier.get ++
  duration backoff.maximum.get

/-- The match on the limit in `write_service_retry`. -/
def writeLimit : ServiceRetryLimit → Feed UInt8
  | .finite limit => tag 1 ++ u32 limit.get
  | .unlimited => tag 2

def writeServiceRetry (policy : ServiceRetryPolicy) : Feed UInt8 :=
  writeLimit policy.limit ++
  duration policy.resetAfter.get ++
  writeBackoff policy.backoff

def writeRestart : ExecutionRestartPolicy → Feed UInt8
  | .service .never => tag 1
  | .service (.onFailure policy) => tag 2 ++ writeServiceRetry policy
  | .service (.always policy) => tag 3 ++ writeServiceRetry policy
  | .job .never => tag 4
  | .job (.onFailure policy) =>
      tag 5 ++ u32 policy.maxRestarts.get ++ writeBackoff policy.backoff

def writeStop : StopDefinition → Feed UInt8
  | .ctrlBreak timeout => tag 1 ++ duration timeout
  | .command timeout command =>
      tag 2 ++ duration timeout ++ string command.executable ++
        usize command.arguments.length ++
        .all (command.arguments.map string)
  | .kill => tag 3

/-- The match on the retention size in `write_logging`. -/
def writeRetentionSize : RetentionLimit → Feed UInt8
  | .limited size => tag 1 ++ u64 size.toNat
  | .unlimited => tag 2

/-- The match on the retention age in `write_logging`. -/
def writeRetentionAge : RetentionDuration → Feed UInt8
  | .limited age => tag 1 ++ duration age
  | .unlimited => tag 2

def writeLogging : LoggingPolicy → Feed UInt8
  | .disabled => tag 1
  | .capture segmentSize segmentAge retentionSize retentionAge =>
      tag 2 ++ u64 segmentSize.toNat ++ duration segmentAge ++
        writeRetentionSize retentionSize ++ writeRetentionAge retentionAge

def kindTag : WorkloadKind → UInt8
  | .service => 1
  | .job => 2

def writeDefinition (definition : WorkloadDefinition) : Feed UInt8 :=
  tag (kindTag definition.kind) ++
  writeProcess definition.process ++
  usize definition.successExitCodes.entries.length ++
  .all (definition.successExitCodes.entries.map fun entry =>
    u32 entry.1.toNat) ++
  writeRestart definition.restart ++
  writeStop definition.stop ++
  writeLogging definition.logging

/-- The bytes that `process_hash` hashes. -/
def processFeed (process : ProcessDefinition) : Feed UInt8 :=
  new "susm-process-definition-v1" ++ writeProcess process

/-- The bytes that `config_generation` hashes. -/
def configFeed (definitions : Definitions) : Feed UInt8 :=
  new "susm-config-generation-v1" ++
  usize definitions.entries.length ++
  .all (definitions.entries.map fun entry =>
    string entry.1.value ++ writeDefinition entry.2)

def processHash (sha256 : List UInt8 → List UInt8)
    (process : ProcessDefinition) : Option (List UInt8) :=
  Option.map sha256 (processFeed process)

def configGeneration (sha256 : List UInt8 → List UInt8)
    (definitions : Definitions) : Option (List UInt8) :=
  Option.map sha256 (configFeed definitions)

/-! ## The parts can be read back -/

section

variable {first second : Nat} {value : UInt8}

theorem separates_leBytes {width : Nat} (hfirst : first < 256 ^ width)
    (hsecond : second < 256 ^ width) :
    Feed.Separates (.of (leBytes width first)) (.of (leBytes width second))
      (first = second) := by
  refine (Feed.separates_of (by simp)).mono fun same => ?_
  have read := congrArg ofLeBytes same
  rwa [ofLeBytes_leBytes_of_lt hfirst, ofLeBytes_leBytes_of_lt hsecond] at read

theorem separates_u32 (hfirst : first < 2 ^ 32) (hsecond : second < 2 ^ 32) :
    Feed.Separates (u32 first) (u32 second) (first = second) :=
  separates_leBytes hfirst hsecond

theorem separates_u64 (hfirst : first < 2 ^ 64) (hsecond : second < 2 ^ 64) :
    Feed.Separates (u64 first) (u64 second) (first = second) :=
  separates_leBytes hfirst hsecond

theorem separates_usize :
    Feed.Separates (usize first) (usize second) (first = second) := by
  unfold usize
  split
  · rename_i hfirst
    split
    · rename_i hsecond
      exact separates_u64 hfirst hsecond
    · intro _ _ _ _ _ stops
      cases stops
  · exact Feed.separates_stopped

theorem duration_prefixFree : PrefixFree duration := by
  intro value other
  have hvalue : value.nanos < 256 ^ 16 := value.lt.trans (by decide)
  have hother : other.nanos < 256 ^ 16 := other.lt.trans (by decide)
  exact (separates_leBytes hvalue hother).mono Duration.ext

theorem string_prefixFree : PrefixFree string := by
  intro value other
  refine (separates_usize.append fun length =>
    Feed.separates_of length).mono ?_
  rintro ⟨-, same⟩
  have bytes : value.toByteArray = other.toByteArray :=
    ByteArray.ext (Array.ext' same)
  exact String.toByteArray_inj.mp bytes

theorem separates_new (format : String) :
    Feed.Separates (new format) (new format) True :=
  ((Feed.separates_of rfl).append fun _ => Feed.separates_of rfl).mono
    fun _ => trivial

theorem tag_prefixFree : PrefixFree tag := by
  intro value other
  have one : ([value] : List UInt8).length = [other].length := rfl
  refine (Feed.separates_of one).mono ?_
  exact fun same => (List.cons.inj same).1

theorem begins_tag : Feed.Begins value (tag value) := by
  rintro _ ⟨⟩
  rfl

end

theorem writeProcess_prefixFree : PrefixFree writeProcess := by
  intro process other
  have setting : PrefixFree fun entry : EnvironmentName × String =>
      string entry.1.value ++ string entry.2 := by
    rintro ⟨⟨name⟩, text⟩ ⟨⟨otherName⟩, otherText⟩
    refine ((string_prefixFree _ _).append fun _ =>
      string_prefixFree _ _).mono ?_
    rintro ⟨rfl, rfl⟩
    rfl
  have name : PrefixFree fun entry : EnvironmentName × Unit =>
      string entry.1.value := by
    rintro ⟨⟨name⟩, _⟩ ⟨⟨otherName⟩, _⟩
    refine (string_prefixFree _ _).mono ?_
    rintro rfl
    rfl
  refine ((((((((string_prefixFree _ _).append fun _ => separates_usize).append
    fun same => Feed.separates_all string_prefixFree same.2).append
    fun _ => string_prefixFree _ _).append fun _ => separates_usize).append
    fun same => Feed.separates_all setting same.2).append
    fun _ => separates_usize).append
    fun same => Feed.separates_all name same.2).mono ?_
  rintro ⟨⟨⟨⟨⟨⟨⟨executable, -⟩, arguments⟩, directory⟩, -⟩, set⟩, -⟩, unset⟩
  obtain ⟨_, _, _, ⟨_, _⟩⟩ := process
  obtain ⟨_, _, _, ⟨_, _⟩⟩ := other
  cases executable
  cases arguments
  cases directory
  cases OrderedMap.ext set
  cases OrderedMap.ext unset
  rfl

theorem writeBackoff_prefixFree : PrefixFree writeBackoff := by
  intro policy other
  refine (((duration_prefixFree _ _).append fun _ =>
    separates_u32 policy.multiplier.lt other.multiplier.lt).append fun _ =>
    duration_prefixFree _ _).mono ?_
  rintro ⟨⟨initial, multiplier⟩, maximum⟩
  obtain ⟨⟨_, _⟩, ⟨_, _, _⟩, ⟨_, _⟩, _⟩ := policy
  obtain ⟨⟨_, _⟩, ⟨_, _, _⟩, ⟨_, _⟩, _⟩ := other
  cases initial
  cases multiplier
  cases maximum
  rfl

theorem writeLimit_prefixFree : PrefixFree writeLimit := by
  rintro (limit | _) (other | _)
  · refine ((tag_prefixFree _ _).append fun _ =>
      separates_u32 limit.lt other.lt).mono ?_
    rintro ⟨-, same⟩
    rw [NonZeroU32.ext same]
  · exact Feed.separates_heads begins_tag.append begins_tag nofun
  · exact Feed.separates_heads begins_tag begins_tag.append nofun
  · exact (tag_prefixFree _ _).mono fun _ => rfl

theorem writeServiceRetry_prefixFree : PrefixFree writeServiceRetry := by
  intro policy other
  refine (((writeLimit_prefixFree _ _).append fun _ =>
    duration_prefixFree _ _).append fun _ =>
    writeBackoff_prefixFree _ _).mono ?_
  rintro ⟨⟨limit, resetAfter⟩, backoff⟩
  obtain ⟨_, ⟨_, _⟩, _⟩ := policy
  obtain ⟨_, ⟨_, _⟩, _⟩ := other
  cases limit
  cases resetAfter
  cases backoff
  rfl

def restartTag : ExecutionRestartPolicy → UInt8
  | .service .never => 1
  | .service (.onFailure _) => 2
  | .service (.always _) => 3
  | .job .never => 4
  | .job (.onFailure _) => 5

theorem writeRestart_begins (policy : ExecutionRestartPolicy) :
    Feed.Begins (restartTag policy) (writeRestart policy) := by
  rcases policy with (_ | policy | policy) | (_ | policy)
  · exact begins_tag
  · exact begins_tag.append
  · exact begins_tag.append
  · exact begins_tag
  · exact begins_tag.append.append

theorem writeRestart_prefixFree : PrefixFree writeRestart := by
  intro policy other
  refine Feed.separates_heads (writeRestart_begins policy)
    (writeRestart_begins other) fun same => ?_
  rcases policy with (_ | policy | policy) | (_ | policy) <;>
    rcases other with (_ | other | other) | (_ | other) <;>
    try (simp [restartTag] at same; done)
  · exact (tag_prefixFree _ _).mono fun _ => rfl
  · refine ((tag_prefixFree _ _).append fun _ =>
      writeServiceRetry_prefixFree policy other).mono ?_
    rintro ⟨-, rfl⟩
    rfl
  · refine ((tag_prefixFree _ _).append fun _ =>
      writeServiceRetry_prefixFree policy other).mono ?_
    rintro ⟨-, rfl⟩
    rfl
  · exact (tag_prefixFree _ _).mono fun _ => rfl
  · refine (((tag_prefixFree _ _).append fun _ =>
      separates_u32 policy.maxRestarts.lt other.maxRestarts.lt).append fun _ =>
      writeBackoff_prefixFree policy.backoff other.backoff).mono ?_
    rintro ⟨⟨-, maxRestarts⟩, backoff⟩
    obtain ⟨_, _⟩ := policy
    obtain ⟨_, _⟩ := other
    cases NonZeroU32.ext maxRestarts
    cases backoff
    rfl

theorem writeStop_prefixFree : PrefixFree writeStop := by
  rintro (timeout | ⟨timeout, command⟩ | _) (other | ⟨other, otherCommand⟩ | _)
  · refine ((tag_prefixFree _ _).append fun _ =>
      duration_prefixFree timeout other).mono ?_
    rintro ⟨-, rfl⟩
    rfl
  · exact Feed.separates_heads begins_tag.append
      begins_tag.append.append.append.append nofun
  · exact Feed.separates_heads begins_tag.append begins_tag nofun
  · exact Feed.separates_heads begins_tag.append.append.append.append
      begins_tag.append nofun
  · refine (((((tag_prefixFree _ _).append fun _ =>
      duration_prefixFree timeout other).append fun _ =>
      string_prefixFree _ _).append fun _ => separates_usize).append
      fun same => Feed.separates_all string_prefixFree same.2).mono ?_
    rintro ⟨⟨⟨⟨-, rfl⟩, executable⟩, -⟩, arguments⟩
    obtain ⟨_, _⟩ := command
    obtain ⟨_, _⟩ := otherCommand
    cases executable
    cases arguments
    rfl
  · exact Feed.separates_heads begins_tag.append.append.append.append
      begins_tag nofun
  · exact Feed.separates_heads begins_tag begins_tag.append nofun
  · exact Feed.separates_heads begins_tag
      begins_tag.append.append.append.append nofun
  · exact (tag_prefixFree _ _).mono fun _ => rfl

theorem separates_size (size other : UInt64) :
    Feed.Separates (u64 size.toNat) (u64 other.toNat) (size = other) :=
  (separates_u64 size.toNat_lt other.toNat_lt).mono UInt64.toNat.inj

theorem writeRetentionSize_prefixFree : PrefixFree writeRetentionSize := by
  rintro (size | _) (other | _)
  · refine ((tag_prefixFree _ _).append fun _ =>
      separates_size size other).mono ?_
    rintro ⟨-, rfl⟩
    rfl
  · exact Feed.separates_heads begins_tag.append begins_tag nofun
  · exact Feed.separates_heads begins_tag begins_tag.append nofun
  · exact (tag_prefixFree _ _).mono fun _ => rfl

theorem writeRetentionAge_prefixFree : PrefixFree writeRetentionAge := by
  rintro (age | _) (other | _)
  · refine ((tag_prefixFree _ _).append fun _ =>
      duration_prefixFree age other).mono ?_
    rintro ⟨-, rfl⟩
    rfl
  · exact Feed.separates_heads begins_tag.append begins_tag nofun
  · exact Feed.separates_heads begins_tag begins_tag.append nofun
  · exact (tag_prefixFree _ _).mono fun _ => rfl

theorem writeLogging_prefixFree : PrefixFree writeLogging := by
  rintro (_ | ⟨size, age, retentionSize, retentionAge⟩)
    (_ | ⟨otherSize, otherAge, otherRetentionSize, otherRetentionAge⟩)
  · exact (tag_prefixFree _ _).mono fun _ => rfl
  · exact Feed.separates_heads begins_tag
      begins_tag.append.append.append.append nofun
  · exact Feed.separates_heads begins_tag.append.append.append.append
      begins_tag nofun
  · refine (((((tag_prefixFree _ _).append fun _ =>
      separates_size size otherSize).append fun _ =>
      duration_prefixFree age otherAge).append fun _ =>
      writeRetentionSize_prefixFree retentionSize otherRetentionSize).append
      fun _ => writeRetentionAge_prefixFree retentionAge
        otherRetentionAge).mono ?_
    rintro ⟨⟨⟨⟨-, rfl⟩, rfl⟩, rfl⟩, rfl⟩
    rfl

/-- Everything of two definitions that is written agrees. -/
structure SameContent (first second : WorkloadDefinition) : Prop where
  kind : first.kind = second.kind
  process : first.process = second.process
  successExitCodes : first.successExitCodes = second.successExitCodes
  restart : first.restart = second.restart
  stop : first.stop = second.stop
  logging : first.logging = second.logging

theorem separates_writeDefinition (definition other : WorkloadDefinition) :
    Feed.Separates (writeDefinition definition) (writeDefinition other)
      (SameContent definition other) := by
  have code : PrefixFree fun entry : UInt32 × Unit => u32 entry.1.toNat := by
    rintro ⟨code, _⟩ ⟨other, _⟩
    refine (separates_u32 code.toNat_lt other.toNat_lt).mono fun same => ?_
    rw [UInt32.toNat.inj same]
  refine (((((((tag_prefixFree _ _).append fun _ =>
    writeProcess_prefixFree definition.process other.process).append
    fun _ => separates_usize).append
    fun same => Feed.separates_all code same.2).append
    fun _ => writeRestart_prefixFree definition.restart other.restart).append
    fun _ => writeStop_prefixFree definition.stop other.stop).append
    fun _ => writeLogging_prefixFree definition.logging other.logging).mono ?_
  rintro ⟨⟨⟨⟨⟨⟨kind, process⟩, -⟩, codes⟩, restart⟩, stop⟩, logging⟩
  refine ⟨?_, process, OrderedMap.ext codes, restart, stop, logging⟩
  cases hfirst : definition.kind <;> cases hsecond : other.kind <;>
    simp [kindTag, hfirst, hsecond] at kind ⊢

end Susm.Config
