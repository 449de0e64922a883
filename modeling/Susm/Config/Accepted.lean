import Susm.Config.Raw
import Susm.Foundation.EventMachine

/-!
# Accepted definitions

What the checks of a raw definition guarantee of the definition that comes out,
and what follows for the canonical encoding: accepted configurations with equal
bytes are equal.
-/

namespace Susm.Config

open Susm.Foundation
open Susm.Domain

/-! ## Durations that must be positive -/

def backoffDurations (policy : BackoffPolicy) : List Duration :=
  [policy.initial.get, policy.maximum.get]

def restartDurations : ExecutionRestartPolicy → List Duration
  | .service .never | .job .never => []
  | .service (.onFailure policy) | .service (.always policy) =>
      policy.resetAfter.get :: backoffDurations policy.backoff
  | .job (.onFailure policy) => backoffDurations policy.backoff

def stopDurations : StopDefinition → List Duration
  | .ctrlBreak timeout | .command timeout _ => [timeout]
  | .kill => []

def retentionDurations : RetentionDuration → List Duration
  | .limited age => [age]
  | .unlimited => []

def loggingDurations : LoggingPolicy → List Duration
  | .disabled => []
  | .capture _ segmentAge _ retentionAge =>
      segmentAge :: retentionDurations retentionAge

def WorkloadDefinition.durations (definition : WorkloadDefinition) :
    List Duration :=
  restartDurations definition.restart ++ stopDurations definition.stop ++
    loggingDurations definition.logging

/-- What holds of every definition that was accepted under an id. -/
structure Accepted (libraries : Libraries) (id : WorkloadId)
    (definition : WorkloadDefinition) : Prop where
  id : definition.id = id
  hash : processHash libraries.sha256 definition.process =
    some definition.processHash
  positive : ∀ duration ∈ definition.durations, 0 < duration.nanos

variable {libraries : Libraries}

theorem restartDurations_pos (policy : ExecutionRestartPolicy) :
    ∀ duration ∈ restartDurations policy, 0 < duration.nanos := by
  have backoff : ∀ (policy : BackoffPolicy),
      ∀ duration ∈ backoffDurations policy, 0 < duration.nanos := by
    intro policy duration hmem
    rcases List.mem_cons.mp hmem with rfl | hmem
    · exact policy.initial.pos
    · cases List.mem_singleton.mp hmem
      exact policy.maximum.pos
  rcases policy with (_ | policy | policy) | (_ | policy)
  · nofun
  · exact List.forall_mem_cons.mpr ⟨policy.resetAfter.pos, backoff _⟩
  · exact List.forall_mem_cons.mpr ⟨policy.resetAfter.pos, backoff _⟩
  · nofun
  · exact backoff _

theorem stopDefinition_pos {raw : Option RawStop} {stop : StopDefinition}
    (accepted : stopDefinition libraries raw = .ok stop) :
    ∀ duration ∈ stopDurations stop, 0 < duration.nanos := by
  unfold stopDefinition at accepted
  dsimp only at accepted
  split at accepted
  · split at accepted
    · cases accepted
    · obtain ⟨timeout, -, accepted⟩ := bind_eq_ok_iff.mp accepted
      cases accepted
      simpa [stopDurations] using timeout.pos
  · split at accepted
    · cases accepted
    · cases accepted
    · obtain ⟨-, -, accepted⟩ := bind_eq_ok_iff.mp accepted
      obtain ⟨-, -, accepted⟩ := bind_eq_ok_iff.mp accepted
      obtain ⟨timeout, -, accepted⟩ := bind_eq_ok_iff.mp accepted
      cases accepted
      simpa [stopDurations] using timeout.pos
  · split at accepted
    · cases accepted
    · split at accepted <;> cases accepted
      nofun

theorem retentionDuration_pos {raw : Option RawRetentionAge}
    {retention : RetentionDuration}
    (accepted : retentionDuration libraries raw = .ok retention) :
    ∀ duration ∈ retentionDurations retention, 0 < duration.nanos := by
  unfold retentionDuration at accepted
  split at accepted
  · split at accepted <;> cases accepted
    nofun
  · obtain ⟨age, -, accepted⟩ := bind_eq_ok_iff.mp accepted
    cases accepted
    simpa [retentionDurations] using age.pos
  · cases accepted
    intro duration hmem
    cases List.mem_singleton.mp hmem
    decide

theorem loggingPolicy_pos {raw : Option RawLogging} {logging : LoggingPolicy}
    (accepted : loggingPolicy libraries raw = .ok logging) :
    ∀ duration ∈ loggingDurations logging, 0 < duration.nanos := by
  unfold loggingPolicy at accepted
  dsimp only at accepted
  split at accepted
  · obtain ⟨segmentSize, -, accepted⟩ := bind_eq_ok_iff.mp accepted
    obtain ⟨segmentAge, -, accepted⟩ := bind_eq_ok_iff.mp accepted
    obtain ⟨retentionSize, -, accepted⟩ := bind_eq_ok_iff.mp accepted
    obtain ⟨retentionAge, hretention, accepted⟩ := bind_eq_ok_iff.mp accepted
    cases accepted
    exact List.forall_mem_cons.mpr
      ⟨segmentAge.pos, retentionDuration_pos hretention⟩
  · obtain ⟨-, -, accepted⟩ := bind_eq_ok_iff.mp accepted
    cases accepted
    nofun

theorem intoDefinition_accepted {raw : RawDefinition} {id : WorkloadId}
    {definition : WorkloadDefinition}
    (accepted : raw.intoDefinition libraries id = .ok definition) :
    Accepted libraries id definition := by
  unfold RawDefinition.intoDefinition at accepted
  obtain ⟨-, -, accepted⟩ := bind_eq_ok_iff.mp accepted
  obtain ⟨-, -, accepted⟩ := bind_eq_ok_iff.mp accepted
  obtain ⟨-, -, accepted⟩ := bind_eq_ok_iff.mp accepted
  obtain ⟨environment, -, accepted⟩ := bind_eq_ok_iff.mp accepted
  obtain ⟨hash, hhash, accepted⟩ := bind_eq_ok_iff.mp accepted
  obtain ⟨restart, -, accepted⟩ := bind_eq_ok_iff.mp accepted
  obtain ⟨stop, hstop, accepted⟩ := bind_eq_ok_iff.mp accepted
  obtain ⟨logging, hlogging, accepted⟩ := bind_eq_ok_iff.mp accepted
  cases accepted
  constructor
  case id => rfl
  case hash =>
    unfold checkedProcessHash at hhash
    split at hhash
    · rename_i present
      cases hhash
      exact present
    · cases hhash
  case positive =>
    intro duration hmem
    rcases List.mem_append.mp hmem with hmem | hmem
    · rcases List.mem_append.mp hmem with hmem | hmem
      · exact restartDurations_pos restart duration hmem
      · exact stopDefinition_pos hstop duration hmem
    · exact loggingPolicy_pos hlogging duration hmem

/-! ## Equal bytes -/

def AllAccepted (libraries : Libraries) (definitions : Definitions) : Prop :=
  ∀ entry ∈ definitions.entries, Accepted libraries entry.1 entry.2

theorem Accepted.eq_of_sameContent {id : WorkloadId}
    {first second : WorkloadDefinition} (accepted : Accepted libraries id first)
    (other : Accepted libraries id second)
    (same : SameContent first second) : first = second := by
  have hash : some first.processHash = some second.processHash := by
    rw [← accepted.hash, ← other.hash, same.process]
  obtain ⟨_, _, _, _, _, _, _, _⟩ := first
  obtain ⟨_, _, _, _, _, _, _, _⟩ := second
  cases accepted.id
  cases other.id
  cases same.kind
  cases same.process
  cases same.successExitCodes
  cases same.restart
  cases same.stop
  cases same.logging
  cases hash
  rfl

theorem eq_of_processFeed {first second : ProcessDefinition}
    {bytes : List UInt8} (hfirst : processFeed first = some bytes)
    (hsecond : processFeed second = some bytes) : first = second := by
  have separates : Feed.Separates (processFeed first) (processFeed second)
      (first = second) := by
    exact ((separates_new _).append fun _ =>
      writeProcess_prefixFree first second).mono And.right
  exact (separates bytes bytes [] [] hfirst hsecond rfl).1

theorem eq_of_configFeed {first second : Definitions} {bytes : List UInt8}
    (accepted : AllAccepted libraries first)
    (other : AllAccepted libraries second)
    (hfirst : configFeed first = some bytes)
    (hsecond : configFeed second = some bytes) : first = second := by
  have entry : ∀ entry other : WorkloadId × WorkloadDefinition,
      Feed.Separates (HashWriter.string entry.1.value ++ writeDefinition entry.2)
        (HashWriter.string other.1.value ++ writeDefinition other.2)
        (entry.1 = other.1 ∧ SameContent entry.2 other.2) := by
    rintro ⟨⟨id⟩, definition⟩ ⟨⟨otherId⟩, otherDefinition⟩
    refine ((string_prefixFree id otherId).append fun _ =>
      separates_writeDefinition definition otherDefinition).mono ?_
    rintro ⟨rfl, same⟩
    exact ⟨rfl, same⟩
  have separates : Feed.Separates (configFeed first) (configFeed second)
      (List.Forall₂ (fun entry other : WorkloadId × WorkloadDefinition =>
        entry.1 = other.1 ∧ SameContent entry.2 other.2)
        first.entries second.entries) := by
    exact (((separates_new _).append fun _ => separates_usize).append
      fun same => Feed.separates_each entry same.2).mono And.right
  have alike := (separates bytes bytes [] [] hfirst hsecond rfl).1
  unfold AllAccepted at accepted other
  refine OrderedMap.ext ?_
  revert accepted other
  generalize first.entries = entries at alike ⊢
  generalize second.entries = others at alike ⊢
  intro accepted other
  induction alike with
  | nil => rfl
  | @cons head otherHead entries others same _ ih =>
      obtain ⟨id, definition⟩ := head
      obtain ⟨otherId, otherDefinition⟩ := otherHead
      obtain ⟨rfl, content⟩ := same
      rw [List.forall_mem_cons] at accepted other
      cases accepted.1.eq_of_sameContent other.1 content
      rw [ih accepted.2 other.2]

end Susm.Config
