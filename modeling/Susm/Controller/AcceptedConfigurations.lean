import Susm.Controller.DefinitionSnapshot
import Susm.Controller.State

/-!
# Accepted configurations

The controller compares configurations by the hash of their canonical encoding
and processes by the hash of theirs.  As long as SHA-256 maps no two of the
encodings that it is given to one value, these comparisons are exact.
-/

namespace Susm.Controller

open Susm.Foundation
open Susm.Domain
open Susm.Protocol
open Susm.Config

/-- Two different streams of bytes with one hash. -/
def Collide (sha256 : List UInt8 → List UInt8) (first second : Feed UInt8) :
    Prop :=
  ∃ left right, first = some left ∧ second = some right ∧ left ≠ right ∧
    sha256 left = sha256 right

theorem eq_of_hash_eq {sha256 : List UInt8 → List UInt8}
    {first second : Feed UInt8} {hash : List UInt8}
    (hfirst : Option.map sha256 first = some hash)
    (hsecond : Option.map sha256 second = some hash)
    (distinct : ¬ Collide sha256 first second) :
    ∃ bytes, first = some bytes ∧ second = some bytes := by
  obtain ⟨left, rfl, hleft⟩ := Option.map_eq_some_iff.mp hfirst
  obtain ⟨right, rfl, hright⟩ := Option.map_eq_some_iff.mp hsecond
  by_cases same : left = right
  · exact ⟨left, rfl, congrArg some same.symm⟩
  · exact absurd ⟨left, right, rfl, rfl, same, hleft.trans hright.symm⟩ distinct

/--
The canonical encoding merges no two accepted configurations and no two
processes; an accepted configuration is reported as unchanged only when it is
the one before, and no restart is required only for the same process.
-/
structure EncodesExactly (libraries : Libraries) (host : Host) : Prop where
  configuration : ∀ (first second : Definitions) (bytes : List UInt8),
    AllAccepted libraries first → AllAccepted libraries second →
    configFeed first = some bytes → configFeed second = some bytes →
    first = second
  process : ∀ (first second : ProcessDefinition) (bytes : List UInt8),
    processFeed first = some bytes → processFeed second = some bytes →
    first = second
  unchanged : ∀ (current candidate : Definitions) (database : Database)
      (generation : List UInt8) (rows : List (String × StoredWorkload)),
    AllAccepted libraries current → AllAccepted libraries candidate →
    configGeneration libraries.sha256 current = database.configGeneration →
    configGeneration libraries.sha256 candidate = some generation →
    ¬ Collide libraries.sha256 (configFeed current) (configFeed candidate) →
    (database.replaceDefinitions generation rows).1 = false →
    current = candidate
  restart : ∀ (started definition : WorkloadDefinition)
      (id : WorkloadId) (active : ActiveExecution),
    Accepted libraries id started → Accepted libraries id definition →
    active.processDefinitionHash =
      (definitionSnapshot host started).processDefinitionHash →
    ¬ Collide libraries.sha256 (processFeed started.process)
      (processFeed definition.process) →
    (State.reconcileActive host (some (definitionSnapshot host definition))
      active).restartRequired = false →
    started.process = definition.process

theorem encodesExactly (libraries : Libraries) (host : Host) :
    EncodesExactly libraries host := by
  constructor
  case configuration =>
    intro first second bytes accepted other hfirst hsecond
    exact eq_of_configFeed accepted other hfirst hsecond
  case process =>
    intro first second bytes hfirst hsecond
    exact eq_of_processFeed hfirst hsecond
  case unchanged =>
    intro current candidate database generation rows accepted other hcurrent
      hcandidate distinct unchanged
    have stored : database.configGeneration = some generation := by
      by_contra differs
      simp [Database.replaceDefinitions, differs] at unchanged
    rw [stored] at hcurrent
    obtain ⟨bytes, hfirst, hsecond⟩ :=
      eq_of_hash_eq hcurrent hcandidate distinct
    exact eq_of_configFeed accepted other hfirst hsecond
  case restart =>
    intro started definition id active accepted other hactive distinct clear
    have same : active.processDefinitionHash = definition.processHash := by
      simpa [State.reconcileActive,
        definitionSnapshot_processDefinitionHash] using clear
    rw [definitionSnapshot_processDefinitionHash] at hactive
    have hstarted := accepted.hash
    rw [← hactive, same] at hstarted
    obtain ⟨bytes, hfirst, hsecond⟩ :=
      eq_of_hash_eq hstarted other.hash distinct
    exact eq_of_processFeed hfirst hsecond

end Susm.Controller
