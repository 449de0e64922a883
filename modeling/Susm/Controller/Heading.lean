import Susm.Controller.Fleet
import Susm.Foundation.WriteBack

/-!
# Where policies are heading

A policy that is on its way to a supervisor process is a value that waits to be
written there: the process is going to have the last of them.
-/

namespace Susm.Controller

open Susm.Foundation
open Susm.Protocol
open Susm.Supervisor

/-! ## What a process is going to have -/

def policyDigest (host : Host) (update : PolicyUpdate) : List UInt8 :=
  host.sha256 (host.encodePolicy { update with policyHash := [] })

/-- The fields that a log writer takes. -/
structure LoggingFields where
  captureLogs : Bool
  segmentSize : Nat
  segmentAgeMs : Nat
  retentionSize : Nat
  retentionSizeUnlimited : Bool
  retentionAgeMs : Nat
  retentionAgeUnlimited : Bool
  deriving DecidableEq

def loggingFields (update : PolicyUpdate) : LoggingFields where
  captureLogs := update.captureLogs
  segmentSize := update.segmentSize
  segmentAgeMs := update.segmentAgeMs
  retentionSize := update.retentionSize
  retentionSizeUnlimited := update.retentionSizeUnlimited
  retentionAgeMs := update.retentionAgeMs
  retentionAgeUnlimited := update.retentionAgeUnlimited

namespace PolicyCopy

variable {Part : Type} {part : PolicyUpdate → Part} {copy : PolicyCopy}
  {update : PolicyUpdate} {items more : List ExecutionCommand}

/-- A part of the policy that the holder has or is the next to take. -/
def held (part : PolicyUpdate → Part) (copy : PolicyCopy) : Part :=
  part (copy.unseen.getD (policyFields copy.configuration))

def heading (part : PolicyUpdate → Part) (copy : PolicyCopy)
    (items : List ExecutionCommand) : Option Part :=
  upcoming (fun command => command.policy.map part) items
    (some (copy.held part))

theorem heading_nil : copy.heading part [] = some (copy.held part) := rfl

theorem heading_notify :
    (copy.notify update).heading part items =
      copy.heading part (.updatePolicy update :: items) := by
  unfold heading upcoming
  rw [latest_cons, Option.or_assoc]
  rfl

theorem heading_skip {command : ExecutionCommand}
    (silent : command.policy = none) :
    copy.heading part (command :: items) = copy.heading part items := by
  unfold heading upcoming
  rw [latest_cons, silent, Option.map_none, Option.or_none]

theorem heading_append (silent : ∀ command ∈ more, command.policy = none) :
    copy.heading part (items ++ more) = copy.heading part items :=
  upcoming_added fun command hcommand => by
    rw [silent command hcommand, Option.map_none]

theorem heading_congr {other : PolicyCopy}
    (same : other.held part = copy.held part) :
    other.heading part items = copy.heading part items := by
  unfold heading
  rw [same]

end PolicyCopy

namespace Enforcer

variable {host : Host} {enforcer next : Enforcer} {hash : List UInt8}
  {items more : List ExecutionCommand} {update : PolicyUpdate}

/-- Once the commands have arrived the runner has a policy of the hash, and the
log writer has the logging of the runner. -/
def Heads (host : Host) (enforcer : Enforcer) (items : List ExecutionCommand)
    (hash : List UInt8) : Prop :=
  enforcer.runner.heading (policyDigest host) items = some hash ∧
    ∀ writer ∈ enforcer.writer,
      writer.heading loggingFields items =
        enforcer.runner.heading loggingFields items

instance : Decidable (enforcer.Heads host items hash) :=
  inferInstanceAs (Decidable (_ ∧ _))

namespace Heads

theorem append (heads : enforcer.Heads host items hash)
    (silent : ∀ command ∈ more, command.policy = none) :
    enforcer.Heads host (items ++ more) hash := by
  refine ⟨(PolicyCopy.heading_append silent).trans heads.1,
    fun writer hwriter => ?_⟩
  rw [PolicyCopy.heading_append silent, PolicyCopy.heading_append silent]
  exact heads.2 writer hwriter

theorem congr (heads : enforcer.Heads host items hash)
    (runner : next.runner = enforcer.runner)
    (writer : next.writer = enforcer.writer) : next.Heads host items hash := by
  unfold Heads
  rw [runner, writer]
  exact heads

theorem receive (received : enforcer.receive = some next)
    (heads : enforcer.Heads host (enforcer.inbox ++ items) hash) :
    next.Heads host (next.inbox ++ items) hash := by
  unfold Enforcer.receive at received
  split at received
  · cases received
  · rename_i update rest hinbox
    cases received
    rw [hinbox] at heads
    refine ⟨PolicyCopy.heading_notify.trans heads.1, fun writer hwriter => ?_⟩
    obtain ⟨before, hbefore, rfl⟩ := Option.map_eq_some_iff.mp hwriter
    rw [PolicyCopy.heading_notify, PolicyCopy.heading_notify]
    exact heads.2 before hbefore
  all_goals
    rename_i rest hinbox
    cases received
    rw [hinbox] at heads
    refine ⟨(PolicyCopy.heading_skip rfl).symm.trans heads.1,
      fun writer hwriter => ?_⟩
    have hsame := heads.2 writer hwriter
    rw [List.cons_append, PolicyCopy.heading_skip rfl,
      PolicyCopy.heading_skip rfl] at hsame
    exact hsame

theorem apply (applied : enforcer.apply true = some (update, next))
    (heads : enforcer.Heads host items hash) : next.Heads host items hash := by
  obtain ⟨taken, hunseen, hnext⟩ := Option.map_eq_some_iff.mp applied
  cases hnext
  have held : ∀ {Part : Type} (part : PolicyUpdate → Part),
      part { update with policyHash := [] } = part update →
      PolicyCopy.held part
          ⟨applyPolicy enforcer.runner.configuration update, none⟩ =
        enforcer.runner.held part := by
    intro Part part hpart
    unfold PolicyCopy.held
    rw [hunseen]
    exact hpart
  constructor
  · exact (PolicyCopy.heading_congr (held _ rfl)).trans heads.1
  · intro writer hwriter
    exact (heads.2 writer hwriter).trans
      (PolicyCopy.heading_congr (held _ rfl)).symm

theorem startWriter (started : enforcer.startWriter = some next)
    (heads : enforcer.Heads host items hash) : next.Heads host items hash := by
  unfold Enforcer.startWriter at started
  split at started
  · cases started
  · cases started
    refine ⟨heads.1, fun writer hwriter => ?_⟩
    cases hwriter
    rfl

theorem applyLogging (applied : enforcer.applyLogging = some next)
    (heads : enforcer.Heads host items hash) : next.Heads host items hash := by
  obtain ⟨writer, hwriter, hchanged⟩ := Option.bind_eq_some_iff.mp applied
  obtain ⟨taken, hunseen, rfl⟩ := Option.map_eq_some_iff.mp hchanged
  refine ⟨heads.1, fun changed hchanged => ?_⟩
  cases hchanged
  refine (PolicyCopy.heading_congr ?_).trans (heads.2 writer hwriter)
  unfold PolicyCopy.held
  rw [hunseen]
  rfl

theorem endWriter (heads : enforcer.Heads host items hash) :
    enforcer.endWriter.Heads host items hash :=
  ⟨heads.1, fun _ hwriter => by cases hwriter⟩

end Heads

end Enforcer

end Susm.Controller
