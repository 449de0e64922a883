import Susm.Domain.Restart
import Susm.Foundation.OrderedMap
import Susm.Protocol.Supervisor
import Mathlib.Data.String.Basic

/-!
# Workload definitions

What a configuration directory defines: for each workload the process, its
success codes and its restart, stop and logging policies.
-/

namespace Susm.Config

open Susm.Foundation
open Susm.Domain
open Susm.Protocol

instance linearOrderUInt32 : LinearOrder UInt32 where
  le_refl _ := UInt32.le_refl _
  le_trans _ _ _ := UInt32.le_trans
  le_antisymm _ _ := UInt32.le_antisymm
  le_total := UInt32.le_total
  lt_iff_le_not_ge first second := by
    rw [UInt32.le_iff_toNat_le, UInt32.le_iff_toNat_le,
      UInt32.lt_iff_toNat_lt]
    omega
  toDecidableLE := inferInstance

instance : LinearOrder WorkloadId :=
  LinearOrder.lift' WorkloadId.value fun first second h => by
    cases first
    cases second
    cases h
    rfl

/-- A name in upper case, without `=` and null characters. -/
structure EnvironmentName where
  value : String
  deriving DecidableEq, Repr

instance : LinearOrder EnvironmentName :=
  LinearOrder.lift' EnvironmentName.value fun first second h => by
    cases first
    cases second
    cases h
    rfl

structure EnvironmentOverlay where
  set : OrderedMap EnvironmentName String
  unset : OrderedSet EnvironmentName
  deriving DecidableEq

structure ProcessDefinition where
  executable : String
  arguments : List String
  workingDirectory : String
  environment : EnvironmentOverlay
  deriving DecidableEq

structure StopCommand where
  executable : String
  arguments : List String
  deriving DecidableEq, Repr

inductive StopDefinition where
  | ctrlBreak (timeout : Duration)
  | command (timeout : Duration) (command : StopCommand)
  | kill
  deriving DecidableEq, Repr

inductive RetentionLimit where
  | limited (size : UInt64)
  | unlimited
  deriving DecidableEq, Repr

inductive RetentionDuration where
  | limited (age : Duration)
  | unlimited
  deriving DecidableEq, Repr

inductive LoggingPolicy where
  | disabled
  | capture (segmentSize : UInt64) (segmentAge : Duration)
      (retentionSize : RetentionLimit) (retentionAge : RetentionDuration)
  deriving DecidableEq, Repr

structure WorkloadDefinition where
  id : WorkloadId
  kind : WorkloadKind
  process : ProcessDefinition
  processHash : List UInt8
  successExitCodes : OrderedSet UInt32
  restart : ExecutionRestartPolicy
  stop : StopDefinition
  logging : LoggingPolicy
  deriving DecidableEq

abbrev Definitions := OrderedMap WorkloadId WorkloadDefinition

end Susm.Config
