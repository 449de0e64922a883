import Mathlib.Data.Nat.Digits.Defs
import Susm.Foundation.Decimal
import Susm.Foundation.LittleEndian
import Susm.Foundation.Utf8
import Susm.Protocol.Supervisor

/-!
# The entries of a log segment

A chunk that was read from a pipe becomes one entry: text lines for the scalar
fields, and the message behind its length.
-/

namespace Susm.Supervisor

open Susm.Foundation
open Susm.Protocol

inductive OutputStream where
  | stdout
  | stderr
  deriving DecidableEq, Repr

def OutputStream.name : OutputStream → String
  | .stdout => "stdout"
  | .stderr => "stderr"

/-- A chunk; its numbers are machine integers, and no vector is longer than
half of the address space. -/
@[ext] structure OutputChunk where
  stream : OutputStream
  sequence : Nat
  timestampUnixMs : Int
  bytes : List UInt8
  sequence_lt : sequence < 2 ^ 64
  timestamp_lower : -2 ^ 63 ≤ timestampUnixMs
  timestamp_upper : timestampUnixMs < 2 ^ 63
  length_lt : bytes.length < 2 ^ 63
  deriving Repr

instance : DecidableEq OutputChunk := fun _ _ =>
  decidable_of_iff _ OutputChunk.ext_iff.symm

def lineFeed : UInt8 := UInt8.ofNat '\n'.toNat

def equalsSign : UInt8 := UInt8.ofNat '='.toNat

def scalar (name : String) (value : List Char) : List UInt8 :=
  utf8 name.toList ++ equalsSign :: utf8 value ++ [lineFeed]

def messageField (bytes : List UInt8) : List UInt8 :=
  utf8 "MESSAGE".toList ++ lineFeed ::
    (leBytes 8 bytes.length ++ bytes ++ [lineFeed])

def encodeEntry (configuration : ExecutionConfiguration)
    (chunk : OutputChunk) : List UInt8 :=
  scalar "SUSM_FORMAT" "1".toList ++
  scalar "SUSM_RECORD" "output".toList ++
  scalar "SUSM_TIMESTAMP_UNIX_MS" (Decimal.writeInt chunk.timestampUnixMs) ++
  scalar "SUSM_WORKLOAD" configuration.workloadId.toList ++
  scalar "SUSM_EXECUTION" configuration.executionId.toList ++
  scalar "SUSM_ATTEMPT" (Decimal.write configuration.attempt) ++
  scalar "SUSM_SEQUENCE" (Decimal.write chunk.sequence) ++
  scalar "SUSM_STREAM" chunk.stream.name.toList ++
  messageField chunk.bytes ++ [lineFeed]

/-! ## The length of an entry -/

theorem length_scalar_le (name : String) (value : List Char) :
    (scalar name value).length ≤ 4 * (name.length + value.length) + 2 := by
  have hname := length_utf8_le name.toList
  have hvalue := length_utf8_le value
  rw [String.length_toList] at hname
  simp only [scalar, List.length_append, List.length_cons, List.length_nil]
  omega

theorem length_messageField (bytes : List UInt8) :
    (messageField bytes).length = bytes.length + 17 := by
  have hname : (utf8 "MESSAGE".toList).length = 7 := by decide
  simp only [messageField, List.length_append, List.length_cons,
    List.length_nil, length_leBytes, hname]
  omega

theorem OutputChunk.length_timestamp_le (chunk : OutputChunk) :
    (Decimal.writeInt chunk.timestampUnixMs).length ≤ 20 := by
  have hlower := chunk.timestamp_lower
  have hupper := chunk.timestamp_upper
  cases htime : chunk.timestampUnixMs with
  | ofNat value =>
      rw [htime, Int.ofNat_eq_natCast] at hupper
      exact Nat.toDigits_length 10 value 20 (by decide) (by omega)
  | negSucc value =>
      exact Nat.succ_le_succ
        (Nat.toDigits_length 10 (value + 1) 19 (by decide) (by omega))

/-- Less than a thousand bytes are neither of the configuration nor data. -/
theorem length_encodeEntry_le (configuration : ExecutionConfiguration)
    (chunk : OutputChunk) :
    (encodeEntry configuration chunk).length ≤
      4 * (configuration.workloadId.length + configuration.executionId.length +
        (Decimal.write configuration.attempt).length) +
        chunk.bytes.length + 1000 := by
  have format : (scalar "SUSM_FORMAT" "1".toList).length ≤ 50 :=
    length_scalar_le _ _
  have record : (scalar "SUSM_RECORD" "output".toList).length ≤ 70 :=
    length_scalar_le _ _
  have timestamp := length_scalar_le "SUSM_TIMESTAMP_UNIX_MS"
    (Decimal.writeInt chunk.timestampUnixMs)
  have workload := length_scalar_le "SUSM_WORKLOAD"
    configuration.workloadId.toList
  have execution := length_scalar_le "SUSM_EXECUTION"
    configuration.executionId.toList
  have attempt := length_scalar_le "SUSM_ATTEMPT"
    (Decimal.write configuration.attempt)
  have sequence := length_scalar_le "SUSM_SEQUENCE"
    (Decimal.write chunk.sequence)
  have stream : (scalar "SUSM_STREAM" chunk.stream.name.toList).length ≤ 70 := by
    cases chunk.stream <;> exact length_scalar_le _ _
  have digits : (Decimal.write chunk.sequence).length ≤ 20 :=
    Nat.toDigits_length 10 chunk.sequence 20 (by decide)
      (chunk.sequence_lt.trans (by decide))
  have time := chunk.length_timestamp_le
  have names : "SUSM_TIMESTAMP_UNIX_MS".length = 22 ∧
      "SUSM_WORKLOAD".length = 13 ∧ "SUSM_EXECUTION".length = 14 ∧
      "SUSM_ATTEMPT".length = 12 ∧ "SUSM_SEQUENCE".length = 13 := by decide
  rw [String.length_toList] at workload execution
  simp only [encodeEntry, List.length_append, length_messageField,
    List.length_singleton]
  omega

end Susm.Supervisor
