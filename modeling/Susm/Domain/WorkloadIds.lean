import Susm.Domain.Ids
import Susm.Foundation.Utf8

/-!
# Workload identifiers

A workload identifier is a short ASCII text; which ones are accepted.
-/

namespace Susm.Domain

open Susm.Foundation

/-- `MAX_WORKLOAD_ID_BYTES` -/
def maxWorkloadIdBytes : Nat := 128

inductive InvalidWorkloadId where
  | empty
  | tooLong
  | invalidBoundary
  | invalidCharacter (index : Nat)
  deriving DecidableEq, Repr

def InvalidWorkloadId.message : InvalidWorkloadId → String
  | .empty => "workload ID is empty"
  | .tooLong => s!"workload ID exceeds {maxWorkloadIdBytes} ASCII bytes"
  | .invalidBoundary => "workload ID must start and end with [a-z0-9]"
  | .invalidCharacter index =>
      s!"workload ID contains an invalid character at byte {index}"

/-- `is_ascii_lowercase` or `is_ascii_digit` -/
def isLowercaseOrDigit (byte : UInt8) : Bool :=
  (97 ≤ byte && byte ≤ 122) || (48 ≤ byte && byte ≤ 57)

/-- The bytes `-`, `_` and `.` may stand inside. -/
def isWorkloadIdByte (byte : UInt8) : Bool :=
  isLowercaseOrDigit byte || byte == 45 || byte == 95 || byte == 46

def WorkloadId.parse (value : String) : Except InvalidWorkloadId WorkloadId :=
  let bytes := utf8 value.toList
  match bytes.head?, bytes.getLast? with
  | some first, some last =>
      if bytes.length > maxWorkloadIdBytes then .error .tooLong
      else if !isLowercaseOrDigit first then .error .invalidBoundary
      else if !isLowercaseOrDigit last then .error .invalidBoundary
      else
        match bytes.findIdx? fun byte => !isWorkloadIdByte byte with
        | some index => .error (.invalidCharacter index)
        | none => .ok ⟨value⟩
  | _, _ => .error .empty

theorem WorkloadId.ne_empty_of_parse {value : String} {id : WorkloadId}
    (h : WorkloadId.parse value = .ok id) : value ≠ "" := by
  rintro rfl
  cases h

end Susm.Domain
