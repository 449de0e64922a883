import Susm.Foundation.Integers
import Mathlib.Order.Lattice

/-!
# Durations

Spans of time counted in whole nanoseconds whose whole seconds fit in 64 bits.
-/

namespace Susm.Foundation

/-- The exclusive bound on the nanoseconds of a duration. -/
abbrev durationLimit : Nat := 2 ^ 64 * 10 ^ 9

/-- Whole seconds below `2 ^ 64` together with nanoseconds below one second. -/
structure Duration where
  nanos : Nat
  lt : nanos < durationLimit
  deriving DecidableEq, Repr

namespace Duration

@[ext] theorem ext {first second : Duration}
    (h : first.nanos = second.nanos) : first = second := by
  cases first
  cases second
  cases h
  rfl

instance : LinearOrder Duration :=
  LinearOrder.lift' nanos fun _ _ => ext

theorem le_iff {first second : Duration} :
    first ≤ second ↔ first.nanos ≤ second.nanos := Iff.rfl

theorem lt_iff {first second : Duration} :
    first < second ↔ first.nanos < second.nanos := Iff.rfl

def asSecs (duration : Duration) : Nat := duration.nanos / 10 ^ 9

def subsecNanos (duration : Duration) : Nat := duration.nanos % 10 ^ 9

def asMillis (duration : Duration) : Nat := duration.nanos / 10 ^ 6

def zero : Duration := ⟨0, by decide⟩

def second : Duration := ⟨1_000_000_000, by decide⟩

@[irreducible] def ofNanos? (nanos : Nat) : Option Duration :=
  if h : nanos < durationLimit then some ⟨nanos, h⟩ else none

/-- Whole milliseconds counted by a 64-bit integer. -/
def fromMillis (millis : Nat) (h : millis < 2 ^ 64) : Duration :=
  ⟨millis * 10 ^ 6, by
    have hmillis : millis * 10 ^ 6 < 2 ^ 64 * 10 ^ 6 :=
      Nat.mul_lt_mul_of_pos_right h (by decide)
    exact hmillis.trans_le (Nat.mul_le_mul_left _ (by decide))⟩

/-- Whole seconds counted by a 64-bit integer. -/
def fromSecs (secs : Nat) (h : secs < 2 ^ 64) : Duration :=
  ⟨secs * 10 ^ 9, Nat.mul_lt_mul_of_pos_right h (by decide)⟩

def checkedMul (duration : Duration) (factor : Nat) : Option Duration :=
  ofNanos? (duration.nanos * factor)

theorem ofNanos?_eq_some_iff {nanos : Nat} {duration : Duration} :
    ofNanos? nanos = some duration ↔ nanos = duration.nanos := by
  unfold ofNanos?
  constructor
  · intro h
    split at h
    · cases h
      rfl
    · contradiction
  · rintro rfl
    rw [dif_pos duration.lt]

theorem checkedMul_eq_some_iff {duration product : Duration} {factor : Nat} :
    duration.checkedMul factor = some product ↔
      duration.nanos * factor = product.nanos :=
  ofNanos?_eq_some_iff

theorem checkedMul_eq_none_iff {duration : Duration} {factor : Nat} :
    duration.checkedMul factor = none ↔
      durationLimit ≤ duration.nanos * factor := by
  unfold checkedMul ofNanos?
  split <;> simp_all

@[simp] theorem nanos_fromMillis (millis : Nat) (h : millis < 2 ^ 64) :
    (fromMillis millis h).nanos = millis * 10 ^ 6 := rfl

@[simp] theorem asMillis_fromMillis (millis : Nat) (h : millis < 2 ^ 64) :
    (fromMillis millis h).asMillis = millis := by
  simp [asMillis]

end Duration

end Susm.Foundation
