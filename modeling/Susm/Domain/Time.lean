import Susm.Foundation.Duration
import Mathlib.Algebra.Order.Floor.Div
import Mathlib.GroupTheory.GroupAction.Ring
import Mathlib.Order.Bounds.Basic

/-!
# Boot-relative time

A `BootInstant` counts interrupt time in 100 ns ticks in a 64-bit integer.
Lifecycle deadlines are boot instants; each kind of deadline keeps its own
type.
-/

namespace Susm.Domain

open Susm.Foundation

/-- The exclusive bound of a 64-bit tick count. -/
def tickLimit : Nat := 2 ^ 64

structure NonZeroDuration where
  get : Duration
  pos : 0 < get.nanos
  deriving DecidableEq

def NonZeroDuration.new (value : Duration) : Option NonZeroDuration :=
  if h : 0 < value.nanos then some ⟨value, h⟩ else none

structure BootInstant where
  ticks : Nat
  lt : ticks < tickLimit
  deriving DecidableEq, Repr

namespace BootInstant

@[ext] theorem ext {first second : BootInstant}
    (h : first.ticks = second.ticks) : first = second := by
  cases first
  cases second
  cases h
  rfl

instance : LinearOrder BootInstant :=
  LinearOrder.lift' ticks fun _ _ => ext

theorem le_iff {first second : BootInstant} :
    first ≤ second ↔ first.ticks ≤ second.ticks := Iff.rfl

def nanos (instant : BootInstant) : Nat := instant.ticks * 100

@[irreducible] def ofTicks? (ticks : Nat) : Option BootInstant :=
  if h : ticks < tickLimit then some ⟨ticks, h⟩ else none

/-- `checked_add`: every intermediate 64-bit operation is checked. -/
def checkedAdd (instant : BootInstant) (duration : Duration) :
    Option BootInstant :=
  (checked tickLimit (duration.asSecs * 10_000_000)).bind fun wholeTicks =>
    let fractionalTicks := (duration.subsecNanos + 99) / 100
    (checked tickLimit (wholeTicks + fractionalTicks)).bind fun durationTicks =>
      ofTicks? (instant.ticks + durationTicks)

theorem ofTicks?_eq_some_iff {ticks : Nat} {instant : BootInstant} :
    ofTicks? ticks = some instant ↔ ticks = instant.ticks := by
  unfold ofTicks?
  constructor
  · intro h
    split at h
    · cases h
      rfl
    · contradiction
  · rintro rfl
    rw [dif_pos instant.lt]

def ticksOf (duration : Duration) : Nat := (duration.nanos + 99) / 100

theorem ticksOf_eq (duration : Duration) :
    ticksOf duration = duration.asSecs * 10_000_000 +
      (duration.subsecNanos + 99) / 100 := by
  unfold ticksOf Duration.asSecs Duration.subsecNanos
  omega

/-- `checked_add` is exact: it fails only when the sum does not fit. -/
theorem checkedAdd_eq (instant : BootInstant) (duration : Duration) :
    instant.checkedAdd duration =
      ofTicks? (instant.ticks + ticksOf duration) := by
  rw [ticksOf_eq]
  unfold checkedAdd
  dsimp only
  generalize duration.asSecs * 10_000_000 = whole
  generalize (duration.subsecNanos + 99) / 100 = fractional
  by_cases hwhole : whole < tickLimit
  · rw [checked_of_lt hwhole, Option.bind_some]
    by_cases htotal : whole + fractional < tickLimit
    · rw [checked_of_lt htotal, Option.bind_some]
    · rw [checked_eq_none_iff.mpr (by omega), Option.bind_none, ofTicks?,
        dif_neg (by omega)]
  · rw [checked_eq_none_iff.mpr (by omega), Option.bind_none, ofTicks?,
      dif_neg (by omega)]

theorem checkedAdd_eq_some_iff {instant deadline : BootInstant}
    {duration : Duration} :
    instant.checkedAdd duration = some deadline ↔
      instant.ticks + ticksOf duration = deadline.ticks := by
  rw [checkedAdd_eq, ofTicks?_eq_some_iff]

theorem checkedAdd_eq_none_iff {instant : BootInstant} {duration : Duration} :
    instant.checkedAdd duration = none ↔
      tickLimit ≤ instant.ticks + ticksOf duration := by
  rw [checkedAdd_eq]
  simp [ofTicks?]

/-! ## The earliest deadline -/

section Deadline

variable {instant later deadline : BootInstant} {duration longer : Duration}

def notBefore (instant : BootInstant) (duration : Duration) :
    Set BootInstant :=
  {deadline | instant.nanos + duration.nanos ≤ deadline.nanos}

theorem ticksOf_le_iff {ticks : Nat} :
    ticksOf duration ≤ ticks ↔ duration.nanos ≤ ticks * 100 := by
  unfold ticksOf
  omega

theorem mem_notBefore_iff :
    deadline ∈ instant.notBefore duration ↔
      instant.ticks + ticksOf duration ≤ deadline.ticks := by
  have hticks := @ticksOf_le_iff duration (deadline.ticks - instant.ticks)
  simp only [notBefore, Set.mem_ofPred_eq, nanos]
  omega

theorem notBefore_subset (hinstant : instant ≤ later)
    (hduration : duration ≤ longer) :
    later.notBefore longer ⊆ instant.notBefore duration := by
  intro deadline hmem
  rw [le_iff] at hinstant
  rw [Duration.le_iff] at hduration
  simp only [notBefore, Set.mem_ofPred_eq, nanos] at hmem ⊢
  omega

theorem checkedAdd_isLeast_iff :
    instant.checkedAdd duration = some deadline ↔
      IsLeast (instant.notBefore duration) deadline := by
  rw [checkedAdd_eq_some_iff]
  constructor
  · intro hsum
    refine ⟨mem_notBefore_iff.mpr hsum.le, fun other hother => ?_⟩
    rw [mem_notBefore_iff, hsum] at hother
    exact hother
  · rintro ⟨hmem, hleast⟩
    rw [mem_notBefore_iff] at hmem
    -- the exact sum is below the deadline, so it is an instant itself
    have hfits := hmem.trans_lt deadline.lt
    have hexact := hleast (mem_notBefore_iff.mpr
      (le_refl (BootInstant.mk _ hfits).ticks))
    exact le_antisymm hmem hexact

theorem checkedAdd_mono (hinstant : instant ≤ later)
    (hduration : duration ≤ longer)
    (added : later.checkedAdd longer = some deadline) :
    ∃ earlier, instant.checkedAdd duration = some earlier ∧
      earlier ≤ deadline := by
  have hsubset := notBefore_subset hinstant hduration
  have hlater := checkedAdd_isLeast_iff.mp added
  cases hadd : instant.checkedAdd duration with
  | none =>
      have hlimit := checkedAdd_eq_none_iff.mp hadd
      have hmem := mem_notBefore_iff.mp (hsubset hlater.1)
      exact absurd deadline.lt (hlimit.trans hmem).not_gt
  | some earlier =>
      have hearlier := checkedAdd_isLeast_iff.mp hadd
      exact ⟨earlier, rfl, hearlier.2 (hsubset hlater.1)⟩

end Deadline

/--
A deadline is the instant with the duration in whole ticks, rounded up, for as
long as the sum fits in 64 bits.  It is the earliest instant at which the
duration has passed, and a longer wait or a later start never gives an earlier
one.
-/
theorem deadlines_exact :
    (∀ (instant deadline : BootInstant) (duration : Duration),
      instant.checkedAdd duration = some deadline ↔
        instant.ticks + duration.nanos ⌈/⌉ 100 = deadline.ticks) ∧
    (∀ (instant : BootInstant) (duration : Duration),
      instant.checkedAdd duration = none ↔
        2 ^ 64 ≤ instant.ticks + duration.nanos ⌈/⌉ 100) ∧
    (∀ (instant deadline : BootInstant) (duration : Duration),
      instant.checkedAdd duration = some deadline →
        IsLeast {other : BootInstant |
          instant.nanos + duration.nanos ≤ other.nanos} deadline) ∧
    ∀ (instant later deadline : BootInstant) (duration longer : Duration),
      instant ≤ later → duration ≤ longer →
        later.checkedAdd longer = some deadline →
        ∃ earlier, instant.checkedAdd duration = some earlier ∧
          earlier ≤ deadline := by
  refine ⟨fun _ _ _ => checkedAdd_eq_some_iff,
    fun _ _ => checkedAdd_eq_none_iff,
    fun _ _ _ => checkedAdd_isLeast_iff.mp, ?_⟩
  intro instant later deadline duration longer hinstant hduration added
  exact checkedAdd_mono hinstant hduration added

/-- A remainder of a second that is rounded up to the whole second. -/
theorem deadlines_exact_second :
    ∃ earlier,
      checkedAdd ⟨5, by decide⟩ ⟨999_999_999, by decide⟩ = some earlier ∧
        earlier ≤ ⟨10_000_007, by decide⟩ :=
  deadlines_exact.2.2.2 ⟨5, by decide⟩ ⟨7, by decide⟩ ⟨10_000_007, by decide⟩
    ⟨999_999_999, by decide⟩ Duration.second (by decide) (by decide)
    (checkedAdd_eq_some_iff.mpr (by decide))

end BootInstant

inductive DeadlineKind where
  | retry
  | discovery
  | handshake
  | stop
  deriving DecidableEq, Repr

structure Deadline (kind : DeadlineKind) where
  instant : BootInstant
  deriving DecidableEq, Repr

abbrev RetryDeadline := Deadline .retry
abbrev DiscoveryDeadline := Deadline .discovery
abbrev HandshakeDeadline := Deadline .handshake
abbrev StopDeadline := Deadline .stop

end Susm.Domain
