import Mathlib.Algebra.Order.Ring.Nat

/-!
# Capped growth

A value that is multiplied by a factor again and again and stops at a maximum:
whether it is capped after every step or once at the end is the same.
-/

namespace Susm.Foundation

def capped (first factor maximum steps : Nat) : Nat :=
  min (first * factor ^ steps) maximum

variable {first factor maximum steps : Nat}

theorem capped_le : capped first factor maximum steps ≤ maximum :=
  min_le_right _ _

theorem capped_zero (below : first ≤ maximum) :
    capped first factor maximum 0 = first := by
  simpa [capped] using below

theorem capped_one (below : first ≤ maximum) :
    capped first 1 maximum steps = first := by
  simpa [capped] using below

theorem capped_of_le (positive : 0 < factor)
    (reached : maximum ≤ first) :
    capped first factor maximum steps = maximum := by
  refine min_eq_right (reached.trans ?_)
  exact Nat.le_mul_of_pos_right first (Nat.pow_pos positive)

theorem capped_succ (positive : 0 < factor) :
    capped first factor maximum (steps + 1) =
      capped (min (first * factor) maximum) factor maximum steps := by
  have step : first * factor ^ (steps + 1) =
      first * factor * factor ^ steps := by
    rw [Nat.pow_succ', Nat.mul_assoc]
  rcases le_total (first * factor) maximum with below | reached
  · rw [min_eq_left below, capped, capped, step]
  · rw [min_eq_right reached, capped_of_le positive (le_refl maximum), capped,
      step]
    exact capped_of_le positive reached

theorem capped_mono (positive : 0 < factor) {later : Nat}
    (earlier : steps ≤ later) :
    capped first factor maximum steps ≤ capped first factor maximum later :=
  min_le_min_right maximum
    (Nat.mul_le_mul_left first (Nat.pow_le_pow_right positive earlier))

theorem capped_scale (unit : Nat) :
    capped (first * unit) factor (maximum * unit) steps =
      capped first factor maximum steps * unit := by
  unfold capped
  rw [Nat.mul_right_comm, Nat.mul_min_mul_right]

theorem capped_succ_last (positive : 0 < factor) :
    capped first factor maximum (steps + 1) =
      min (capped first factor maximum steps * factor) maximum := by
  have step : first * factor ^ (steps + 1) =
      first * factor ^ steps * factor := by
    rw [Nat.pow_succ, Nat.mul_assoc]
  unfold capped
  rw [step]
  rcases le_total (first * factor ^ steps) maximum with below | reached
  · rw [min_eq_left below]
  · have grows := Nat.le_mul_of_pos_right (first * factor ^ steps) positive
    rw [min_eq_right reached, min_eq_right (reached.trans grows),
      min_eq_right (Nat.le_mul_of_pos_right maximum positive)]

/-- What the first values come to together. -/
def cappedSum (first factor maximum : Nat) : Nat → Nat
  | 0 => 0
  | steps + 1 =>
      cappedSum first factor maximum steps +
        capped first factor maximum steps

theorem cappedSum_add_le (more : Nat) :
    cappedSum first factor maximum (steps + more) ≤
      cappedSum first factor maximum steps + more * maximum := by
  induction more with
  | zero => simp
  | succ more ih =>
      have value := @capped_le first factor maximum (steps + more)
      rw [← Nat.add_assoc, cappedSum, Nat.add_mul, Nat.one_mul]
      omega

theorem cappedSum_add (positive : 0 < factor)
    (reached : capped first factor maximum steps = maximum) (more : Nat) :
    cappedSum first factor maximum (steps + more) =
      cappedSum first factor maximum steps + more * maximum := by
  induction more with
  | zero => simp
  | succ more ih =>
      have value : capped first factor maximum (steps + more) = maximum := by
        refine le_antisymm capped_le ?_
        calc
          maximum = capped first factor maximum steps := reached.symm
          _ ≤ _ := capped_mono positive (Nat.le_add_right _ _)
      rw [← Nat.add_assoc, cappedSum, ih, value, Nat.add_mul, Nat.one_mul,
        Nat.add_assoc]

theorem cappedSum_behind (positive : 0 < factor) {full : Nat}
    (reached : capped first factor maximum full = maximum) (steps : Nat) :
    steps * maximum + cappedSum first factor maximum full ≤
      full * maximum + cappedSum first factor maximum steps := by
  rcases le_total steps full with early | late
  · obtain ⟨more, rfl⟩ := Nat.exists_eq_add_of_le early
    have behind := @cappedSum_add_le first factor maximum steps more
    rw [Nat.add_mul]
    omega
  · obtain ⟨more, rfl⟩ := Nat.exists_eq_add_of_le late
    rw [cappedSum_add positive reached, Nat.add_mul]
    omega

end Susm.Foundation
