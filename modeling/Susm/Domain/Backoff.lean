import Susm.Domain.Restart
import Susm.Foundation.CappedGrowth

/-!
# The delays of a backoff policy

The loop with its early exits computes the capped growth exactly: an overflow
of the multiplication only happens above the maximum.
-/

namespace Susm.Domain.BackoffPolicy

open Susm.Foundation

theorem nanos_grow {multiplier : Nat} (positive : 0 < multiplier)
    {maximum delay : Duration} (below : delay.nanos ≤ maximum.nanos)
    (rounds : Nat) :
    (grow multiplier maximum rounds delay).nanos =
      capped delay.nanos multiplier maximum.nanos rounds := by
  induction rounds generalizing delay with
  | zero => exact (capped_zero below).symm
  | succ rounds ih =>
      rw [grow, capped_succ positive]
      cases product : delay.checkedMul multiplier with
      | some next =>
          rw [Duration.checkedMul_eq_some_iff.mp product]
          dsimp only
          split
          · rename_i less
            have within := (Duration.lt_iff.mp less).le
            rw [min_eq_left within, ih within]
          · rename_i reached
            have above := not_lt.mp (mt Duration.lt_iff.mpr reached)
            rw [min_eq_right above, capped_of_le positive (le_refl _)]
      | none =>
          have overflow := Duration.checkedMul_eq_none_iff.mp product
          have above := maximum.lt.le.trans overflow
          rw [min_eq_right above, capped_of_le positive (le_refl _)]

theorem nanos_delayFor (policy : BackoffPolicy) (retry : RetryOrdinal) :
    (policy.delayFor retry).nanos =
      capped policy.initial.get.nanos policy.multiplier.get
        policy.maximum.get.nanos (retry.get - 1) := by
  have below := Duration.le_iff.mp policy.initial_le_maximum
  have positive := policy.multiplier.pos
  unfold delayFor
  dsimp only
  split
  · rename_i constant
    rcases constant with one | equal
    · rw [one, capped_one below]
    · rw [equal, capped_of_le positive (le_refl _)]
  · exact nanos_grow positive below _

theorem initial_le_delayFor (policy : BackoffPolicy) (retry : RetryOrdinal) :
    policy.initial.get ≤ policy.delayFor retry := by
  rw [Duration.le_iff, nanos_delayFor]
  exact le_min
    (Nat.le_mul_of_pos_right _ (Nat.pow_pos policy.multiplier.pos))
    (Duration.le_iff.mp policy.initial_le_maximum)

theorem delayFor_le_maximum (policy : BackoffPolicy) (retry : RetryOrdinal) :
    policy.delayFor retry ≤ policy.maximum.get := by
  rw [Duration.le_iff, nanos_delayFor]
  exact capped_le

theorem delayFor_mono (policy : BackoffPolicy) {first second : RetryOrdinal}
    (earlier : first.get ≤ second.get) :
    policy.delayFor first ≤ policy.delayFor second := by
  rw [Duration.le_iff, nanos_delayFor, nanos_delayFor]
  exact capped_mono policy.multiplier.pos (Nat.sub_le_sub_right earlier 1)

end Susm.Domain.BackoffPolicy
