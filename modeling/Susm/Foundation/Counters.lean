import Mathlib.Algebra.Order.Group.Nat
import Mathlib.Algebra.Order.BigOperators.Group.List
import Mathlib.Data.Nat.ModEq

/-!
# Counters

Sums of a measure over a list of which one element changes at a time, and
machine counters that wrap around.
-/

namespace Susm.Foundation

universe u

variable {Item : Type u} {measure : Item → Nat} {items more : List Item}
  {item : Item}

def tally (measure : Item → Nat) (items : List Item) : Nat :=
  (items.map measure).sum

@[simp] theorem tally_nil : tally measure [] = 0 := rfl

@[simp] theorem tally_cons :
    tally measure (item :: items) = measure item + tally measure items := by
  simp [tally]

@[simp] theorem tally_append :
    tally measure (items ++ more) = tally measure items + tally measure more := by
  simp [tally]

theorem tally_set (measure : Item → Nat) {index : Nat}
    (found : items[index]? = some item) (other : Item) :
    tally measure (items.set index other) + measure item =
      tally measure items + measure other := by
  induction items generalizing index with
  | nil => cases found
  | cons first rest ih =>
      cases index with
      | zero =>
          cases found
          simp only [List.set_cons_zero, tally_cons]
          omega
      | succ index =>
          have hrest := @ih index (by simpa using found)
          simp only [List.set_cons_succ, tally_cons]
          omega

theorem le_tally (measure : Item → Nat) (mem : item ∈ items) :
    measure item ≤ tally measure items :=
  List.single_le_sum (by simp) _ (List.mem_map_of_mem mem)

theorem flatMap_set_perm {Part : Type u} (parts : Item → List Part)
    {index : Nat} (found : items[index]? = some item) (other : Item) :
    ((items.set index other).flatMap parts ++ parts item).Perm
      (items.flatMap parts ++ parts other) := by
  induction items generalizing index with
  | nil => cases found
  | cons first rest ih =>
      cases index with
      | zero =>
          cases found
          simp only [List.set_cons_zero, List.flatMap_cons, List.append_assoc]
          refine List.perm_append_comm.trans ?_
          refine (List.perm_append_comm.append_right _).trans ?_
          rw [List.append_assoc]
      | succ index =>
          have hrest := @ih index (by simpa using found)
          simp only [List.set_cons_succ, List.flatMap_cons, List.append_assoc]
          exact hrest.append_left _

/-! ## Counters that wrap around -/

/-- The sum of two values below the limit. -/
@[irreducible] def wrappingAdd (limit first second : Nat) : Nat :=
  if first + second < limit then first + second else first + second - limit

/-- The difference of two values below the limit. -/
@[irreducible] def wrappingSub (limit first second : Nat) : Nat :=
  if second ≤ first then first - second else first + limit - second

theorem wrappingSub_of_le {limit first second : Nat} (hle : second ≤ first) :
    wrappingSub limit first second = first - second := by
  unfold wrappingSub
  exact if_pos hle

theorem wrappingAdd_modEq (limit first second : Nat) :
    wrappingAdd limit first second ≡ first + second [MOD limit] := by
  unfold wrappingAdd
  split
  · rfl
  · rename_i hlarge
    have hsum : first + second - limit + limit = first + second :=
      Nat.sub_add_cancel (not_lt.mp hlarge)
    have hmod := Nat.add_modEq_right (n := limit) (a := first + second - limit)
    rw [hsum] at hmod
    exact hmod.symm

end Susm.Foundation
