import Mathlib.Data.List.TakeWhile
import Mathlib.Order.Lattice

/-!
# The partition point of a list

Binary search for the first item at which a predicate fails, in a list in which
it holds of a prefix and of nothing behind it.
-/

namespace Susm.Foundation

universe u

variable {Item : Type u} {holds : Item → Bool} {items first second : List Item}

/-- The window of the search is halved until one item is left. -/
def halve (holdsAt : Nat → Bool) : Nat → Nat → Nat → Nat
  | 0, base, _ => base
  | fuel + 1, base, size =>
      if 1 < size then
        let half := size / 2
        let middle := base + half
        halve holdsAt fuel (if holdsAt middle then middle else base)
          (size - half)
      else base

def partitionPoint (holds : Item → Bool) (items : List Item) : Nat :=
  if items.length = 0 then 0
  else
    let holdsAt := fun index => items[index]?.any holds
    let base := halve holdsAt items.length 0 items.length
    base + if holdsAt base then 1 else 0

theorem halve_spec {holdsAt : Nat → Bool} {point length : Nat}
    (partitioned : ∀ index < length,
      holdsAt index = true ↔ index < point) (fuel : Nat) {base size : Nat}
    (hfuel : size ≤ fuel) (hsize : 0 < size)
    (hlower : base < point ∨ base = 0) (hupper : point ≤ base + size)
    (hlength : base + size ≤ length) :
    let last := halve holdsAt fuel base size
    (last < point ∨ last = 0) ∧ point ≤ last + 1 ∧ last < length := by
  induction fuel generalizing base size with
  | zero => omega
  | succ fuel ih =>
      dsimp only
      rw [halve]
      dsimp only
      split
      · rename_i hlong
        have hmiddle := partitioned (base + size / 2) (by omega)
        by_cases hholds : holdsAt (base + size / 2) = true
        · rw [if_pos hholds]
          have hless := hmiddle.mp hholds
          exact ih (by omega) (by omega) (.inl hless) (by omega) (by omega)
        · rw [if_neg hholds]
          have hless := mt hmiddle.mpr hholds
          exact ih (by omega) (by omega) hlower (by omega) (by omega)
      · omega

theorem partitionPoint_append (hfirst : ∀ item ∈ first, holds item = true)
    (hsecond : ∀ item ∈ second, holds item = false) :
    partitionPoint holds (first ++ second) = first.length := by
  unfold partitionPoint
  split
  · rename_i hempty
    rw [List.length_append] at hempty
    omega
  · rename_i hne
    have partitioned : ∀ index < (first ++ second).length,
        ((first ++ second)[index]?.any holds) = true ↔
          index < first.length := by
      intro index hindex
      rw [List.getElem?_append]
      split
      · rename_i hbefore
        rw [List.getElem?_eq_getElem hbefore]
        simpa [hbefore] using hfirst _ (List.getElem_mem hbefore)
      · rename_i hbehind
        rw [List.length_append] at hindex
        have hinside : index - first.length < second.length := by omega
        rw [List.getElem?_eq_getElem hinside]
        simpa [hbehind] using hsecond _ (List.getElem_mem hinside)
    have hspec := halve_spec partitioned (first ++ second).length
      (Nat.le_refl _) (Nat.pos_of_ne_zero hne) (.inr rfl)
      (by simp) (by simp)
    dsimp only at hspec ⊢
    generalize halve _ (first ++ second).length 0 (first ++ second).length =
      last at hspec
    obtain ⟨hlower, hupper, hlast⟩ := hspec
    have hpoint := partitioned last hlast
    split
    · rename_i hholds
      have := hpoint.mp hholds
      omega
    · rename_i hfails
      have := mt hpoint.mpr hfails
      omega

section Sorted

universe v

variable {Key : Type v} [LinearOrder Key] {key : Item → Key}

theorem filter_append_filter
    (sorted : items.Pairwise fun first second => key first ≤ key second)
    (bound : Key) :
    (items.filter fun item => key item ≤ bound) ++
        (items.filter fun item => bound < key item) = items := by
  induction items with
  | nil => rfl
  | cons item items ih =>
      obtain ⟨hitem, hitems⟩ := List.pairwise_cons.mp sorted
      by_cases h : key item ≤ bound
      · simpa [h, not_lt.mpr h] using ih hitems
      · have habove : ∀ other ∈ items, ¬ key other ≤ bound :=
          fun other hmem hle => h ((hitem other hmem).trans hle)
        have hnone : items.filter (fun other => key other ≤ bound) = [] := by
          simpa [List.filter_eq_nil_iff] using habove
        have hall : items.filter (fun other => bound < key other) = items := by
          simpa [List.filter_eq_self] using habove
        simp [h, not_le.mp h, hnone, hall]

theorem partitionPoint_eq
    (sorted : items.Pairwise fun first second => key first ≤ key second)
    (bound : Key) :
    partitionPoint (fun item => key item ≤ bound) items =
      (items.filter fun item => key item ≤ bound).length := by
  have happend : partitionPoint (fun item => key item ≤ bound)
      ((items.filter fun item => key item ≤ bound) ++
        items.filter fun item => bound < key item) =
        (items.filter fun item => key item ≤ bound).length := by
    apply partitionPoint_append
    · intro item hmem
      exact (List.mem_filter.mp hmem).2
    · intro item hmem
      simpa using (List.mem_filter.mp hmem).2
  rwa [filter_append_filter sorted bound] at happend

theorem partitionPoint_le
    (sorted : items.Pairwise fun first second => key first ≤ key second)
    (bound : Key) :
    partitionPoint (fun item => key item ≤ bound) items ≤ items.length := by
  rw [partitionPoint_eq sorted]
  exact List.length_filter_le _ _

theorem drop_partitionPoint
    (sorted : items.Pairwise fun first second => key first ≤ key second)
    (bound : Key) :
    items.drop (partitionPoint (fun item => key item ≤ bound) items) =
      items.filter fun item => bound < key item := by
  calc
    items.drop (partitionPoint (fun item => key item ≤ bound) items) =
        ((items.filter fun item => key item ≤ bound) ++
          items.filter fun item => bound < key item).drop
            (items.filter fun item => key item ≤ bound).length := by
      rw [filter_append_filter sorted bound, partitionPoint_eq sorted]
    _ = items.filter fun item => bound < key item := List.drop_left

end Sorted

end Susm.Foundation
