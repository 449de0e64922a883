import Mathlib.Data.List.Basic

/-!
# Values that wait to be written

A cell in memory is behind a stored value while items that write it wait.  Once
everything that waits has been written in order, the cell holds what the last
item writes.  Items may be taken in any order as long as no item is taken that
leaves another value to be written last.
-/

namespace Susm.Foundation

universe u v

variable {Item : Type u} {Value : Type v} {write : Item → Option Value}
  {items first second before after : List Item} {item : Item} {value : Value}
  {memory : Option Value} {index : Nat}

def latest (write : Item → Option Value) (items : List Item) : Option Value :=
  items.reverse.findSome? write

@[simp] theorem latest_nil : latest write [] = none := rfl

@[simp] theorem latest_append :
    latest write (first ++ second) =
      (latest write second).or (latest write first) := by
  simp [latest, List.findSome?_append]

@[simp] theorem latest_cons :
    latest write (item :: items) =
      (latest write items).or (write item) := by
  rw [← List.singleton_append, latest_append]
  cases h : write item <;> simp [latest, h]

theorem exists_of_latest (h : latest write items = some value) :
    ∃ item ∈ items, write item = some value := by
  obtain ⟨item, hitem, hvalue⟩ := List.exists_of_findSome?_eq_some h
  exact ⟨item, List.mem_reverse.mp hitem, hvalue⟩

theorem latest_isSome_iff :
    (latest write items).isSome ↔ ∃ item ∈ items, (write item).isSome := by
  simp [latest]

theorem latest_eq_none (silent : ∀ item ∈ items, write item = none) :
    latest write items = none := by
  rw [← Option.not_isSome_iff_eq_none, latest_isSome_iff]
  rintro ⟨item, hitem, hsome⟩
  rw [silent item hitem] at hsome
  cases hsome

/-- The cell once everything that waits has been written in order. -/
def upcoming (write : Item → Option Value) (items : List Item)
    (memory : Option Value) : Option Value :=
  (latest write items).or memory

/-- If anything is left to be written, the same value is written last. -/
def KeepsLatest (write : Item → Option Value) (items others : List Item) :
    Prop :=
  (latest write others).isSome → latest write others = latest write items

instance [DecidableEq Value] (write : Item → Option Value)
    (items others : List Item) : Decidable (KeepsLatest write items others) :=
  inferInstanceAs (Decidable (_ → _))

theorem exists_split (found : items[index]? = some item) :
    ∃ before after, items = before ++ item :: after ∧
      items.eraseIdx index = before ++ after := by
  obtain ⟨hindex, rfl⟩ := List.getElem?_eq_some_iff.mp found
  refine ⟨items.take index, items.drop (index + 1), ?_,
    List.eraseIdx_eq_take_drop_succ _ _⟩
  rw [List.getElem_cons_drop, List.take_append_drop]

theorem keepsLatest_of_silent (found : items[index]? = some item)
    (silent : write item = none) :
    KeepsLatest write items (items.eraseIdx index) := by
  obtain ⟨before, after, rfl, herased⟩ := exists_split found
  intro _
  simp [herased, silent]

theorem upcoming_taken (found : items[index]? = some item)
    (keeps : KeepsLatest write items (items.eraseIdx index)) :
    upcoming write (items.eraseIdx index) ((write item).or memory) =
      upcoming write items memory := by
  obtain ⟨before, after, rfl, herased⟩ := exists_split found
  unfold upcoming
  unfold KeepsLatest at keeps
  rw [herased] at keeps ⊢
  cases hlatest : latest write (before ++ after) with
  | some last =>
      rw [hlatest] at keeps
      rw [← keeps rfl, Option.some_or, Option.some_or]
  | none =>
      rw [latest_append, Option.or_eq_none_iff] at hlatest
      simp [hlatest.1, hlatest.2]

theorem upcoming_superseded
    (keeps : KeepsLatest write items (items.eraseIdx index))
    (written : (latest write (items.eraseIdx index)).isSome) :
    upcoming write (items.eraseIdx index) memory =
      upcoming write items memory := by
  unfold upcoming
  rw [keeps written]

theorem upcoming_added (silent : ∀ item ∈ second, write item = none) :
    upcoming write (first ++ second) memory = upcoming write first memory := by
  simp [upcoming, latest_eq_none silent]

theorem upcoming_stored (writes : write item = some value) :
    upcoming write (items ++ [item]) memory = some value := by
  simp [upcoming, writes]

end Susm.Foundation
