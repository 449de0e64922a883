import Mathlib.Data.List.Forall2

/-!
# One call for each item

A loop that makes one call for each of its items: the results stand in the order
of the items, and each came about at the moment of its call.
-/

namespace Susm.Foundation

universe u v

variable {Item : Type u} {Result : Type v}
  {Gives Other : Nat → Item → Result → Prop}

inductive Successive (Gives : Nat → Item → Result → Prop) :
    Nat → List Item → List Result → Prop where
  | nil {moment : Nat} : Successive Gives moment [] []
  | cons {moment : Nat} {item : Item} {result : Result} {items : List Item}
      {results : List Result} (gives : Gives moment item result)
      (rest : Successive Gives (moment + 1) items results) :
      Successive Gives moment (item :: items) (result :: results)

namespace Successive

variable {moment : Nat} {item : Item} {result : Result} {items : List Item}
  {results : List Result}

@[simp] theorem nil_left_iff :
    Successive Gives moment [] results ↔ results = [] := by
  constructor
  · rintro ⟨⟩
    rfl
  · rintro rfl
    exact .nil

@[simp] theorem cons_left_iff :
    Successive Gives moment (item :: items) results ↔
      ∃ result rest, results = result :: rest ∧ Gives moment item result ∧
        Successive Gives (moment + 1) items rest := by
  constructor
  · rintro (_ | ⟨gives, rest⟩)
    exact ⟨_, _, rfl, gives, rest⟩
  · rintro ⟨result, rest, rfl, gives, later⟩
    exact .cons gives later

theorem length_eq (calls : Successive Gives moment items results) :
    items.length = results.length := by
  induction calls with
  | nil => rfl
  | cons _ _ ih => rw [List.length_cons, List.length_cons, ih]

theorem of_mem_right (calls : Successive Gives moment items results)
    (hmem : result ∈ results) :
    ∃ item ∈ items, ∃ later, moment ≤ later ∧
      later < moment + items.length ∧ Gives later item result := by
  induction calls with
  | nil => cases hmem
  | @cons moment _ _ _ _ gives _ ih =>
      rw [List.length_cons]
      rcases List.mem_cons.mp hmem with rfl | hmem
      · exact ⟨_, List.mem_cons_self, moment, Nat.le_refl _, by omega, gives⟩
      · obtain ⟨item, hitem, later, early, late, gives⟩ := ih hmem
        exact ⟨item, List.mem_cons_of_mem _ hitem, later, by omega, by omega,
          gives⟩

theorem of_mem_left (calls : Successive Gives moment items results)
    (hmem : item ∈ items) :
    ∃ result ∈ results, ∃ later, moment ≤ later ∧
      later < moment + items.length ∧ Gives later item result := by
  induction calls with
  | nil => cases hmem
  | @cons moment _ _ _ _ gives _ ih =>
      rw [List.length_cons]
      rcases List.mem_cons.mp hmem with rfl | hmem
      · exact ⟨_, List.mem_cons_self, moment, Nat.le_refl _, by omega, gives⟩
      · obtain ⟨result, hresult, later, early, late, gives⟩ := ih hmem
        exact ⟨result, List.mem_cons_of_mem _ hresult, later, by omega,
          by omega, gives⟩

theorem const_iff {Gives : Item → Result → Prop} :
    Successive (fun _ => Gives) moment items results ↔
      List.Forall₂ Gives items results := by
  constructor
  · intro calls
    induction calls with
    | nil => exact .nil
    | cons gives _ ih => exact .cons gives ih
  · intro related
    induction related generalizing moment with
    | nil => exact .nil
    | cons gives _ ih => exact .cons gives ih

end Successive

/-! ## Keys that are seen once -/

theorem fresh_cons {Key : Type v} {key : Item → Key} {item : Item}
    {items : List Item} {seen : List Key} :
    ((item :: items).map key).Nodup ∧
        (∀ other ∈ item :: items, key other ∉ seen) ↔
      key item ∉ seen ∧ (items.map key).Nodup ∧
        ∀ other ∈ items, key other ∉ key item :: seen := by
  rw [List.map_cons, List.nodup_cons, List.forall_mem_cons]
  simp only [List.mem_map, List.mem_cons, not_or, not_exists, not_and]
  constructor
  · rintro ⟨⟨once, distinct⟩, first, apart⟩
    exact ⟨first, distinct, fun other hmem =>
      ⟨once other hmem, apart other hmem⟩⟩
  · rintro ⟨first, distinct, apart⟩
    exact ⟨⟨fun other hmem => (apart other hmem).1, distinct⟩, first,
      fun other hmem => (apart other hmem).2⟩

end Susm.Foundation
