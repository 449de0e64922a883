import Mathlib.Data.List.Perm.Basic

/-!
# Items that own keys

A list of items each of which may own a key, and no two of which own the same
one.  An item may be replaced by others that take over its key or own new ones.
-/

namespace Susm.Foundation

universe u v

variable {Item : Type u} {Key : Type v}

/-- No two items own the same key. -/
def Distinct (owned : Item → Option Key) (items : List Item) : Prop :=
  items.Pairwise fun first second =>
    ∀ key, owned first = some key → owned second ≠ some key

namespace Distinct

variable {owned : Item → Option Key} {items added : List Item} {index : Nat}
  {item : Item}

theorem nil : Distinct owned ([] : List Item) := List.Pairwise.nil

theorem singleton (item : Item) : Distinct owned [item] :=
  List.pairwise_singleton _ _

theorem cons_none (free : owned item = none) (held : Distinct owned items) :
    Distinct owned (item :: items) := by
  refine List.pairwise_cons.mpr ⟨?_, held⟩
  intro other _ key howned
  cases free.symm.trans howned

theorem of_none (free : ∀ other ∈ items, owned other = none) :
    Distinct owned items := by
  induction items with
  | nil => exact nil
  | cons item items ih =>
      refine cons_none (free item List.mem_cons_self) (ih ?_)
      exact fun other hother => free other (List.mem_cons_of_mem _ hother)

theorem cons_free (free : ∀ other ∈ items, owned other = none) :
    Distinct owned (item :: items) := by
  refine List.pairwise_cons.mpr ⟨?_, of_none free⟩
  intro other hother key _ howned
  cases (free other hother).symm.trans howned

theorem eraseIdx (held : Distinct owned items)
    (found : items[index]? = some item) {other : Item}
    (hother : other ∈ items.eraseIdx index) {key : Key}
    (howned : owned item = some key) : owned other ≠ some key := by
  obtain ⟨hindex, rfl⟩ := List.getElem?_eq_some_iff.mp found
  have symmetric : ∀ {first second : Item},
      (∀ key, owned first = some key → owned second ≠ some key) →
      ∀ key, owned second = some key → owned first ≠ some key :=
    fun apart key hsecond hfirst => apart key hfirst hsecond
  have perm := List.getElem_cons_eraseIdx_perm hindex
  have pairwise := (perm.pairwise_iff symmetric).mpr held
  exact (List.pairwise_cons.mp pairwise).1 other hother key howned

theorem unique (held : Distinct owned items)
    (found : items[index]? = some item) {other : Item} (hother : other ∈ items)
    {key : Key} (howned : owned item = some key)
    (hsame : owned other = some key) : other = item := by
  by_contra hne
  refine held.eraseIdx found ?_ howned hsame
  obtain ⟨position, hposition⟩ := List.getElem?_of_mem hother
  refine List.mem_eraseIdx_iff_getElem?.mpr ⟨position, ?_, hposition⟩
  rintro rfl
  exact hne (Option.some.inj (hposition.symm.trans found))

theorem append (held : Distinct owned items) (new : Distinct owned added)
    (fresh : ∀ other ∈ added, ∀ key, owned other = some key →
      ∀ old ∈ items, owned old ≠ some key) :
    Distinct owned (items ++ added) := by
  refine List.pairwise_append.mpr ⟨held, new, ?_⟩
  intro old hold other hother key howned hsame
  exact fresh other hother key hsame old hold howned

theorem replace (held : Distinct owned items)
    (found : items[index]? = some item) (new : Distinct owned added)
    (source : ∀ other ∈ added, ∀ key, owned other = some key →
      owned item = some key ∨
        ∀ old ∈ items.eraseIdx index, owned old ≠ some key) :
    Distinct owned (items.eraseIdx index ++ added) := by
  refine append (List.Pairwise.sublist (List.eraseIdx_sublist _ _) held) new ?_
  intro other hother key howned old hold
  rcases source other hother key howned with hkept | hfresh
  · exact held.eraseIdx found hold hkept
  · exact hfresh old hold

end Distinct

/-- A property that an item has stays with one of the items when it is passed on
to one of those that replace it. -/
theorem exists_mem_replaced {items added : List Item} {index : Nat}
    {replaced item : Item} {Holds : Item → Prop}
    (found : items[index]? = some replaced) (hitem : item ∈ items)
    (holds : Holds item)
    (passed : item = replaced → ∃ other ∈ added, Holds other) :
    ∃ other ∈ items.eraseIdx index ++ added, Holds other := by
  by_cases hsame : item = replaced
  · obtain ⟨other, hother, hholds⟩ := passed hsame
    exact ⟨other, List.mem_append_right _ hother, hholds⟩
  · obtain ⟨position, hposition⟩ := List.getElem?_of_mem hitem
    refine ⟨item, List.mem_append_left _ ?_, holds⟩
    refine List.mem_eraseIdx_iff_getElem?.mpr ⟨position, ?_, hposition⟩
    rintro rfl
    exact hsame (Option.some.inj (hposition.symm.trans found))

end Susm.Foundation
