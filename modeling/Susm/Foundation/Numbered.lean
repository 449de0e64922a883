import Mathlib.Data.List.Basic

/-!
# Lists numbered without a gap

The items of a numbered list carry the numbers after a start, one each and in
order.  A reader that knows how far it has come finds what it has not seen by
dropping a prefix.
-/

namespace Susm.Foundation

universe u

variable {Item : Type u}

/-- The items carry `start + 1`, `start + 2` and so on. -/
def Numbered (number : Item → Nat) (start : Nat) (items : List Item) : Prop :=
  items.map number = List.range' (start + 1) items.length

namespace Numbered

variable {number : Item → Nat} {start : Nat} {items : List Item} {item : Item}

theorem nil : Numbered number start [] := rfl

theorem cons_iff :
    Numbered number start (item :: items) ↔
      number item = start + 1 ∧ Numbered number (start + 1) items := by
  simp [Numbered, List.range'_succ]

theorem append_iff {more : List Item} :
    Numbered number start (items ++ more) ↔
      Numbered number start items ∧
        Numbered number (start + items.length) more := by
  induction items generalizing start with
  | nil => simp [nil]
  | cons item items ih =>
      rw [List.cons_append, cons_iff, cons_iff, ih, List.length_cons,
        and_assoc, show start + 1 + items.length =
          start + (items.length + 1) by omega]

theorem singleton (h : number item = start + 1) :
    Numbered number start [item] :=
  cons_iff.mpr ⟨h, nil⟩

theorem concat (numbered : Numbered number start items)
    (h : number item = start + items.length + 1) :
    Numbered number start (items ++ [item]) :=
  append_iff.mpr ⟨numbered, singleton h⟩

theorem drop (numbered : Numbered number start items) {count : Nat}
    (h : count ≤ items.length) :
    Numbered number (start + count) (items.drop count) := by
  rw [← List.take_append_drop count items, append_iff,
    List.length_take_of_le h] at numbered
  exact numbered.2

theorem filter_beyond (numbered : Numbered number start items)
    (cursor : Nat) :
    items.filter (fun item => cursor < number item) =
      items.drop (cursor - start) := by
  induction items generalizing start with
  | nil => simp
  | cons item items ih =>
      obtain ⟨hnumber, hrest⟩ := cons_iff.mp numbered
      rw [List.filter_cons, ih hrest]
      by_cases h : cursor ≤ start
      · have hzero : cursor - start = 0 := by omega
        have hnext : cursor - (start + 1) = 0 := by omega
        rw [hzero, hnext, if_pos (by simp; omega)]
        rfl
      · obtain ⟨more, rfl⟩ := Nat.exists_eq_add_of_lt (Nat.lt_of_not_le h)
        rw [if_neg (by simp; omega),
          show start + more + 1 - start = more + 1 by omega,
          show start + more + 1 - (start + 1) = more by omega,
          List.drop_succ_cons]

end Numbered

end Susm.Foundation
