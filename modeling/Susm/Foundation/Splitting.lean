import Mathlib.Data.List.Basic

/-!
# Splitting a list at a separator

What a scanner finds with a search for the next separator: the items before
its first occurrence and the items behind it.
-/

namespace Susm.Foundation

universe u

variable {Item : Type u} [DecidableEq Item] {separator : Item}
  {items before after : List Item}

def splitOnce (separator : Item) : List Item → Option (List Item × List Item)
  | [] => none
  | item :: rest =>
      if item = separator then some ([], rest)
      else (splitOnce separator rest).map fun (before, after) =>
        (item :: before, after)

theorem splitOnce_append (absent : separator ∉ before) :
    splitOnce separator (before ++ separator :: after) =
      some (before, after) := by
  induction before with
  | nil => simp [splitOnce]
  | cons item before ih =>
      rw [List.mem_cons, not_or] at absent
      simp [splitOnce, Ne.symm absent.1, ih absent.2]

theorem splitOnce_append_left (absent : separator ∉ before) :
    splitOnce separator (before ++ items) =
      (splitOnce separator items).map fun (first, rest) =>
        (before ++ first, rest) := by
  induction before with
  | nil => simp
  | cons item before ih =>
      rw [List.mem_cons, not_or] at absent
      simp [splitOnce, Ne.symm absent.1, ih absent.2, Function.comp_def]

theorem splitOnce_eq_none_iff :
    splitOnce separator items = none ↔ separator ∉ items := by
  induction items with
  | nil => simp [splitOnce]
  | cons item items ih =>
      by_cases h : item = separator
      · simp [splitOnce, h]
      · simp [splitOnce, h, ih, Ne.symm h]

theorem splitOnce_eq_some_iff :
    splitOnce separator items = some (before, after) ↔
      items = before ++ separator :: after ∧ separator ∉ before := by
  constructor
  · intro h
    induction items generalizing before with
    | nil => cases h
    | cons item items ih =>
        rw [splitOnce] at h
        split at h
        · rename_i heq
          cases h
          simp [heq]
        · rename_i hne
          obtain ⟨⟨first, rest⟩, hrest, heq⟩ := Option.map_eq_some_iff.mp h
          cases heq
          obtain ⟨rfl, absent⟩ := ih hrest
          exact ⟨rfl, by simp [Ne.symm hne, absent]⟩
  · rintro ⟨rfl, absent⟩
    exact splitOnce_append absent

omit [DecidableEq Item] in
theorem prefix_cases {cut : List Item}
    (h : cut <+: before ++ separator :: after) :
    cut <+: before ∨
      ∃ rest, cut = before ++ separator :: rest ∧ rest <+: after := by
  rw [show before ++ separator :: after = before ++ [separator] ++ after by
    simp] at h
  rcases List.prefix_or_prefix_of_prefix h
    (List.prefix_append (before ++ [separator]) after) with hshort | hlong
  · rcases List.prefix_concat_iff.mp hshort with rfl | hshort
    · exact .inr ⟨[], rfl, List.nil_prefix⟩
    · exact .inl hshort
  · obtain ⟨rest, rfl⟩ := hlong
    exact .inr ⟨rest, by simp, (List.prefix_append_right_inj _).mp h⟩

theorem length_lt_of_splitOnce
    (h : splitOnce separator items = some (before, after)) :
    after.length < items.length := by
  rw [(splitOnce_eq_some_iff.mp h).1]
  simp
  omega

theorem suffix_of_splitOnce
    (h : splitOnce separator items = some (before, after)) :
    after <:+ items := by
  rw [(splitOnce_eq_some_iff.mp h).1]
  exact ⟨before ++ [separator], by simp⟩

theorem findIdx?_eq_splitOnce :
    items.findIdx? (fun item => decide (item = separator)) =
      (splitOnce separator items).map fun parts => parts.1.length := by
  induction items with
  | nil => rfl
  | cons item items ih =>
      rw [List.findIdx?_cons, splitOnce]
      by_cases h : item = separator
      · simp [h]
      · simp [h, ih, Function.comp_def]

/-! ## The last separator -/

def rsplitOnce (separator : Item) (items : List Item) :
    Option (List Item × List Item) :=
  (splitOnce separator items.reverse).map fun (after, before) =>
    (before.reverse, after.reverse)

theorem rsplitOnce_append (absent : separator ∉ after) :
    rsplitOnce separator (before ++ separator :: after) =
      some (before, after) := by
  have reversed : (before ++ separator :: after).reverse =
      after.reverse ++ separator :: before.reverse := by simp
  rw [rsplitOnce, reversed,
    splitOnce_append (show separator ∉ after.reverse by simpa using absent)]
  simp

end Susm.Foundation
