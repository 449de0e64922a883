import Mathlib.Data.List.Basic

/-!
# Computations that fail and keep their state

A computation changes a state and returns a value or an error; what it has
changed before an error stays changed.  `Returns` says that it returns a value,
and is decided stage by stage.
-/

namespace Susm.Foundation

variable {Error State : Type} {Value Result Item : Type}

abbrev Stateful (State Error : Type) := ExceptT Error (StateM State)

namespace Stateful

def Returns (computation : Stateful State Error Value) (first : State)
    (value : Value) (last : State) : Prop :=
  computation.run first = (.ok value, last)

variable {computation : Stateful State Error Value}
  {next : Value → Stateful State Error Result} {first last : State}
  {value : Value} {result : Result}

theorem returns_pure_iff {other : Value} :
    Returns (pure value : Stateful State Error Value) first other last ↔
      value = other ∧ first = last := by
  constructor
  · intro h
    cases h
    exact ⟨rfl, rfl⟩
  · rintro ⟨rfl, rfl⟩
    rfl

theorem returns_bind_iff :
    Returns (computation >>= next) first result last ↔
      ∃ value middle, Returns computation first value middle ∧
        Returns (next value) middle result last := by
  have hrun : (computation >>= next).run first =
      match computation.run first with
      | (.ok value, middle) => (next value).run middle
      | (.error error, middle) => (.error error, middle) := by
    change ExceptT.bindCont next (computation.run first).1
      (computation.run first).2 = _
    rcases computation.run first with ⟨error | value, middle⟩ <;> rfl
  unfold Returns
  rw [hrun]
  constructor
  · intro h
    rcases hfirst : computation.run first with ⟨error | value, middle⟩
    · rw [hfirst] at h
      cases h
    · rw [hfirst] at h
      exact ⟨value, middle, rfl, h⟩
  · rintro ⟨value, middle, hfirst, hnext⟩
    rw [hfirst]
    exact hnext

theorem returns_get_iff {state : State} :
    Returns (get : Stateful State Error State) first state last ↔
      first = state ∧ first = last := by
  constructor
  · intro h
    cases h
    exact ⟨rfl, rfl⟩
  · rintro ⟨rfl, rfl⟩
    rfl

theorem returns_modify_iff {change : State → State} {done : Unit} :
    Returns (modify change : Stateful State Error Unit) first done last ↔
      change first = last := by
  constructor
  · intro h
    cases h
    rfl
  · rintro rfl
    rfl

theorem returns_foldlM {body : Value → Item → Stateful State Error Value}
    {items : List Item} (inv : List Item → Value → State → Prop)
    (keeps : ∀ before, ∀ item ∈ items, ∀ value next first last,
      inv before value first → Returns (body value item) first next last →
      inv (before ++ [item]) next last)
    (before : List Item) {start value : Value} (hstart : inv before start first)
    (h : Returns (items.foldlM body start) first value last) :
    inv (before ++ items) value last := by
  induction items generalizing before start first with
  | nil =>
      obtain ⟨rfl, rfl⟩ := returns_pure_iff.mp h
      simpa using hstart
  | cons item items ih =>
      rw [List.foldlM_cons] at h
      obtain ⟨next, middle, hitem, hrest⟩ := returns_bind_iff.mp h
      have hmore := ih
        (fun before other hmem =>
          keeps before other (List.mem_cons_of_mem item hmem))
        (before ++ [item])
        (keeps _ item List.mem_cons_self _ _ _ _ hstart hitem) hrest
      simpa using hmore

theorem foldlM_returns {body : Value → Item → Stateful State Error Value}
    {items : List Item} (inv : List Item → Value → State → Prop)
    (progress : ∀ before item after, items = before ++ item :: after →
      ∀ value first, inv before value first →
        ∃ next last, Returns (body value item) first next last ∧
          inv (before ++ [item]) next last)
    {start : Value} (hstart : inv [] start first) :
    ∃ value last, Returns (items.foldlM body start) first value last ∧
      inv items value last := by
  have rest : ∀ after before, items = before ++ after →
      ∀ value first, inv before value first →
        ∃ next last, Returns (after.foldlM body value) first next last ∧
          inv items next last := by
    intro after
    induction after with
    | nil =>
        intro before heq value first hinv
        rw [List.append_nil] at heq
        exact ⟨value, first, returns_pure_iff.mpr ⟨rfl, rfl⟩, heq ▸ hinv⟩
    | cons item after ih =>
        intro before heq value first hinv
        obtain ⟨next, middle, hitem, hnext⟩ :=
          progress before item after heq value first hinv
        obtain ⟨result, last, hrest, hlast⟩ :=
          ih (before ++ [item]) (by simp [heq]) next middle hnext
        refine ⟨result, last, ?_, hlast⟩
        rw [List.foldlM_cons]
        exact returns_bind_iff.mpr ⟨next, middle, hitem, hrest⟩
  exact rest items [] rfl start first hstart

end Stateful

end Susm.Foundation
