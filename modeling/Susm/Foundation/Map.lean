import Mathlib.Data.List.AList
import Mathlib.Data.List.Sort

/-!
# Finite maps

Association lists with one entry a key, as an ordered map of a program or a
table with a primary key.  Mathlib has lookup, insertion and removal; added
here are the update of one value, the update of every value, and enumeration.
-/

namespace Susm.Foundation

universe u v w

abbrev Map (Key : Type u) (Value : Type v) := AList fun _ : Key => Value

namespace Map

variable {Key : Type u} [DecidableEq Key] {Value : Type v} {Other : Type w}

/-- Equality of maps by evaluation. -/
instance [DecidableEq Value] : DecidableEq (Map Key Value) :=
  fun first second =>
    decidable_of_iff (first.entries = second.entries) AList.ext_iff.symm

theorem lookup_insert_eq (map : Map Key Value) (key other : Key)
    (value : Value) :
    (map.insert key value).lookup other =
      if other = key then some value else map.lookup other := by
  by_cases h : other = key
  · subst h
    simp
  · rw [if_neg h]
    exact AList.lookup_insert_ne h

theorem lookup_erase_eq (map : Map Key Value) (key other : Key) :
    (map.erase key).lookup other =
      if other = key then none else map.lookup other := by
  by_cases h : other = key
  · subst h
    simp
  · rw [if_neg h]
    exact AList.lookup_erase_ne h

theorem erase_insert {map : Map Key Value} {key : Key} {value : Value}
    (absent : map.lookup key = none) : (map.insert key value).erase key = map := by
  have hmem : key ∉ map := AList.lookup_eq_none.mp absent
  refine AList.ext ?_
  change (map.insert key value).entries.kerase key = map.entries
  rw [AList.entries_insert_of_notMem hmem]
  exact List.kerase_cons_eq rfl

def modify (map : Map Key Value) (key : Key) (change : Value → Value) :
    Map Key Value :=
  match map.lookup key with
  | none => map
  | some value => map.insert key (change value)

theorem lookup_modify (map : Map Key Value) (key other : Key)
    (change : Value → Value) :
    (map.modify key change).lookup other =
      if other = key then (map.lookup other).map change
      else map.lookup other := by
  unfold modify
  by_cases hkey : other = key
  · subst hkey
    cases h : map.lookup other with
    | none => simp [h]
    | some value => simp
  · rw [if_neg hkey]
    cases map.lookup key with
    | none => rfl
    | some value => exact AList.lookup_insert_ne hkey

def mapValues (map : Map Key Value) (change : Key → Value → Other) :
    Map Key Other where
  entries := map.entries.map fun entry => ⟨entry.1, change entry.1 entry.2⟩
  nodupKeys := by
    have keys := map.nodupKeys
    unfold List.NodupKeys List.keys at keys ⊢
    simpa [List.map_map, Function.comp_def] using keys

theorem lookup_mapValues (map : Map Key Value)
    (change : Key → Value → Other) (key : Key) :
    (map.mapValues change).lookup key = (map.lookup key).map (change key) := by
  obtain ⟨entries, nodup⟩ := map
  simp only [mapValues, AList.lookup]
  clear nodup
  induction entries with
  | nil => rfl
  | cons entry entries ih =>
      obtain ⟨first, value⟩ := entry
      by_cases h : key = first
      · subst h
        simp
      · have hne : first ≠ key := fun heq => h heq.symm
        rw [List.map_cons, List.dlookup_cons_ne _ _ h,
          List.dlookup_cons_ne _ _ h]
        exact ih

def toList (map : Map Key Value) : List (Key × Value) :=
  map.entries.map fun entry => (entry.1, entry.2)

theorem mem_toList {map : Map Key Value} {key : Key} {value : Value} :
    (key, value) ∈ map.toList ↔ map.lookup key = some value := by
  have entry : (key, value) ∈ map.toList ↔
      (⟨key, value⟩ : Sigma fun _ : Key => Value) ∈ map.entries := by
    simp only [toList, List.mem_map]
    constructor
    · rintro ⟨⟨first, second⟩, hmem, heq⟩
      cases heq
      exact hmem
    · intro hmem
      exact ⟨⟨key, value⟩, hmem, rfl⟩
  rw [entry, ← AList.mem_lookup_iff, Option.mem_def]

theorem toList_insert {map : Map Key Value} {key : Key} {value : Value}
    (absent : map.lookup key = none) :
    toList (map.insert key value) = (key, value) :: map.toList := by
  have hmem : key ∉ map := AList.lookup_eq_none.mp absent
  simp only [toList, AList.entries_insert_of_notMem hmem, List.map_cons]

omit [DecidableEq Key] in
theorem toList_nodup (map : Map Key Value) : map.toList.Nodup := by
  have keys : (map.toList.map Prod.fst).Nodup := by
    simpa [toList, Function.comp_def, List.NodupKeys, List.keys] using
      map.nodupKeys
  exact List.Nodup.of_map _ keys

def findEntry (map : Map Key Value) (condition : Value → Bool) :
    Option (Key × Value) :=
  map.toList.find? fun entry => condition entry.2

theorem findEntry_some {map : Map Key Value} {condition : Value → Bool}
    {key : Key} {value : Value}
    (h : map.findEntry condition = some (key, value)) :
    map.lookup key = some value ∧ condition value = true :=
  ⟨mem_toList.mp (List.mem_of_find?_eq_some h), by
    simpa using List.find?_some h⟩

theorem findEntry_none {map : Map Key Value} {condition : Value → Bool}
    (h : map.findEntry condition = none) {key : Key} {value : Value}
    (hlookup : map.lookup key = some value) : condition value = false := by
  have hnone := List.find?_eq_none.mp h _ (mem_toList.mpr hlookup)
  simpa using hnone

end Map

end Susm.Foundation
