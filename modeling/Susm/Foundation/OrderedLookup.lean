import Susm.Foundation.OrderedMap

/-!
# Lookup in ordered maps

What each operation on an ordered map makes of the value under a key.
-/

namespace Susm.Foundation

namespace OrderedMap

universe u v w

variable {Key : Type u} [LinearOrder Key] {Value : Type v} {Other : Type w}
  {map : OrderedMap Key Value} {key other : Key} {value : Value}

def lookup (map : OrderedMap Key Value) (key : Key) : Option Value :=
  (map.entries.find? fun entry => entry.1 = key).map Prod.snd

theorem lookup_eq_some_iff :
    map.lookup key = some value ↔ (key, value) ∈ map.entries := by
  have only := List.inj_on_of_nodup_map map.nodup_keys
  rw [lookup, Option.map_eq_some_iff]
  constructor
  · rintro ⟨entry, found, rfl⟩
    have same : entry.1 = key := by simpa using List.find?_some found
    exact same ▸ List.mem_of_find?_eq_some found
  · intro h
    have some : (map.entries.find? fun entry => entry.1 = key).isSome :=
      List.find?_isSome.mpr ⟨_, h, decide_eq_true rfl⟩
    obtain ⟨entry, found⟩ := Option.isSome_iff_exists.mp some
    have same : entry.1 = key := by simpa using List.find?_some found
    have heq := only (List.mem_of_find?_eq_some found) h same
    exact ⟨entry, found, congrArg Prod.snd heq⟩

theorem lookup_eq_none_iff : map.lookup key = none ↔ key ∉ map.keys := by
  simp only [Option.eq_none_iff_forall_ne_some, ne_eq, lookup_eq_some_iff, keys,
    List.mem_map, Prod.exists, exists_and_right, exists_eq_right, not_exists]

theorem lookup_congr {second : OrderedMap Key Value}
    (same : ∀ value, (key, value) ∈ map.entries ↔
      (key, value) ∈ second.entries) :
    map.lookup key = second.lookup key := by
  apply Option.ext
  intro value
  rw [lookup_eq_some_iff, lookup_eq_some_iff, same]

@[simp] theorem lookup_empty :
    (empty : OrderedMap Key Value).lookup key = none := rfl

theorem mem_insertEntry_iff {entry : Key × Value}
    {entries : List (Key × Value)}
    (sorted : entries.Pairwise fun first second => first.1 < second.1) :
    entry ∈ insertEntry key value entries ↔
      entry = (key, value) ∨ entry.1 ≠ key ∧ entry ∈ entries := by
  induction entries with
  | nil => simp [insertEntry]
  | cons first rest ih =>
      obtain ⟨above, hrest⟩ := List.pairwise_cons.mp sorted
      have later : ∀ entry ∈ rest, key ≤ first.1 → entry.1 ≠ key :=
        fun entry hentry hle => (hle.trans_lt (above entry hentry)).ne'
      unfold insertEntry
      split
      · rename_i less
        have others : ∀ entry ∈ first :: rest, entry.1 ≠ key := by
          rw [List.forall_mem_cons]
          exact ⟨less.ne', fun entry hentry => later entry hentry less.le⟩
        rw [List.mem_cons]
        exact or_congr_right ⟨fun h => ⟨others entry h, h⟩, And.right⟩
      split
      · rename_i heq
        have others := fun entry hentry => later entry hentry heq.le
        rw [List.mem_cons, List.mem_cons]
        refine or_congr_right ⟨fun h => ⟨others entry h, .inr h⟩, ?_⟩
        rintro ⟨ne, rfl | h⟩
        · exact absurd heq.symm ne
        · exact h
      · rename_i heq
        rw [List.mem_cons, ih hrest, List.mem_cons]
        constructor
        · rintro (rfl | rfl | ⟨ne, h⟩)
          · exact .inr ⟨Ne.symm heq, .inl rfl⟩
          · exact .inl rfl
          · exact .inr ⟨ne, .inr h⟩
        · rintro (rfl | ⟨ne, rfl | h⟩)
          · exact .inr (.inl rfl)
          · exact .inl rfl
          · exact .inr (.inr ⟨ne, h⟩)

@[simp] theorem lookup_insert_self :
    (map.insert key value).lookup key = some value :=
  lookup_eq_some_iff.mpr ((mem_insertEntry_iff map.sorted).mpr (.inl rfl))

theorem lookup_insert_of_ne (h : other ≠ key) :
    (map.insert key value).lookup other = map.lookup other := by
  apply lookup_congr
  intro held
  have := @mem_insertEntry_iff _ _ _ key value (other, held) _ map.sorted
  simpa [insert, h] using this

theorem lookup_insert :
    (map.insert key value).lookup other =
      if other = key then some value else map.lookup other := by
  split
  · rename_i h
    rw [h, lookup_insert_self]
  · rename_i h
    exact lookup_insert_of_ne h

/-! ## Entries kept and changed -/

def retain (map : OrderedMap Key Value) (keep : Key → Value → Bool) :
    OrderedMap Key Value :=
  ⟨map.entries.filter fun entry => keep entry.1 entry.2,
    map.sorted.filter _⟩

theorem lookup_retain {keep : Key → Value → Bool} :
    (map.retain keep).lookup key = (map.lookup key).filter (keep key) := by
  apply Option.ext
  intro value
  rw [lookup_eq_some_iff, Option.filter_eq_some_iff, lookup_eq_some_iff]
  exact List.mem_filter

def erase (map : OrderedMap Key Value) (key : Key) : OrderedMap Key Value :=
  map.retain fun other _ => other ≠ key

@[simp] theorem lookup_erase_self : (map.erase key).lookup key = none := by
  rw [erase, lookup_retain, Option.filter_eq_none_iff]
  simp

theorem lookup_erase_of_ne (h : other ≠ key) :
    (map.erase key).lookup other = map.lookup other := by
  rw [erase, lookup_retain]
  cases map.lookup other with
  | none => rfl
  | some value => simp [h]

def mapValues (map : OrderedMap Key Value) (change : Key → Value → Other) :
    OrderedMap Key Other :=
  ⟨map.entries.map fun entry => (entry.1, change entry.1 entry.2),
    List.pairwise_map.mpr map.sorted⟩

theorem lookup_mapValues {change : Key → Value → Other} :
    (map.mapValues change).lookup key =
      (map.lookup key).map (change key) := by
  apply Option.ext
  intro value
  rw [lookup_eq_some_iff, Option.map_eq_some_iff, mapValues]
  constructor
  · intro h
    obtain ⟨⟨_, held⟩, hmem, heq⟩ := List.mem_map.mp h
    cases heq
    exact ⟨held, lookup_eq_some_iff.mpr hmem, rfl⟩
  · rintro ⟨held, found, rfl⟩
    exact List.mem_map.mpr ⟨_, lookup_eq_some_iff.mp found, rfl⟩

/-! ## Keys added -/

/-- Enter the value unless the key has one. -/
def insertMissing (map : OrderedMap Key Value) (key : Key) (value : Value) :
    OrderedMap Key Value :=
  if map.contains key then map else map.insert key value

theorem lookup_insertMissing :
    (map.insertMissing key value).lookup other =
      if other = key then some ((map.lookup key).getD value)
      else map.lookup other := by
  unfold insertMissing
  by_cases held : map.contains key = true
  · rw [if_pos held]
    split
    · rename_i h
      subst h
      cases found : map.lookup other with
      | none =>
          exact absurd (contains_eq_true_iff.mp held)
            (lookup_eq_none_iff.mp found)
      | some value => rfl
    · rfl
  · have absent : map.lookup key = none :=
      lookup_eq_none_iff.mpr fun h => held (contains_eq_true_iff.mpr h)
    rw [if_neg held, lookup_insert, absent, Option.getD_none]

theorem lookup_foldl_insertMissing {keys : List Key} :
    (keys.foldl (fun map key => map.insertMissing key value) map).lookup key =
      if key ∈ keys then some ((map.lookup key).getD value)
      else map.lookup key := by
  induction keys generalizing map with
  | nil => rfl
  | cons first rest ih =>
      rw [List.foldl_cons, ih, lookup_insertMissing]
      by_cases heq : key = first
      · simp [heq]
      · simp [heq]

theorem lookup_foldl_insert {keys : List Key} {values : Key → Value} :
    (keys.foldl (fun map key => map.insert key (values key)) map).lookup key =
      if key ∈ keys then some (values key) else map.lookup key := by
  induction keys generalizing map with
  | nil => rfl
  | cons first rest ih =>
      rw [List.foldl_cons, ih, lookup_insert]
      by_cases heq : key = first
      · simp [heq]
      · simp [heq]

end OrderedMap

end Susm.Foundation
