import Mathlib.Data.List.Sort
import Mathlib.Order.Lattice

/-!
# Ordered maps

Finite maps as the list of their entries in the order of the keys.  Maps with
the same entries are equal, and so are their lists.
-/

namespace Susm.Foundation

universe u v

@[ext] structure OrderedMap (Key : Type u) [LinearOrder Key]
    (Value : Type v) where
  entries : List (Key × Value)
  sorted : entries.Pairwise fun first second => first.1 < second.1

abbrev OrderedSet (Key : Type u) [LinearOrder Key] := OrderedMap Key Unit

namespace OrderedMap

variable {Key : Type u} [LinearOrder Key] {Value : Type v}

instance [DecidableEq Value] : DecidableEq (OrderedMap Key Value) :=
  fun first second =>
    decidable_of_iff (first.entries = second.entries) OrderedMap.ext_iff.symm

def empty : OrderedMap Key Value := ⟨[], .nil⟩

def keys (map : OrderedMap Key Value) : List Key := map.entries.map Prod.fst

def contains (map : OrderedMap Key Value) (key : Key) : Bool :=
  map.entries.any fun entry => entry.1 = key

/-- Put the entry in its place, for any earlier one with the same key. -/
def insertEntry (key : Key) (value : Value) :
    List (Key × Value) → List (Key × Value)
  | [] => [(key, value)]
  | entry :: rest =>
      if key < entry.1 then (key, value) :: entry :: rest
      else if key = entry.1 then (key, value) :: rest
      else entry :: insertEntry key value rest

theorem mem_insertEntry {key : Key} {value : Value} {entry : Key × Value}
    {entries : List (Key × Value)}
    (h : entry ∈ insertEntry key value entries) :
    entry = (key, value) ∨ entry ∈ entries := by
  induction entries with
  | nil =>
      exact .inl (List.mem_singleton.mp h)
  | cons first rest ih =>
      unfold insertEntry at h
      split at h
      · exact List.mem_cons.mp h
      split at h
      · rcases List.mem_cons.mp h with rfl | h
        · exact .inl rfl
        · exact .inr (List.mem_cons_of_mem first h)
      · rcases List.mem_cons.mp h with rfl | h
        · exact .inr List.mem_cons_self
        · exact (ih h).imp_right (List.mem_cons_of_mem first)

theorem sorted_insertEntry {key : Key} {value : Value}
    {entries : List (Key × Value)}
    (sorted : entries.Pairwise fun first second => first.1 < second.1) :
    (insertEntry key value entries).Pairwise
      fun first second => first.1 < second.1 := by
  induction entries with
  | nil => exact List.pairwise_singleton _ _
  | cons entry rest ih =>
      obtain ⟨above, hrest⟩ := List.pairwise_cons.mp sorted
      unfold insertEntry
      split
      · rename_i hless
        refine List.pairwise_cons.mpr ⟨?_, sorted⟩
        intro other hother
        rcases List.mem_cons.mp hother with rfl | hother
        · exact hless
        · exact hless.trans (above other hother)
      split
      · rename_i heq
        subst heq
        exact List.pairwise_cons.mpr ⟨above, hrest⟩
      · rename_i hless heq
        refine List.pairwise_cons.mpr ⟨?_, ih hrest⟩
        intro other hother
        rcases mem_insertEntry hother with rfl | hother
        · exact lt_of_le_of_ne (not_lt.mp hless) (Ne.symm heq)
        · exact above other hother

def insert (map : OrderedMap Key Value) (key : Key) (value : Value) :
    OrderedMap Key Value :=
  ⟨insertEntry key value map.entries, sorted_insertEntry map.sorted⟩

theorem nodup_keys (map : OrderedMap Key Value) : map.keys.Nodup :=
  List.Pairwise.map Prod.fst (fun _ _ less => ne_of_lt less) map.sorted

theorem contains_eq_true_iff {map : OrderedMap Key Value} {key : Key} :
    map.contains key = true ↔ key ∈ map.keys := by
  simp [contains, keys]

theorem perm_insertEntry {key : Key} {value : Value}
    {entries : List (Key × Value)} (absent : key ∉ entries.map Prod.fst) :
    (insertEntry key value entries).Perm ((key, value) :: entries) := by
  induction entries with
  | nil => exact .refl _
  | cons entry rest ih =>
      rw [List.map_cons, List.mem_cons, not_or] at absent
      unfold insertEntry
      split
      · exact .refl _
      · rw [if_neg absent.1]
        exact ((ih absent.2).cons entry).trans (.swap _ _ _)

/-! ## Entries in order -/

theorem insertEntry_above {key : Key} {value : Value}
    {entries : List (Key × Value)} (above : ∀ entry ∈ entries, entry.1 < key) :
    insertEntry key value entries = entries ++ [(key, value)] := by
  induction entries with
  | nil => rfl
  | cons entry rest ih =>
      rw [List.forall_mem_cons] at above
      rw [insertEntry, if_neg above.1.not_gt, if_neg above.1.ne',
        ih above.2, List.cons_append]

def insertAll (map : OrderedMap Key Value) (entries : List (Key × Value)) :
    OrderedMap Key Value :=
  entries.foldl (fun map entry => map.insert entry.1 entry.2) map

theorem insertAll_above {map : OrderedMap Key Value}
    {entries : List (Key × Value)}
    (sorted : (map.entries ++ entries).Pairwise
      fun first second => first.1 < second.1) :
    (map.insertAll entries).entries = map.entries ++ entries := by
  induction entries generalizing map with
  | nil => exact (List.append_nil _).symm
  | cons entry rest ih =>
      have inserted : (map.insert entry.1 entry.2).entries =
          map.entries ++ [entry] :=
        insertEntry_above fun other hother =>
          (List.pairwise_append.mp sorted).2.2 other hother entry
            List.mem_cons_self
      rw [insertAll, List.foldl_cons, ← insertAll, ih, inserted,
        List.append_assoc, List.singleton_append]
      rwa [inserted, List.append_assoc, List.singleton_append]

theorem nodup_keys_insert {map : OrderedMap Key Value} {key : Key}
    {value : Value} {others : List Key} (absent : key ∉ map.keys) :
    (others ++ (map.insert key value).keys).Nodup ↔
      (key :: others ++ map.keys).Nodup := by
  have keys : (map.insert key value).keys.Perm (key :: map.keys) :=
    (perm_insertEntry absent).map Prod.fst
  exact ((keys.append_left others).trans List.perm_middle).nodup_iff

theorem perm_insertAll {map : OrderedMap Key Value}
    {entries : List (Key × Value)}
    (absent : (entries.map Prod.fst ++ map.keys).Nodup) :
    (map.insertAll entries).entries.Perm (entries ++ map.entries) := by
  induction entries generalizing map with
  | nil => exact .refl _
  | cons entry rest ih =>
      rw [List.map_cons] at absent
      have fresh : entry.1 ∉ map.keys := fun hmem =>
        (List.nodup_append.mp absent).2.2 entry.1 List.mem_cons_self entry.1
          hmem rfl
      have inserted := @perm_insertEntry _ _ _ _ entry.2 _ fresh
      exact (ih ((nodup_keys_insert fresh).mpr absent)).trans
        ((inserted.append_left rest).trans List.perm_middle)

theorem perm_insertAll_empty {entries : List (Key × Value)}
    (distinct : (entries.map Prod.fst).Nodup) :
    ((empty : OrderedMap Key Value).insertAll entries).entries.Perm
      entries := by
  have perm := @perm_insertAll _ _ _ empty entries
    (by simpa [keys, empty] using distinct)
  simpa [empty] using perm

theorem insertAll_entries (map : OrderedMap Key Value) :
    (empty : OrderedMap Key Value).insertAll map.entries = map :=
  OrderedMap.ext (insertAll_above map.sorted)

theorem eq_of_perm {first second : OrderedMap Key Value}
    (perm : first.entries.Perm second.entries) : first = second :=
  OrderedMap.ext (perm.eq_of_pairwise
    (fun _ _ _ _ less greater => absurd (less.trans greater) (lt_irrefl _))
    first.sorted second.sorted)

theorem insertAll_perm {entries others : List (Key × Value)}
    (perm : entries.Perm others) (distinct : (entries.map Prod.fst).Nodup) :
    (empty : OrderedMap Key Value).insertAll entries =
      empty.insertAll others := by
  have distinctOthers := ((perm.map Prod.fst).nodup_iff).mp distinct
  exact eq_of_perm ((perm_insertAll_empty distinct).trans
    (perm.trans (perm_insertAll_empty distinctOthers).symm))

end OrderedMap

end Susm.Foundation
