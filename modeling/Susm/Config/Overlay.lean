import Susm.Config.Raw
import Susm.Foundation.EventMachine

/-!
# Environment tables

Which tables of environment variables are accepted, and the overlay that an
accepted table becomes.
-/

namespace Susm.Config

open Susm.Foundation

structure ValidName (name : String) : Prop where
  nonempty : name ≠ ""
  equals : '=' ∉ name.toList
  null : '\x00' ∉ name.toList

/-- The values have no null characters, and the names are valid and different
from each other in upper case. -/
structure ValidTable (libraries : Libraries) (raw : RawEnvironment) : Prop where
  values : ∀ entry ∈ raw.set.entries, '\x00' ∉ entry.2.toList
  names : ∀ name ∈ raw.set.keys ++ raw.unset, ValidName name
  distinct : ((raw.set.keys ++ raw.unset).map libraries.toUppercase).Nodup

section Steps

variable (libraries : Libraries)

def overlayName (name : String) : EnvironmentName :=
  ⟨libraries.toUppercase name⟩

def overlayEntry (entry : String × String) : EnvironmentName × String :=
  (overlayName libraries entry.1, entry.2)

def tableOverlay (raw : RawEnvironment) : EnvironmentOverlay where
  set := OrderedMap.empty.insertAll
    (raw.set.entries.map (overlayEntry libraries))
  unset := OrderedMap.empty.insertAll
    (raw.unset.map fun name => (overlayName libraries name, ()))

end Steps

variable {libraries : Libraries}

theorem validateText_eq_ok {field value : String} :
    validateText field value true = .ok () ↔ '\x00' ∉ value.toList := by
  unfold validateText invalid
  simp

theorem environmentName_eq_ok {field rawName : String}
    {name : EnvironmentName} :
    environmentName libraries field rawName = .ok name ↔
      ValidName rawName ∧ name = overlayName libraries rawName := by
  unfold environmentName EnvironmentName.parse invalid
  by_cases nonempty : rawName = ""
  · simp only [nonempty]
    exact ⟨nofun, fun h => absurd rfl h.1.nonempty⟩
  by_cases equals : '=' ∈ rawName.toList
  · simp only [String.isEmpty_iff, nonempty, if_false, List.contains_eq_mem,
      equals, decide_true, if_true]
    exact ⟨nofun, fun h => absurd equals h.1.equals⟩
  by_cases null : '\x00' ∈ rawName.toList
  · simp only [String.isEmpty_iff, nonempty, if_false, List.contains_eq_mem,
      equals, null, decide_true, decide_false, if_true]
    exact ⟨nofun, fun h => absurd null h.1.null⟩
  · simp only [String.isEmpty_iff, nonempty, if_false, List.contains_eq_mem,
      equals, null, decide_false]
    constructor
    · rintro h
      cases h
      exact ⟨⟨nonempty, equals, null⟩, rfl⟩
    · rintro ⟨-, rfl⟩
      rfl

theorem insertSet_eq_ok {set next : OrderedMap EnvironmentName String}
    {entry : String × String} :
    RawEnvironment.insertSet libraries set entry = .ok next ↔
      ('\x00' ∉ entry.2.toList ∧ ValidName entry.1) ∧
        overlayName libraries entry.1 ∉ set.keys ∧
        next = set.insert (overlayName libraries entry.1) entry.2 := by
  unfold RawEnvironment.insertSet
  simp only [bind_eq_ok_iff, environmentName_eq_ok]
  constructor
  · rintro ⟨_, value, name, ⟨valid, rfl⟩, inserted⟩
    split at inserted
    · cases inserted
    · rename_i absent
      cases inserted
      rw [OrderedMap.contains_eq_true_iff] at absent
      exact ⟨⟨validateText_eq_ok.mp value, valid⟩, absent, rfl⟩
  · rintro ⟨⟨value, valid⟩, absent, rfl⟩
    refine ⟨(), validateText_eq_ok.mpr value, _, ⟨valid, rfl⟩, ?_⟩
    rw [if_neg (mt OrderedMap.contains_eq_true_iff.mp absent)]

theorem insertSet_all {entries : List (String × String)}
    {start set : OrderedMap EnvironmentName String} :
    entries.foldlM (RawEnvironment.insertSet libraries) start = .ok set ↔
      (∀ entry ∈ entries, '\x00' ∉ entry.2.toList ∧ ValidName entry.1) ∧
        (entries.map (fun entry => overlayName libraries entry.1) ++
          start.keys).Nodup ∧
        set = start.insertAll (entries.map (overlayEntry libraries)) := by
  induction entries generalizing start with
  | nil =>
      simp only [List.foldlM_nil, List.not_mem_nil, IsEmpty.forall_iff,
        implies_true, List.map_nil, List.nil_append, start.nodup_keys, true_and]
      exact ⟨fun h => (Except.ok.inj h).symm, fun h => h ▸ rfl⟩
  | cons entry entries ih =>
      simp only [List.foldlM_cons, bind_eq_ok_iff, insertSet_eq_ok, ih,
        List.forall_mem_cons, List.map_cons]
      constructor
      · rintro ⟨_, ⟨good, absent, rfl⟩, rest, distinct, rfl⟩
        exact ⟨⟨good, rest⟩,
          (OrderedMap.nodup_keys_insert absent).mp distinct, rfl⟩
      · rintro ⟨⟨good, rest⟩, distinct, rfl⟩
        have absent : overlayName libraries entry.1 ∉ start.keys :=
          fun hmem => (List.nodup_append.mp distinct).2.2 _
            List.mem_cons_self _ hmem rfl
        exact ⟨_, ⟨good, absent, rfl⟩, rest,
          (OrderedMap.nodup_keys_insert absent).mpr distinct, rfl⟩

theorem insertUnset_eq_ok {set : OrderedMap EnvironmentName String}
    {unset next : OrderedSet EnvironmentName} {rawName : String} :
    RawEnvironment.insertUnset libraries set unset rawName = .ok next ↔
      (ValidName rawName ∧ overlayName libraries rawName ∉ set.keys) ∧
        overlayName libraries rawName ∉ unset.keys ∧
        next = unset.insert (overlayName libraries rawName) () := by
  unfold RawEnvironment.insertUnset
  simp only [bind_eq_ok_iff, environmentName_eq_ok]
  constructor
  · rintro ⟨name, ⟨valid, rfl⟩, inserted⟩
    split at inserted
    · cases inserted
    split at inserted
    · cases inserted
    rename_i fresh disjoint
    cases inserted
    rw [OrderedMap.contains_eq_true_iff] at fresh disjoint
    exact ⟨⟨valid, disjoint⟩, fresh, rfl⟩
  · rintro ⟨⟨valid, disjoint⟩, fresh, rfl⟩
    refine ⟨_, ⟨valid, rfl⟩, ?_⟩
    rw [if_neg (mt OrderedMap.contains_eq_true_iff.mp fresh),
      if_neg (mt OrderedMap.contains_eq_true_iff.mp disjoint)]

theorem insertUnset_all {names : List String}
    {set : OrderedMap EnvironmentName String}
    {start unset : OrderedSet EnvironmentName} :
    names.foldlM (RawEnvironment.insertUnset libraries set) start =
        .ok unset ↔
      (∀ name ∈ names,
        ValidName name ∧ overlayName libraries name ∉ set.keys) ∧
        (names.map (overlayName libraries) ++ start.keys).Nodup ∧
        unset = start.insertAll
          (names.map fun name => (overlayName libraries name, ())) := by
  induction names generalizing start with
  | nil =>
      simp only [List.foldlM_nil, List.not_mem_nil, IsEmpty.forall_iff,
        implies_true, List.map_nil, List.nil_append, start.nodup_keys, true_and]
      exact ⟨fun h => (Except.ok.inj h).symm, fun h => h ▸ rfl⟩
  | cons name names ih =>
      simp only [List.foldlM_cons, bind_eq_ok_iff, insertUnset_eq_ok, ih,
        List.forall_mem_cons, List.map_cons]
      constructor
      · rintro ⟨_, ⟨good, absent, rfl⟩, rest, distinct, rfl⟩
        exact ⟨⟨good, rest⟩,
          (OrderedMap.nodup_keys_insert absent).mp distinct, rfl⟩
      · rintro ⟨⟨good, rest⟩, distinct, rfl⟩
        have absent : overlayName libraries name ∉ start.keys :=
          fun hmem => (List.nodup_append.mp distinct).2.2 _
            List.mem_cons_self _ hmem rfl
        exact ⟨_, ⟨good, absent, rfl⟩, rest,
          (OrderedMap.nodup_keys_insert absent).mpr distinct, rfl⟩

/-! ## The overlay of a table -/

theorem nodup_overlayName {names : List String} :
    (names.map (overlayName libraries)).Nodup ↔
      (names.map libraries.toUppercase).Nodup := by
  rw [show names.map (overlayName libraries) =
    (names.map libraries.toUppercase).map EnvironmentName.mk by
      rw [List.map_map]; rfl]
  exact List.nodup_map_iff fun _ _ same => EnvironmentName.mk.inj same

theorem tableOverlay_set {raw : RawEnvironment}
    (distinct : (raw.set.keys.map (overlayName libraries)).Nodup) :
    (tableOverlay libraries raw).set.entries.Perm
      (raw.set.entries.map (overlayEntry libraries)) := by
  refine OrderedMap.perm_insertAll_empty ?_
  simpa [OrderedMap.keys, overlayEntry, Function.comp_def] using distinct

theorem tableOverlay_unset {raw : RawEnvironment}
    (distinct : (raw.unset.map (overlayName libraries)).Nodup) :
    (tableOverlay libraries raw).unset.keys.Perm
      (raw.unset.map (overlayName libraries)) := by
  have perm := (@OrderedMap.perm_insertAll_empty _ _ _ (raw.unset.map
    fun name => (overlayName libraries name, ())) (by
      simpa [Function.comp_def] using distinct)).map Prod.fst
  simpa [OrderedMap.keys, tableOverlay, Function.comp_def] using perm

theorem mem_tableOverlay_set {raw : RawEnvironment} {name : EnvironmentName}
    (distinct : (raw.set.keys.map (overlayName libraries)).Nodup) :
    name ∈ (tableOverlay libraries raw).set.keys ↔
      name ∈ raw.set.keys.map (overlayName libraries) := by
  have perm := ((tableOverlay_set distinct).map Prod.fst).mem_iff (a := name)
  simpa [OrderedMap.keys, overlayEntry, Function.comp_def] using perm

theorem intoOverlay_eq_ok {raw : RawEnvironment}
    {overlay : EnvironmentOverlay} :
    raw.intoOverlay libraries = .ok overlay ↔
      ValidTable libraries raw ∧ overlay = tableOverlay libraries raw := by
  have noKeys : (OrderedMap.empty : OrderedMap EnvironmentName String).keys =
      [] := rfl
  have noNames : (OrderedMap.empty : OrderedSet EnvironmentName).keys = [] :=
    rfl
  have setNames : raw.set.entries.map
      (fun entry => overlayName libraries entry.1) =
        raw.set.keys.map (overlayName libraries) := by
    rw [OrderedMap.keys, List.map_map]
    rfl
  unfold RawEnvironment.intoOverlay
  simp only [bind_eq_ok_iff, insertSet_all, insertUnset_all, noKeys, noNames,
    List.append_nil, setNames]
  constructor
  · rintro ⟨_, ⟨good, setDistinct, rfl⟩, _, ⟨names, unsetDistinct, rfl⟩,
      overlay⟩
    cases overlay
    refine ⟨⟨fun entry hmem => (good entry hmem).1, ?_, ?_⟩, rfl⟩
    · intro name hmem
      rcases List.mem_append.mp hmem with hmem | hmem
      · obtain ⟨entry, hentry, rfl⟩ := List.mem_map.mp hmem
        exact (good entry hentry).2
      · exact (names name hmem).1
    · rw [← nodup_overlayName, List.map_append]
      refine List.nodup_append.mpr ⟨setDistinct, unsetDistinct, ?_⟩
      rintro name hset _ hunset rfl
      obtain ⟨rawName, hmem, rfl⟩ := List.mem_map.mp hunset
      exact (names rawName hmem).2 ((mem_tableOverlay_set setDistinct).mpr hset)
  · rintro ⟨⟨values, names, distinct⟩, rfl⟩
    rw [← nodup_overlayName, List.map_append, List.nodup_append] at distinct
    obtain ⟨setDistinct, unsetDistinct, disjoint⟩ := distinct
    refine ⟨_, ⟨fun entry hmem => ⟨values entry hmem, ?_⟩, setDistinct, rfl⟩,
      _, ⟨fun name hmem => ⟨?_, fun hset => ?_⟩, unsetDistinct, rfl⟩, rfl⟩
    · exact names entry.1 (List.mem_append_left _ (List.mem_map_of_mem hmem))
    · exact names name (List.mem_append_right _ hmem)
    · exact disjoint _ ((mem_tableOverlay_set setDistinct).mp hset) _
        (List.mem_map_of_mem hmem) rfl

end Susm.Config
