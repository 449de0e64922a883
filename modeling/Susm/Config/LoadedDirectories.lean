import Susm.Config.Loader
import Susm.Foundation.Successive

/-!
# What is loaded from a directory

What a successful load says of the directory: of one that others may change
meanwhile, and of one that nobody changes.
-/

namespace Susm.Config

open Susm.Foundation
open Susm.Domain
open Susm.Installer

section

variable (libraries : Libraries) (parse : String → Except String RawDefinition)
  (history : History) (root : Path)

structure Seen (folder : Folder) (name : OsString)
    (item : String × FileSnapshot) : Prop where
  path : item.2.path = root ++ [name]
  filename : toStr name = some item.1
  regular : ∃ metadata, folder.metadata (root ++ [name]) = .ok metadata ∧
    metadata.isFile = true ∧ metadata.isSymlink = false ∧
    metadata.len ≤ maxFileBytes ∧ metadata.len = item.2.size ∧
    metadata.modified = .ok item.2.modified

structure Holds (folder : Folder) (snapshot : FileSnapshot)
    (entry : WorkloadId × WorkloadDefinition) : Prop where
  id : identify snapshot.path = .ok entry.1
  contents : ∃ bytes, folder.read snapshot.path = .ok bytes ∧
    bytes.length = snapshot.size ∧
    define libraries parse snapshot.path entry.1 bytes = .ok entry.2

def definitionNames (names : List OsString) : List OsString :=
  names.filter fun name => isDefinition (root ++ [name])

def foldedName (item : String × FileSnapshot) : String :=
  libraries.toUppercase item.1

def normalizedId (entry : WorkloadId × WorkloadDefinition) : String :=
  toAsciiLowercase entry.1.value

structure Listed (calls : Nat) (names : List OsString)
    (items : List (String × FileSnapshot)) : Prop where
  listed : (history calls).readDir = .ok (names.map .ok)
  seen : Successive (fun moment => Seen root (history moment)) (calls + 1)
    (definitionNames root names) items
  distinct : (items.map (foldedName libraries)).Nodup

end

variable {libraries : Libraries} {parse : String → Except String RawDefinition}
  {history : History} {root : Path}

/-! ## One call -/

theorem snapshotOf_eq_ok {path : Path} {name : OsString} {folder : Folder}
    {folded : List String} {item : String × FileSnapshot}
    (hpath : path = root ++ [name]) :
    snapshotOf libraries path name folder folded = .ok item ↔
      Seen root folder name item ∧ foldedName libraries item ∉ folded := by
  subst hpath
  obtain ⟨filename, path, size, modified⟩ := item
  simp only [snapshotOf, bind_eq_ok_iff, mapError_eq_ok, failIf_eq_ok,
    orError_eq_ok, pure, Except.pure, Except.ok.injEq, Prod.mk.injEq,
    FileSnapshot.mk.injEq, not_or, Bool.not_eq_false, Bool.not_eq_true,
    not_lt]
  constructor
  · rintro ⟨metadata, found, -, ⟨file, direct⟩, -, small, _, named, -, fresh, _,
      modified, rfl, rfl, rfl, rfl⟩
    exact ⟨⟨rfl, named, metadata, found, file, direct, small, rfl, modified⟩,
      fresh⟩
  · rintro ⟨⟨rfl, named, metadata, found, file, direct, small, rfl, modified⟩,
      fresh⟩
    exact ⟨metadata, found, (), ⟨file, direct⟩, (), small, _, named, (), fresh,
      _, modified, rfl, rfl, rfl, rfl⟩

theorem definitionNames_cons (name : OsString) (names : List OsString) :
    definitionNames root (name :: names) =
      if isDefinition (root ++ [name]) = true then
        name :: definitionNames root names
      else definitionNames root names :=
  List.filter_cons

theorem enumerateEntries_eq_ok {entries : List (Except IoError OsString)}
    {calls last : Nat} {snapshots result : Snapshots} {folded : List String} :
    enumerateEntries libraries history root entries calls snapshots folded =
        .ok (result, last) ↔
      ∃ names items, entries = names.map .ok ∧
        Successive (fun moment => Seen root (history moment)) calls
          (definitionNames root names) items ∧
        (items.map (foldedName libraries)).Nodup ∧
        (∀ item ∈ items, foldedName libraries item ∉ folded) ∧
        result = snapshots.insertAll items ∧ last = calls + items.length := by
  induction entries generalizing calls snapshots folded with
  | nil =>
      rw [enumerateEntries, Except.ok.injEq, Prod.mk.injEq]
      constructor
      · rintro ⟨rfl, rfl⟩
        exact ⟨[], [], rfl, .nil, .nil, nofun, rfl, rfl⟩
      · rintro ⟨names, items, same, seen, -, -, rfl, rfl⟩
        cases List.map_eq_nil_iff.mp same.symm
        cases Successive.nil_left_iff.mp seen
        exact ⟨rfl, rfl⟩
  | cons entry entries ih =>
      cases entry with
      | error source =>
          constructor
          · nofun
          · rintro ⟨_ | ⟨name, names⟩, items, same, -⟩ <;> cases same
      | ok name =>
          rw [enumerateEntries]
          dsimp only
          split
          · rename_i hdefinition
            rw [bind_eq_ok_iff]
            constructor
            · rintro ⟨item, first, rest⟩
              obtain ⟨seen, fresh⟩ := (snapshotOf_eq_ok rfl).mp first
              obtain ⟨names, items, rfl, later, distinct, apart, rfl, rfl⟩ :=
                ih.mp rest
              obtain ⟨distinct, apart⟩ :=
                fresh_cons.mpr ⟨fresh, distinct, apart⟩
              refine ⟨name :: names, item :: items, rfl, ?_, distinct, apart,
                rfl, ?_⟩
              · rw [definitionNames_cons, if_pos hdefinition]
                exact .cons seen later
              · rw [List.length_cons]
                omega
            · rintro ⟨_ | ⟨first, names⟩, items, same, seen, distinct, apart,
                rfl, rfl⟩
              · cases same
              · cases same
                rw [definitionNames_cons, if_pos hdefinition,
                  Successive.cons_left_iff] at seen
                obtain ⟨item, items, rfl, seen, later⟩ := seen
                obtain ⟨fresh, distinct, apart⟩ :=
                  fresh_cons.mp ⟨distinct, apart⟩
                refine ⟨item, (snapshotOf_eq_ok rfl).mpr ⟨seen, fresh⟩,
                  ih.mpr ⟨names, items, rfl, later, distinct, apart, rfl, ?_⟩⟩
                rw [List.length_cons]
                omega
          · rename_i hother
            rw [ih]
            constructor
            · rintro ⟨names, items, rfl, found⟩
              refine ⟨name :: names, items, rfl, ?_⟩
              rwa [definitionNames_cons, if_neg hother]
            · rintro ⟨_ | ⟨first, names⟩, items, same, found⟩
              · cases same
              · cases same
                rw [definitionNames_cons, if_neg hother] at found
                exact ⟨names, items, rfl, found⟩

theorem enumerate_eq_ok {calls last : Nat} {result : Snapshots} :
    enumerate libraries history root calls = .ok (result, last) ↔
      ∃ names items, Listed libraries history root calls names items ∧
        result = OrderedMap.empty.insertAll items ∧
        last = calls + 1 + items.length := by
  rw [enumerate, bind_eq_ok_iff]
  simp only [mapError_eq_ok, enumerateEntries_eq_ok]
  constructor
  · rintro ⟨_, listed, names, items, rfl, seen, distinct, -, rfl, rfl⟩
    exact ⟨names, items, ⟨listed, seen, distinct⟩, rfl, rfl⟩
  · rintro ⟨names, items, ⟨listed, seen, distinct⟩, rfl, rfl⟩
    exact ⟨_, listed, names, items, rfl, seen, distinct, by simp, rfl, rfl⟩

theorem rejectDuplicate_eq_ok {sources : List (String × Path)} {id : String}
    {path : Path} {done : Unit} :
    rejectDuplicate sources id path = .ok done ↔
      id ∉ sources.map Prod.fst := by
  have absent : sources.lookup id = none ↔ id ∉ sources.map Prod.fst := by
    rw [List.lookup_eq_none_iff]
    simp only [List.mem_map, not_exists, not_and, bne_iff_ne, ne_eq]
    exact ⟨fun h source hmem same => h source hmem same.symm,
      fun h source hmem same => h source hmem same.symm⟩
  unfold rejectDuplicate
  split <;> simp_all

theorem loadEntries_eq_ok {snapshots : List FileSnapshot} {calls last : Nat}
    {definitions result : Definitions} {sources : List (String × Path)} :
    loadEntries libraries parse history snapshots calls definitions sources =
        .ok (result, last) ↔
      ∃ entries,
        Successive (fun moment => Holds libraries parse (history moment)) calls
          snapshots entries ∧
        (entries.map normalizedId).Nodup ∧
        (∀ entry ∈ entries, normalizedId entry ∉ sources.map Prod.fst) ∧
        result = definitions.insertAll entries ∧
        last = calls + snapshots.length := by
  induction snapshots generalizing calls definitions sources with
  | nil =>
      rw [loadEntries, Except.ok.injEq, Prod.mk.injEq]
      constructor
      · rintro ⟨rfl, rfl⟩
        exact ⟨[], .nil, .nil, nofun, rfl, rfl⟩
      · rintro ⟨entries, holds, -, -, rfl, rfl⟩
        cases Successive.nil_left_iff.mp holds
        exact ⟨rfl, rfl⟩
  | cons snapshot snapshots ih =>
      rw [loadEntries]
      simp only [bind_eq_ok_iff, rejectDuplicate_eq_ok, mapError_eq_ok,
        failIf_eq_ok, ne_eq, not_not]
      constructor
      · rintro ⟨id, hid, -, fresh, bytes, read, -, size, definition, defines,
          rest⟩
        obtain ⟨entries, later, distinct, apart, rfl, rfl⟩ := ih.mp rest
        have holds : Holds libraries parse (history calls) snapshot
            (id, definition) := ⟨hid, bytes, read, size, defines⟩
        have once := @fresh_cons _ _ normalizedId (id, definition) entries
          (sources.map Prod.fst)
        obtain ⟨distinct, apart⟩ := once.mpr ⟨fresh, distinct, apart⟩
        refine ⟨(id, definition) :: entries, .cons holds later, distinct,
          apart, rfl, ?_⟩
        rw [List.length_cons]
        omega
      · rintro ⟨entries, holds, distinct, apart, rfl, rfl⟩
        obtain ⟨⟨id, definition⟩, entries, rfl, holds, later⟩ :=
          Successive.cons_left_iff.mp holds
        obtain ⟨hid, bytes, read, size, defines⟩ := holds
        obtain ⟨fresh, distinct, apart⟩ := fresh_cons.mp ⟨distinct, apart⟩
        refine ⟨id, hid, (), fresh, bytes, read, (), size, definition,
          defines, ih.mpr ⟨entries, later, distinct, apart, rfl, ?_⟩⟩
        rw [List.length_cons]
        omega

/-! ## The directory as a whole -/

def sizes (items : List (String × FileSnapshot)) : List Nat :=
  items.map fun item => item.2.size

theorem foldlM_sizes {items : List (String × FileSnapshot)} {start : Nat}
    (fits : start < 2 ^ 64) {total : Nat} :
    items.foldlM (fun total item => checked (2 ^ 64) (total + item.2.size))
        start = some total ↔
      total = start + (sizes items).sum ∧ total < 2 ^ 64 := by
  induction items generalizing start with
  | nil =>
      have h : start = total ↔ total = start ∧ total < 2 ^ 64 :=
        ⟨fun same => ⟨same.symm, same ▸ fits⟩, fun same => same.1.symm⟩
      simpa [sizes, pure] using h
  | cons item items ih =>
      rw [List.foldlM_cons, Option.bind_eq_bind, Option.bind_eq_some_iff]
      have sum : (sizes (item :: items)).sum =
          item.2.size + (sizes items).sum := rfl
      simp only [checked_eq_some_iff]
      constructor
      · rintro ⟨next, ⟨hnext, rfl⟩, rest⟩
        obtain ⟨rfl, htotal⟩ := (ih hnext).mp rest
        exact ⟨by omega, htotal⟩
      · rintro ⟨rfl, htotal⟩
        exact ⟨_, ⟨by omega, rfl⟩, (ih (by omega)).mpr ⟨by omega, htotal⟩⟩

theorem totalBytes_le {snapshots : Snapshots} :
    (∃ total, totalBytes snapshots = some total ∧ total ≤ maxTotalBytes) ↔
      (sizes snapshots.entries).sum ≤ maxTotalBytes := by
  simp only [totalBytes, foldlM_sizes (show 0 < 2 ^ 64 by decide), Nat.zero_add]
  constructor
  · rintro ⟨total, ⟨rfl, -⟩, small⟩
    exact small
  · intro small
    refine ⟨_, ⟨rfl, small.trans_lt ?_⟩, small⟩
    decide

/-- What both listings and the reads of a successful load have given. -/
structure Loaded (libraries : Libraries)
    (parse : String → Except String RawDefinition) (history : History)
    (root : Path) (names again : List OsString)
    (items others : List (String × FileSnapshot))
    (entries : List (WorkloadId × WorkloadDefinition))
    (candidate : CandidateConfig) : Prop where
  present : (history 0).tryExists = .ok true
  first : Listed libraries history root 1 names items
  few : items.length ≤ maxWorkloadFiles
  small : (sizes items).sum ≤ maxTotalBytes
  holds : Successive (fun moment => Holds libraries parse (history moment))
    (2 + items.length)
    ((OrderedMap.empty.insertAll items).entries.map Prod.snd) entries
  ids : (entries.map normalizedId).Nodup
  second : Listed libraries history root
    (2 + items.length + items.length) again others
  same : (OrderedMap.empty : Snapshots).insertAll items =
    OrderedMap.empty.insertAll others
  definitions : candidate.definitions = OrderedMap.empty.insertAll entries
  generation : configGeneration libraries.sha256 candidate.definitions =
    some candidate.generation

theorem Listed.perm {calls : Nat} {names : List OsString}
    {items : List (String × FileSnapshot)}
    (listed : Listed libraries history root calls names items) :
    (OrderedMap.empty.insertAll items).entries.Perm items := by
  refine OrderedMap.perm_insertAll_empty ?_
  have distinct := listed.distinct
  have folded : items.map (foldedName libraries) =
      (items.map Prod.fst).map libraries.toUppercase := by
    rw [List.map_map]
    rfl
  rw [folded] at distinct
  exact distinct.of_map

theorem Listed.length_eq {calls : Nat} {names : List OsString}
    {items : List (String × FileSnapshot)}
    (listed : Listed libraries history root calls names items) :
    (OrderedMap.empty.insertAll items).entries.length = items.length :=
  listed.perm.length_eq

theorem Listed.sum_eq {calls : Nat} {names : List OsString}
    {items : List (String × FileSnapshot)}
    (listed : Listed libraries history root calls names items) :
    (sizes (OrderedMap.empty.insertAll items).entries).sum =
      (sizes items).sum :=
  (listed.perm.map _).sum_nat

theorem loadDirectory_eq_ok {candidate : CandidateConfig} :
    loadDirectory libraries parse history root = .ok candidate ↔
      ∃ names again items others entries, Loaded libraries parse history root
        names again items others entries candidate := by
  obtain ⟨generation, definitions⟩ := candidate
  rw [loadDirectory]
  simp only [bind_eq_ok_iff, mapError_eq_ok, failIf_eq_ok, orError_eq_ok]
  constructor
  · rintro ⟨present, hpresent, -, isPresent, ⟨snapshots, calls⟩, first, -, few,
      total, htotal, -, small, ⟨loaded, last⟩, rest, ⟨again, final⟩, second, -,
      same, hash, hhash, ⟨⟩⟩
    obtain ⟨names, items, listed, rfl, rfl⟩ := enumerate_eq_ok.mp first
    obtain ⟨entries, holds, ids, -, rfl, rfl⟩ := loadEntries_eq_ok.mp rest
    obtain ⟨others, otherItems, listedAgain, rfl, -⟩ :=
      enumerate_eq_ok.mp second
    have sum := totalBytes_le.mp ⟨total, htotal, not_lt.mp small⟩
    rw [List.length_map, listed.length_eq] at listedAgain
    refine ⟨names, others, items, otherItems, entries, ?_, listed, ?_, ?_,
      holds, ids, listedAgain, not_not.mp same, rfl, hhash⟩
    · rw [hpresent, Bool.eq_true_of_not_eq_false isPresent]
    · exact listed.length_eq ▸ not_lt.mp few
    · exact listed.sum_eq ▸ sum
  · rintro ⟨names, again, items, others, entries, loaded⟩
    obtain ⟨present, first, few, small, holds, ids, second, same, rfl, hash⟩ :=
      loaded
    obtain ⟨total, htotal, small⟩ := totalBytes_le.mpr
      (first.sum_eq.symm ▸ small)
    refine ⟨true, present, (), Bool.noConfusion, (_, _),
      enumerate_eq_ok.mpr ⟨names, items, first, rfl, rfl⟩, (), ?_, total,
      htotal, (), not_lt.mpr small, (_, _),
      loadEntries_eq_ok.mpr ⟨entries, holds, ids, by simp, rfl, rfl⟩, (_, _),
      enumerate_eq_ok.mpr ⟨again, others, ?_, rfl, rfl⟩, (), not_not.mpr same,
      generation, hash, rfl⟩
    · exact not_lt.mpr (first.length_eq.symm ▸ few)
    · rw [List.length_map, first.length_eq]
      exact second

end Susm.Config
