import Susm.Config.Defaults
import Susm.Config.LoadedDirectories

/-!
# The directory that was loaded

A load gives definitions that were there together at one moment although it reads
one file after the other, and of a directory that nobody changes it gives what
the files say, whatever the order in which they are listed.
-/

namespace Susm.Config

open Susm.Foundation
open Susm.Domain
open Susm.Installer

variable {libraries : Libraries} {parse : String → Except String RawDefinition}
  {history : History} {root : Path} {candidate : CandidateConfig}

theorem nodup_ids {entries : List (WorkloadId × WorkloadDefinition)}
    (ids : (entries.map normalizedId).Nodup) :
    (entries.map Prod.fst).Nodup := by
  have normalized : entries.map normalizedId =
      (entries.map Prod.fst).map fun id => toAsciiLowercase id.value := by
    rw [List.map_map]
    rfl
  rw [normalized] at ids
  exact ids.of_map

/-! ## A directory that changes -/

/-- The snapshot of a file is the same at two moments. -/
def SameStamp (before after : Metadata) : Prop :=
  before.len = after.len ∧
    ∃ modified, before.modified = .ok modified ∧ after.modified = .ok modified

/-- Who changes a file changes its size or the time of its modification, and
does not set them back: between equal stamps the contents are the same. -/
def Stamped (history : History) : Prop :=
  ∀ (path : Path) (first between last : Nat) (before after : Metadata),
    first ≤ between → between ≤ last →
    (history first).metadata path = .ok before →
    (history last).metadata path = .ok after → SameStamp before after →
    (history between).read path = (history last).read path

def FileDefines (libraries : Libraries)
    (parse : String → Except String RawDefinition) (folder : Folder)
    (path : Path) (entry : WorkloadId × WorkloadDefinition) : Prop :=
  identify path = .ok entry.1 ∧ ∃ bytes, folder.read path = .ok bytes ∧
    define libraries parse path entry.1 bytes = .ok entry.2

/-- A file that is there from the beginning of a listing to the call behind its
last one is listed. -/
def ListsPresent (history : History) (root : Path) : Prop :=
  ∀ (calls : Nat) (names : List OsString) (name : OsString),
    (history calls).readDir = .ok (names.map .ok) →
    (∀ moment, calls ≤ moment → moment ≤ calls + names.length + 1 →
      ∃ metadata, (history moment).metadata (root ++ [name]) = .ok metadata) →
    name ∈ names

/-- What is loaded was there at one moment, and what was always there is loaded. -/
structure Describes (libraries : Libraries)
    (parse : String → Except String RawDefinition) (root : Path)
    (history : History) (moment : Nat) (candidate : CandidateConfig) :
    Prop where
  sound : ∀ entry ∈ candidate.definitions.entries,
    ∃ name, isDefinition (root ++ [name]) = true ∧
      FileDefines libraries parse (history moment) (root ++ [name]) entry
  complete : ∀ name, isDefinition (root ++ [name]) = true →
    (∀ moment, ∃ metadata,
      (history moment).metadata (root ++ [name]) = .ok metadata) →
    ∃ entry ∈ candidate.definitions.entries,
      FileDefines libraries parse (history moment) (root ++ [name]) entry

section

variable {names again : List OsString} {items others : List (String × FileSnapshot)}
  {entries : List (WorkloadId × WorkloadDefinition)}

theorem Loaded.perm_entries (loaded : Loaded libraries parse history root names
    again items others entries candidate) :
    candidate.definitions.entries.Perm entries := by
  rw [loaded.definitions]
  exact OrderedMap.perm_insertAll_empty (nodup_ids loaded.ids)

theorem Loaded.perm_others (loaded : Loaded libraries parse history root names
    again items others entries candidate) : items.Perm others := by
  have second := loaded.second.perm
  rw [← loaded.same] at second
  exact loaded.first.perm.symm.trans second

theorem Loaded.fileDefines (stamped : Stamped history)
    (loaded : Loaded libraries parse history root names again items others
      entries candidate) {item : String × FileSnapshot} {name : OsString}
    {seen read : Nat} {entry : WorkloadId × WorkloadDefinition}
    (hitem : item ∈ items) (late : 2 + items.length + items.length < seen)
    (seenAgain : Seen root (history seen) name item)
    (early : 2 + items.length ≤ read)
    (before : read < 2 + items.length + items.length)
    (holds : Holds libraries parse (history read) item.2 entry) :
    FileDefines libraries parse
      (history (2 + items.length + items.length)) (root ++ [name]) entry := by
  obtain ⟨_, -, first, -, start, hseen⟩ :=
    loaded.first.seen.of_mem_right hitem
  have count := loaded.first.seen.length_eq
  obtain ⟨metadata, found, -, -, -, size, modified⟩ := hseen.regular
  obtain ⟨after, foundAgain, -, -, -, sizeAgain, modifiedAgain⟩ :=
    seenAgain.regular
  have path := seenAgain.path
  rw [← hseen.path] at found
  rw [← path] at foundAgain
  have stamp : SameStamp metadata after :=
    ⟨size.trans sizeAgain.symm, _, modified, modifiedAgain⟩
  -- both moments lie between the two looks at the file
  have atRead := stamped _ first read seen metadata after (by omega) (by omega)
    found foundAgain stamp
  have atListing := stamped _ first (2 + items.length + items.length) seen
    metadata after (by omega) (by omega) found foundAgain stamp
  obtain ⟨id, bytes, contents, -, defines⟩ := holds
  rw [path] at *
  exact ⟨id, bytes, by rw [atListing, ← atRead, contents], defines⟩

end

/-- A directory with two definitions. -/
def sampleRoot : Path := [osString "workloads.d"]

def sampleNames : List OsString :=
  [osString "notes.txt", osString "worker.toml", osString "server.toml"]

def sampleFolder (contents : String) (modified : Nat) : Folder where
  tryExists := .ok true
  readDir := .ok (sampleNames.map .ok)
  metadata path :=
    if path ∈ sampleNames.map fun name => sampleRoot ++ [name] then
      .ok ⟨true, false, (utf8 contents.toList).length, .ok modified⟩
    else .error .notFound
  read path :=
    if path ∈ sampleNames.map fun name => sampleRoot ++ [name] then
      .ok (utf8 contents.toList)
    else .error .notFound

/-- The files are written between the first listing and the first look at one. -/
def sampleHistory (moment : Nat) : Folder :=
  if moment < 2 then sampleFolder "a" 1 else sampleFolder "b" 2

def sampleParse (text : String) : Except String RawDefinition :=
  .ok (if text = "a" then requiredFields
    else { requiredFields with executable := "C:\\tools\\server.exe" })

def sampleLoad (history : History) : CandidateConfig :=
  (loadDirectory sampleLibraries sampleParse history
    sampleRoot).toOption.getD ⟨[], .empty⟩

theorem sampleLoad_loads {history : History}
    (loads : (loadDirectory sampleLibraries sampleParse history
      sampleRoot).toOption.isSome = true) :
    loadDirectory sampleLibraries sampleParse history sampleRoot =
      .ok (sampleLoad history) := by
  obtain ⟨candidate, loaded⟩ := Option.isSome_iff_exists.mp loads
  rw [sampleLoad, loaded]
  exact toOption_eq_some.mp loaded

theorem sampleFolder_modified {contents : String} {modified : Nat}
    {path : Path} {metadata : Metadata}
    (found : (sampleFolder contents modified).metadata path = .ok metadata) :
    metadata.modified = .ok modified := by
  dsimp only [sampleFolder] at found
  split at found
  · cases found
    rfl
  · cases found

theorem sampleHistory_stamped : Stamped sampleHistory := by
  intro path first between last before after early late found foundAgain same
  unfold sampleHistory at *
  obtain ⟨-, modified, hbefore, hafter⟩ := same
  by_cases hfirst : first < 2 <;> by_cases hlast : last < 2
  · rw [if_pos hlast, if_pos (by omega)]
  · rw [if_pos hfirst] at found
    rw [if_neg hlast] at foundAgain
    rw [sampleFolder_modified found] at hbefore
    rw [sampleFolder_modified foundAgain] at hafter
    cases hbefore
    cases hafter
  · omega
  · rw [if_neg hlast, if_neg (by omega)]

theorem sampleFolder_lists {contents : String} {modified : Nat}
    {name : OsString} {metadata : Metadata}
    (found : (sampleFolder contents modified).metadata (sampleRoot ++ [name]) =
      .ok metadata) : name ∈ sampleNames := by
  dsimp only [sampleFolder] at found
  split at found
  · rename_i listed
    obtain ⟨other, hmem, same⟩ := List.mem_map.mp listed
    cases List.append_cancel_left same
    exact hmem
  · cases found

theorem sampleHistory_lists : ListsPresent sampleHistory sampleRoot := by
  intro calls names name listed present
  obtain ⟨metadata, found⟩ := present calls le_rfl (by omega)
  have same : (sampleHistory calls).readDir = .ok (sampleNames.map .ok) := by
    unfold sampleHistory
    split <;> rfl
  rw [same] at listed
  have names : sampleNames = names :=
    (List.map_injective_iff.mpr fun _ _ => Except.ok.inj)
      (Except.ok.inj listed)
  rw [← names]
  unfold sampleHistory at found
  split at found <;> exact sampleFolder_lists found

/--
The files that a listing names are regular and neither too large nor too many,
have names that differ in upper case, and each holds a definition under an id of
its own; these are the definitions.
-/
structure Acceptable (libraries : Libraries)
    (parse : String → Except String RawDefinition) (root : Path)
    (folder : Folder) (names : List OsString)
    (items : List (String × FileSnapshot))
    (entries : List (WorkloadId × WorkloadDefinition))
    (candidate : CandidateConfig) : Prop where
  present : folder.tryExists = .ok true
  listed : folder.readDir = .ok (names.map .ok)
  seen : List.Forall₂ (Seen root folder) (definitionNames root names) items
  distinct : (items.map (foldedName libraries)).Nodup
  few : items.length ≤ maxWorkloadFiles
  small : (sizes items).sum ≤ maxTotalBytes
  holds : List.Forall₂ (Holds libraries parse folder) (items.map Prod.snd)
    entries
  ids : (entries.map normalizedId).Nodup
  definitions : candidate.definitions = OrderedMap.empty.insertAll entries
  generation : configGeneration libraries.sha256 candidate.definitions =
    some candidate.generation

section

variable {folder : Folder} {names again : List OsString}
  {items others : List (String × FileSnapshot)}
  {entries : List (WorkloadId × WorkloadDefinition)}

theorem Loaded.acceptable (loaded : Loaded libraries parse (fun _ => folder)
    root names again items others entries candidate) :
    ∃ entries, Acceptable libraries parse root folder names items entries
      candidate := by
  have read := Successive.const_iff.mp loaded.holds
  have order := loaded.first.perm.symm.map Prod.snd
  obtain ⟨sorted, holds, perm⟩ := List.perm_comp_forall₂ order read
  have ids := ((perm.map normalizedId).nodup_iff).mpr loaded.ids
  refine ⟨sorted, loaded.present, loaded.first.listed,
    Successive.const_iff.mp loaded.first.seen, loaded.first.distinct,
    loaded.few, loaded.small, holds, ids, ?_, loaded.generation⟩
  rw [OrderedMap.insertAll_perm perm (nodup_ids ids)]
  exact loaded.definitions

theorem Acceptable.loaded (acceptable : Acceptable libraries parse root folder
    names items entries candidate) :
    ∃ entries, Loaded libraries parse (fun _ => folder) root names names items
      items entries candidate := by
  have listed : ∀ calls,
      Listed libraries (fun _ => folder) root calls names items := fun calls =>
    ⟨acceptable.listed, Successive.const_iff.mpr acceptable.seen,
      acceptable.distinct⟩
  have order := (listed 1).perm.map Prod.snd
  obtain ⟨sorted, holds, perm⟩ :=
    List.perm_comp_forall₂ order acceptable.holds
  have ids := ((perm.map normalizedId).nodup_iff).mpr acceptable.ids
  refine ⟨sorted, acceptable.present, listed 1, acceptable.few,
    acceptable.small, Successive.const_iff.mpr holds, ids, listed _, rfl, ?_,
    acceptable.generation⟩
  rw [OrderedMap.insertAll_perm perm (nodup_ids ids)]
  exact acceptable.definitions

theorem Acceptable.relisted (acceptable : Acceptable libraries parse root folder
    names items entries candidate) (perm : again.Perm names) :
    ∃ items entries, Acceptable libraries parse root
      { folder with readDir := .ok (again.map .ok) } again items entries
      candidate := by
  have files : (definitionNames root again).Perm (definitionNames root names) :=
    perm.filter _
  obtain ⟨others, seen, order⟩ := List.perm_comp_forall₂ files acceptable.seen
  obtain ⟨read, holds, same⟩ :=
    List.perm_comp_forall₂ (order.map Prod.snd) acceptable.holds
  have ids := ((same.map normalizedId).nodup_iff).mpr acceptable.ids
  refine ⟨others, read, acceptable.present, rfl, ?_, ?_, ?_, ?_, ?_, ids, ?_,
    acceptable.generation⟩
  · exact seen.imp fun _ _ seen => ⟨seen.path, seen.filename, seen.regular⟩
  · exact ((order.map (foldedName libraries)).nodup_iff).mpr acceptable.distinct
  · exact order.length_eq.trans_le acceptable.few
  · have sum : (sizes others).sum = (sizes items).sum := (order.map _).sum_nat
    exact sum.trans_le acceptable.small
  · exact holds.imp fun _ _ holds => ⟨holds.id, holds.contents⟩
  · rw [OrderedMap.insertAll_perm same (nodup_ids ids)]
    exact acceptable.definitions

/--
A directory that nobody changes is loaded exactly when each file in it that is a
definition is acceptable, and then gives what these files hold.
-/
theorem load_unchanged :
    loadDirectory libraries parse (fun _ => folder) root = .ok candidate ↔
      ∃ names items entries, Acceptable libraries parse root folder names items
        entries candidate := by
  rw [loadDirectory_eq_ok]
  constructor
  · rintro ⟨names, again, items, others, entries, loaded⟩
    exact ⟨names, items, loaded.acceptable⟩
  · rintro ⟨names, items, entries, acceptable⟩
    exact ⟨names, names, items, items, acceptable.loaded⟩

/-- The order in which the files are listed makes no difference. -/
theorem load_relisted (perm : names.Perm again) :
    loadDirectory libraries parse
        (fun _ => { folder with readDir := .ok (names.map .ok) }) root =
        .ok candidate ↔
      loadDirectory libraries parse
        (fun _ => { folder with readDir := .ok (again.map .ok) }) root =
        .ok candidate := by
  have oneWay : ∀ {first second : List OsString}, second.Perm first →
      loadDirectory libraries parse
          (fun _ => { folder with readDir := .ok (first.map .ok) }) root =
        .ok candidate →
      loadDirectory libraries parse
          (fun _ => { folder with readDir := .ok (second.map .ok) }) root =
        .ok candidate := by
    intro first second perm success
    obtain ⟨listed, _, items, _, _, loaded⟩ := loadDirectory_eq_ok.mp success
    obtain ⟨entries, acceptable⟩ := loaded.acceptable
    have same : listed = first := by
      have listing := Except.ok.inj acceptable.listed
      exact (List.map_injective_iff.mpr fun _ _ => Except.ok.inj) listing.symm
    subst same
    obtain ⟨others, read, relisted⟩ := acceptable.relisted perm
    obtain ⟨sorted, loaded⟩ := relisted.loaded
    exact loadDirectory_eq_ok.mpr ⟨_, _, _, _, _, loaded⟩
  exact ⟨oneWay perm.symm, oneWay perm⟩

end

theorem load_relisted_sample :
    loadDirectory sampleLibraries sampleParse
        (fun _ => { sampleFolder "b" 2 with
          readDir := .ok (sampleNames.reverse.map .ok) }) sampleRoot =
        .ok (sampleLoad sampleHistory) ↔
      loadDirectory sampleLibraries sampleParse
        (fun _ => { sampleFolder "b" 2 with
          readDir := .ok (sampleNames.map .ok) }) sampleRoot =
        .ok (sampleLoad sampleHistory) :=
  load_relisted sampleNames.reverse_perm

end Susm.Config
