import Susm.Config.Overlay
import Susm.Controller.DefinitionSnapshot
import Susm.Supervisor.Preflight

/-!
# Environment overlays

From the table in a file over the lists of a snapshot to the environment of a
process.  The names are compared in upper case on both sides.
-/

namespace Susm.Controller

open Susm.Foundation
open Susm.Domain
open Susm.Protocol
open Susm.Config
open Susm.Supervisor

/-! ## The lists of a snapshot -/

section Snapshot

variable (snapshot : ExecutionConfiguration)

/-- The variables of two configurations agree. -/
structure SameEnvironment (first second : ExecutionConfiguration) : Prop where
  set : first.environmentSet = second.environmentSet
  unset : first.environmentUnset = second.environmentUnset

theorem applyLogging_environment (logging : LoggingPolicy) :
    SameEnvironment (applyLogging snapshot logging) snapshot := by
  rcases logging with _ | ⟨size, age, retentionSize, retentionAge⟩
  · exact ⟨rfl, rfl⟩
  · cases retentionSize <;> cases retentionAge <;> exact ⟨rfl, rfl⟩

theorem applyStop_environment (stop : StopDefinition) :
    SameEnvironment (applyStop snapshot stop) snapshot := by
  cases stop <;> exact ⟨rfl, rfl⟩

theorem applyRestart_environment (restart : ExecutionRestartPolicy) :
    SameEnvironment (applyRestart snapshot restart) snapshot := by
  rcases restart with (_ | policy | policy) | (_ | policy) <;>
    try exact ⟨rfl, rfl⟩
  · simp only [applyRestart, applyServiceRetry]
    cases policy.limit <;> exact ⟨rfl, rfl⟩
  · simp only [applyRestart, applyServiceRetry]
    cases policy.limit <;> exact ⟨rfl, rfl⟩

end Snapshot

theorem definitionSnapshot_environment (host : Host)
    (definition : WorkloadDefinition) :
    SameEnvironment (definitionSnapshot host definition)
      (processSnapshot definition) := by
  obtain ⟨set, unset⟩ := applyLogging_environment
    (applyStop (applyRestart (processSnapshot definition) definition.restart)
      definition.stop) definition.logging
  obtain ⟨set', unset'⟩ := applyStop_environment
    (applyRestart (processSnapshot definition) definition.restart)
    definition.stop
  obtain ⟨set'', unset''⟩ := applyRestart_environment
    (processSnapshot definition) definition.restart
  exact ⟨set.trans (set'.trans set''), unset.trans (unset'.trans unset'')⟩

/-! ## The environment of a process -/

/-- Every variable that is set has its value in the base environment, no unset
variable is there, and the others are as in the base. -/
structure Overlays (uppercase : Char → List Char) (raw : RawEnvironment)
    (base final : Map String String) : Prop where
  set : ∀ entry ∈ raw.set.entries, ∃ value,
    expand uppercase base entry.2 = .ok value ∧
      final.lookup (variableOf uppercase entry.1) = some value
  unset : ∀ name ∈ raw.unset,
    final.lookup (variableOf uppercase name) = none
  rest : ∀ key,
    key ∉ (raw.set.keys ++ raw.unset).map (variableOf uppercase) →
      final.lookup key = base.lookup key

variable {libraries : Libraries} {uppercase : Char → List Char}
  {raw : RawEnvironment}

theorem snapshot_set (same : ∀ name,
      libraries.toUppercase name = variableOf uppercase name)
    (host : Host) {definition : WorkloadDefinition}
    (valid : ValidTable libraries raw)
    (overlay : definition.process.environment = tableOverlay libraries raw) :
    (definitionSnapshot host definition).environmentSet.Perm
      (raw.set.entries.map fun entry =>
        ⟨variableOf uppercase entry.1, entry.2⟩) := by
  have distinct := nodup_overlayName.mpr valid.distinct
  rw [List.map_append, List.nodup_append] at distinct
  rw [(definitionSnapshot_environment host definition).set]
  change (definition.process.environment.set.entries.map _).Perm _
  rw [overlay]
  refine ((tableOverlay_set distinct.1).map _).trans (.of_eq ?_)
  simp [overlayEntry, overlayName, same, Function.comp_def]

theorem snapshot_unset (same : ∀ name,
      libraries.toUppercase name = variableOf uppercase name)
    (host : Host) {definition : WorkloadDefinition}
    (valid : ValidTable libraries raw)
    (overlay : definition.process.environment = tableOverlay libraries raw) :
    (definitionSnapshot host definition).environmentUnset.Perm
      (raw.unset.map (variableOf uppercase)) := by
  have distinct := nodup_overlayName.mpr valid.distinct
  rw [List.map_append, List.nodup_append] at distinct
  rw [(definitionSnapshot_environment host definition).unset]
  change (definition.process.environment.unset.entries.map _).Perm _
  rw [overlay]
  have perm := (tableOverlay_unset distinct.2.1).map EnvironmentName.value
  simpa [OrderedMap.keys, overlayName, same, Function.comp_def] using perm

/-! ## The overlay step -/

section Step

variable {base : Map String String} {values : List EnvironmentValue}
  {names : List String}

/-- What the names of the lists stand for, in upper case once more. -/
structure Lists (uppercase : Char → List Char) (raw : RawEnvironment)
    (values : List EnvironmentValue) (names : List String) : Prop where
  values : values.Perm (raw.set.entries.map fun entry =>
    ⟨variableOf uppercase entry.1, entry.2⟩)
  names : names.Perm (raw.unset.map (variableOf uppercase))

theorem Lists.setNames (lists : Lists uppercase raw values names)
    (idempotent : ∀ name, variableOf uppercase (variableOf uppercase name) =
      variableOf uppercase name) :
    (values.map fun value => variableOf uppercase value.name).Perm
      (raw.set.keys.map (variableOf uppercase)) := by
  refine (lists.values.map _).trans (.of_eq ?_)
  simp [OrderedMap.keys, idempotent, Function.comp_def]

theorem Lists.unsetNames (lists : Lists uppercase raw values names)
    (idempotent : ∀ name, variableOf uppercase (variableOf uppercase name) =
      variableOf uppercase name) :
    (names.map (variableOf uppercase)).Perm
      (raw.unset.map (variableOf uppercase)) := by
  refine (lists.names.map _).trans (.of_eq ?_)
  simp [idempotent, Function.comp_def]

theorem overlayEnvironment_eq_ok {final : Map String String} :
    overlayEnvironment uppercase base values names = .ok final ↔
      ∃ environment, setVariables uppercase base values = .ok environment ∧
        final = unsetVariables uppercase environment names := by
  unfold overlayEnvironment
  cases setVariables uppercase base values with
  | error error => exact ⟨nofun, fun ⟨_, h, _⟩ => nomatch h⟩
  | ok environment =>
      constructor
      · rintro h
        cases h
        exact ⟨environment, rfl, rfl⟩
      · rintro ⟨_, h, rfl⟩
        cases h
        rfl

theorem Lists.overlays (lists : Lists uppercase raw values names)
    (idempotent : ∀ name, variableOf uppercase (variableOf uppercase name) =
      variableOf uppercase name)
    (distinct : ((raw.set.keys ++ raw.unset).map
      (variableOf uppercase)).Nodup) {final : Map String String}
    (step : overlayEnvironment uppercase base values names = .ok final) :
    Overlays uppercase raw base final := by
  rw [List.map_append, List.nodup_append] at distinct
  obtain ⟨setDistinct, -, disjoint⟩ := distinct
  obtain ⟨environment, set, rfl⟩ := overlayEnvironment_eq_ok.mp step
  have setNames := lists.setNames idempotent
  have unsetNames := lists.unsetNames idempotent
  obtain ⟨expanded, kept⟩ :=
    setVariables_lookup (setNames.nodup_iff.mpr setDistinct) set
  have unset : ∀ key, (unsetVariables uppercase environment names).lookup key =
      if key ∈ raw.unset.map (variableOf uppercase) then none
      else environment.lookup key := by
    intro key
    rw [unsetVariables_lookup]
    simp only [unsetNames.mem_iff]
  constructor
  case set =>
    intro entry hmem
    obtain ⟨value, hvalue, hlookup⟩ := expanded
      ⟨variableOf uppercase entry.1, entry.2⟩
      (lists.values.mem_iff.mpr (List.mem_map_of_mem hmem))
    refine ⟨value, hvalue, ?_⟩
    rw [idempotent] at hlookup
    rw [unset, if_neg, hlookup]
    intro hunset
    exact disjoint _ (List.mem_map_of_mem (List.mem_map_of_mem hmem)) _
      hunset rfl
  case unset =>
    intro name hmem
    rw [unset, if_pos (List.mem_map_of_mem hmem)]
  case rest =>
    intro key hkey
    rw [List.map_append, List.mem_append, not_or] at hkey
    rw [unset, if_neg hkey.2, kept key]
    exact fun hset => hkey.1 (setNames.mem_iff.mp hset)

theorem Lists.isOk (lists : Lists uppercase raw values names) :
    (∃ final, overlayEnvironment uppercase base values names = .ok final) ↔
      ∀ entry ∈ raw.set.entries, ∃ value,
        expand uppercase base entry.2 = .ok value := by
  have expands : (∀ value ∈ values, ∃ expanded,
      expand uppercase base value.value = .ok expanded) ↔
      ∀ entry ∈ raw.set.entries, ∃ value,
        expand uppercase base entry.2 = .ok value := by
    simp only [lists.values.mem_iff, List.forall_mem_map]
  rw [← expands, ← setVariables_isOk]
  constructor
  · rintro ⟨final, step⟩
    obtain ⟨environment, set, -⟩ := overlayEnvironment_eq_ok.mp step
    exact ⟨environment, set⟩
  · rintro ⟨environment, set⟩
    exact ⟨_, overlayEnvironment_eq_ok.mpr ⟨environment, set, rfl⟩⟩

end Step

/-! ## From the table to the environment -/

/-- What becomes of an accepted table, in whatever order a snapshot lists the
variables. -/
structure OverlayFollows (uppercase : Char → List Char) (raw : RawEnvironment)
    (base : Map String String) (values : List EnvironmentValue)
    (names : List String) : Prop where
  succeeds : (∃ final,
      overlayEnvironment uppercase base values names = .ok final) ↔
    ∀ entry ∈ raw.set.entries, ∃ value,
      expand uppercase base entry.2 = .ok value
  overlays : ∀ final,
    overlayEnvironment uppercase base values names = .ok final →
      Overlays uppercase raw base final
  plan : ∀ (paths : PathFunctions) (isFile isDir : PathText → Bool)
      (configuration : ExecutionConfiguration) (plan : ResolvedPlan),
    configuration.environmentSet = values →
    configuration.environmentUnset = names →
    preflightConfiguration uppercase paths isFile isDir (.ok base)
      configuration = .ok plan →
    Overlays uppercase raw base plan.environment

theorem environment_overlay
    (same : ∀ name, libraries.toUppercase name = variableOf uppercase name)
    (idempotent : ∀ name, variableOf uppercase (variableOf uppercase name) =
      variableOf uppercase name) (raw : RawEnvironment) :
    ((∃ overlay, raw.intoOverlay libraries = .ok overlay) ↔
      ValidTable libraries raw) ∧
    ∀ (host : Host) (definition : WorkloadDefinition)
      (base : Map String String) (values : List EnvironmentValue)
      (names : List String),
      raw.intoOverlay libraries = .ok definition.process.environment →
      values.Perm (definitionSnapshot host definition).environmentSet →
      names.Perm (definitionSnapshot host definition).environmentUnset →
      OverlayFollows uppercase raw base values names := by
  simp only [intoOverlay_eq_ok]
  constructor
  · exact ⟨fun ⟨_, valid, _⟩ => valid, fun valid => ⟨_, valid, rfl⟩⟩
  · rintro host definition base values names ⟨valid, overlay⟩ hvalues hnames
    have lists : Lists uppercase raw values names :=
      ⟨hvalues.trans (snapshot_set same host valid overlay),
        hnames.trans (snapshot_unset same host valid overlay)⟩
    have distinct := valid.distinct
    rw [List.map_congr_left fun name _ => same name] at distinct
    constructor
    case succeeds => exact lists.isOk
    case overlays => exact fun final => lists.overlays idempotent distinct
    case plan =>
      rintro paths isFile isDir configuration plan rfl rfl resolved
      exact lists.overlays idempotent distinct
        (preflightConfiguration_environment resolved)

/-! ## A table with names in both cases -/

def asciiLibraries : Libraries :=
  { sampleLibraries with toUppercase := variableOf asciiUppercase }

def pathTable : RawEnvironment where
  set := ⟨[("Path", "${PATH};C:\\tools"), ("rust_log", "info")], by decide⟩
  unset := ["Tmp"]

theorem toUpper_toUpper (character : Char) :
    character.toUpper.toUpper = character.toUpper := by
  have upper : ¬ ('a'.val ≤ character.toUpper.val ∧
      character.toUpper.val ≤ 'z'.val) := by
    unfold Char.toUpper
    split
    · rename_i lower
      simp only [UInt32.le_iff_toNat_le, UInt32.toNat_add] at lower ⊢
      have distance : ('A'.val - 'a'.val).toNat = 4294967264 := by decide
      have first : 'a'.val.toNat = 97 := by decide
      have last : 'z'.val.toNat = 122 := by decide
      omega
    · assumption
  exact dif_neg upper

theorem asciiUppercase_idempotent (name : String) :
    variableOf asciiUppercase (variableOf asciiUppercase name) =
      variableOf asciiUppercase name := by
  have twice (text : List Char) :
      (text.flatMap asciiUppercase).flatMap asciiUppercase =
        text.flatMap asciiUppercase := by
    induction text with
    | nil => rfl
    | cons character text ih =>
        simp only [asciiUppercase, List.flatMap_cons, List.singleton_append,
          toUpper_toUpper] at ih ⊢
        rw [ih]
  simp only [variableOf, toUppercase, String.toList_ofList, twice]

theorem pathTable_valid : ValidTable asciiLibraries pathTable := by
  refine ⟨by decide, ?_, by decide⟩
  intro name hmem
  have names : ∀ name ∈ pathTable.set.keys ++ pathTable.unset,
      name ≠ "" ∧ '=' ∉ name.toList ∧ '\x00' ∉ name.toList := by decide
  obtain ⟨nonempty, equals, null⟩ := names name hmem
  exact ⟨nonempty, equals, null⟩

def pathTool : RawDefinition := { requiredFields with environment := pathTable }

/-- The table changes two of the variables and adds one. -/
def pathBase : Map String String :=
  ((AList.insert "PATH" "C:\\windows" ∅).insert "TMP" "C:\\tmp").insert "OS"
    "Windows_NT"

theorem environment_overlay_path :
    (∃ overlay, pathTable.intoOverlay asciiLibraries = .ok overlay) ∧
      ∃ definition final,
        pathTool.intoDefinition asciiLibraries ⟨"tool"⟩ = .ok definition ∧
        overlayEnvironment asciiUppercase pathBase
          (definitionSnapshot exampleHost definition).environmentSet.reverse
          (definitionSnapshot exampleHost definition).environmentUnset =
            .ok final ∧
        Overlays asciiUppercase pathTable pathBase final := by
  have same : ∀ name, asciiLibraries.toUppercase name =
      variableOf asciiUppercase name := fun _ => rfl
  obtain ⟨accepts, follows⟩ :=
    environment_overlay same asciiUppercase_idempotent pathTable
  obtain ⟨overlay, accepted⟩ := accepts.mpr pathTable_valid
  have defined : (pathTool.intoDefinition asciiLibraries
      ⟨"tool"⟩).toOption.map (fun definition =>
        definition.process.environment) =
      (pathTable.intoOverlay asciiLibraries).toOption := by
    decide +kernel
  rw [accepted] at defined
  obtain ⟨definition, hdefinition, rfl⟩ := Option.map_eq_some_iff.mp defined
  have expands : ∀ entry ∈ pathTable.set.entries,
      (expand asciiUppercase pathBase entry.2).toOption.isSome = true := by
    decide +kernel
  have overlays := follows exampleHost definition pathBase _ _ accepted
    (List.reverse_perm _) (List.Perm.refl _)
  obtain ⟨final, step⟩ := overlays.succeeds.mpr fun entry hmem => by
    obtain ⟨value, h⟩ := Option.isSome_iff_exists.mp (expands entry hmem)
    exact ⟨value, toOption_eq_some.mp h⟩
  exact ⟨⟨_, accepted⟩, definition, final,
    toOption_eq_some.mp hdefinition, step, overlays.overlays final step⟩

end Susm.Controller
