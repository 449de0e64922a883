import Susm.Foundation.EventMachine
import Susm.Supervisor.ExecutableLookup
import Susm.Supervisor.Interpolation

/-!
# Preflight

The launch plan of an execution: the working directory, the executable and the
environment, resolved against a fresh environment of the user.  The variables
of the overlay are expanded in that environment and never in one another.
-/

namespace Susm.Supervisor

open Susm.Foundation
open Susm.Protocol

section Preflight

variable (uppercase : Char → List Char)

def setVariable (base environment : Map String String)
    (value : EnvironmentValue) : Except RunError (Map String String) :=
  (expand uppercase base value.value).map fun expanded =>
    environment.insert (toUppercase uppercase value.name.toList) expanded

def setVariables (base : Map String String) (values : List EnvironmentValue) :
    Except RunError (Map String String) :=
  values.foldlM (setVariable uppercase base) base

def unsetVariables (environment : Map String String) (names : List String) :
    Map String String :=
  names.foldl (fun environment name =>
    environment.erase (toUppercase uppercase name.toList)) environment

def overlayEnvironment (base : Map String String)
    (values : List EnvironmentValue) (names : List String) :
    Except RunError (Map String String) :=
  (setVariables uppercase base values).map fun environment =>
    unsetVariables uppercase environment names

structure ResolvedPlan where
  executable : PathText
  workingDirectory : PathText
  environment : Map String String

def preflightConfiguration (paths : PathFunctions)
    (isFile isDir : PathText → Bool)
    (freshEnvironment : Except RunError (Map String String))
    (configuration : ExecutionConfiguration) :
    Except RunError ResolvedPlan := do
  let base ← freshEnvironment
  let workingDirectory ← expand uppercase base configuration.workingDirectory
  if !paths.isAbsolute workingDirectory.toList ||
      !isDir workingDirectory.toList then
    .error (.preflight
      s!"working directory is not an existing absolute directory: {workingDirectory}")
  else do
    let executableValue ← expand uppercase base configuration.executable
    let executable ← resolveExecutable paths isFile executableValue.toList
      workingDirectory.toList base
    let environment ← overlayEnvironment uppercase base
      configuration.environmentSet configuration.environmentUnset
    return ⟨executable, workingDirectory.toList, environment⟩

end Preflight

/-! ## The steps of the overlay -/

section Steps

variable {uppercase : Char → List Char}
  {base environment final : Map String String}

abbrev variableOf (uppercase : Char → List Char) (name : String) : String :=
  toUppercase uppercase name.toList

theorem setVariable_eq_ok {value : EnvironmentValue} :
    setVariable uppercase base environment value = .ok final ↔
      ∃ expanded, expand uppercase base value.value = .ok expanded ∧
        final = environment.insert (variableOf uppercase value.name)
          expanded := by
  unfold setVariable
  cases expand uppercase base value.value with
  | error error => exact ⟨nofun, fun ⟨_, h, _⟩ => nomatch h⟩
  | ok expanded =>
      constructor
      · rintro h
        cases h
        exact ⟨expanded, rfl, rfl⟩
      · rintro ⟨_, h, rfl⟩
        cases h
        rfl

theorem setVariables_lookup {values : List EnvironmentValue}
    (distinct : (values.map fun value =>
      variableOf uppercase value.name).Nodup)
    (set : values.foldlM (setVariable uppercase base) environment =
      .ok final) :
    (∀ value ∈ values, ∃ expanded,
      expand uppercase base value.value = .ok expanded ∧
        final.lookup (variableOf uppercase value.name) = some expanded) ∧
    ∀ key, (key ∉ values.map fun value => variableOf uppercase value.name) →
      final.lookup key = environment.lookup key := by
  induction values generalizing environment with
  | nil =>
      cases set
      exact ⟨List.forall_mem_nil _, fun _ _ => rfl⟩
  | cons value values ih =>
      rw [List.foldlM_cons, bind_eq_ok_iff] at set
      obtain ⟨next, first, rest⟩ := set
      obtain ⟨expanded, hexpand, rfl⟩ := setVariable_eq_ok.mp first
      rw [List.map_cons, List.nodup_cons] at distinct
      obtain ⟨absent, distinct⟩ := distinct
      obtain ⟨later, kept⟩ := ih distinct rest
      refine ⟨List.forall_mem_cons.mpr ⟨⟨expanded, hexpand, ?_⟩, later⟩, ?_⟩
      · rw [kept _ absent, AList.lookup_insert]
      · intro key hkey
        rw [List.map_cons, List.mem_cons, not_or] at hkey
        rw [kept key hkey.2, AList.lookup_insert_ne hkey.1]

theorem setVariables_isOk {values : List EnvironmentValue} :
    (∃ final, values.foldlM (setVariable uppercase base) environment =
      .ok final) ↔
      ∀ value ∈ values, ∃ expanded,
        expand uppercase base value.value = .ok expanded := by
  induction values generalizing environment with
  | nil => exact ⟨fun _ => List.forall_mem_nil _, fun _ => ⟨environment, rfl⟩⟩
  | cons value values ih =>
      simp only [List.foldlM_cons, bind_eq_ok_iff, List.forall_mem_cons]
      constructor
      · rintro ⟨final, next, first, rest⟩
        obtain ⟨expanded, hexpand, rfl⟩ := setVariable_eq_ok.mp first
        exact ⟨⟨expanded, hexpand⟩, ih.mp ⟨final, rest⟩⟩
      · rintro ⟨⟨expanded, hexpand⟩, later⟩
        obtain ⟨final, rest⟩ := ih.mpr later
        exact ⟨final, _, setVariable_eq_ok.mpr ⟨expanded, hexpand, rfl⟩, rest⟩

theorem unsetVariables_lookup (names : List String) (key : String) :
    (unsetVariables uppercase environment names).lookup key =
      if key ∈ names.map (variableOf uppercase) then none
      else environment.lookup key := by
  unfold unsetVariables
  induction names generalizing environment with
  | nil => simp
  | cons name names ih =>
      rw [List.foldl_cons, ih, Map.lookup_erase_eq]
      by_cases hname : key = variableOf uppercase name
      · simp [hname]
      · simp [hname]

theorem preflightConfiguration_environment {paths : PathFunctions}
    {isFile isDir : PathText → Bool} {configuration : ExecutionConfiguration}
    {plan : ResolvedPlan}
    (resolved : preflightConfiguration uppercase paths isFile isDir (.ok base)
      configuration = .ok plan) :
    overlayEnvironment uppercase base configuration.environmentSet
      configuration.environmentUnset = .ok plan.environment := by
  unfold preflightConfiguration at resolved
  obtain ⟨_, fresh, resolved⟩ := bind_eq_ok_iff.mp resolved
  cases fresh
  obtain ⟨workingDirectory, -, resolved⟩ := bind_eq_ok_iff.mp resolved
  split at resolved
  · cases resolved
  · obtain ⟨value, -, resolved⟩ := bind_eq_ok_iff.mp resolved
    obtain ⟨executable, -, resolved⟩ := bind_eq_ok_iff.mp resolved
    obtain ⟨environment, overlay, resolved⟩ := bind_eq_ok_iff.mp resolved
    cases resolved
    exact overlay

end Steps

end Susm.Supervisor
