import Mathlib.Data.List.Sort
import Mathlib.Data.String.Basic
import Susm.Foundation.Hex
import Susm.Installer.Files

/-!
# Bundle manifests

What the installer accepts as a bundle: a directory with a manifest and three
executables that are as the manifest declares them.
-/

namespace Susm.Installer

open Susm.Foundation

def requiredFiles : List String :=
  ["susm.exe", "susmd.exe", "susm-supervisor.exe"]

theorem requiredFiles_lengths :
    requiredFiles.Pairwise DifferentLengths := by
  decide

theorem manifest_lengths :
    ∀ name ∈ requiredFiles, DifferentLengths "manifest.toml" name := by
  decide

def maxManifestBytes : Nat := 64 * 1024
def maxFileBytes : Nat := 256 * 1024 * 1024
def maxPayloadBytes : Nat := 768 * 1024 * 1024

structure ManifestFile where
  path : String
  size : UInt64
  sha256 : String
  deriving DecidableEq, Repr

structure Manifest where
  bundleFormat : UInt32
  version : String
  target : String
  protocolMajor : UInt32
  controllerSchemaReadMin : UInt32
  controllerSchemaReadMax : UInt32
  controllerSchemaWrite : UInt32
  supervisorRuntimeFormats : List UInt32
  files : List ManifestFile
  deriving DecidableEq, Repr

structure Selection where
  bundleFormat : UInt32
  version : String
  manifestSha256 : String
  deriving DecidableEq, Repr

/-- A parsed version, of which only the build metadata are looked at. -/
structure Version where
  build : String
  deriving DecidableEq, Repr

/-- The text of an error of the `toml` or the `semver` crate. -/
abbrev ParseError := String

/-- The machine and the crates that the installer and the host are built with:
the architecture, how the volume compares names, SHA-256, the readers of
`toml` and `semver`, and the user's `LOCALAPPDATA`, empty when it is missing. -/
structure Machine where
  architecture : String
  upcase : UInt16 → UInt16
  sha256 : Bytes → Vector UInt8 32
  parseManifest : String → Except ParseError Manifest
  parseSelection : String → Except ParseError Selection
  parseVersion : String → Except ParseError Version
  localAppData : Path

inductive InstallError where
  | io (path : Path) (source : IoError)
  | manifest (source : ParseError)
  | version (source : ParseError)
  | invalid (message : String)
  deriving DecidableEq, Repr

def hex (digest : Vector UInt8 32) : String :=
  String.ofList (hexText digest.toList)

/-- Sixty-four digits, none of them an upper-case letter. -/
def validDigest (value : String) : Bool :=
  let bytes := utf8 value.toList
  bytes.length == 64 && bytes.all isLowerHex

theorem validDigest_hex (digest : Vector UInt8 32) :
    validDigest (hex digest) = true := by
  simp [validDigest, hex, length_utf8_hexText, all_isLowerHex]

theorem hyphen_not_mem_hex (digest : Vector UInt8 32) :
    '-' ∉ (hex digest).toList := by
  simpa [hex] using hyphen_not_mem_hexText digest.toList

/-! ## The manifest -/

def expectedTarget (architecture : String) : Option String :=
  if architecture = "x86_64" then some "x86_64-pc-windows-msvc"
  else if architecture = "aarch64" then some "aarch64-pc-windows-msvc"
  else none

namespace Manifest

def SchemaRange (manifest : Manifest) : Prop :=
  manifest.controllerSchemaReadMin ≤ manifest.controllerSchemaReadMax ∧
    manifest.controllerSchemaReadMin ≤ manifest.controllerSchemaWrite ∧
    manifest.controllerSchemaWrite ≤ manifest.controllerSchemaReadMax

instance (manifest : Manifest) : Decidable manifest.SchemaRange :=
  inferInstanceAs (Decidable (_ ∧ _ ∧ _))

def sorted (names : List String) : List String :=
  names.insertionSort (· ≤ ·)

/-- The declarations in a map by path, where the last one stays. -/
def file? (manifest : Manifest) (name : String) : Option ManifestFile :=
  manifest.files.reverse.find? fun file => file.path = name

end Manifest

def validateManifest (architecture : String) (manifest : Manifest) :
    Except InstallError Unit := do
  failIf (manifest.bundleFormat ≠ 1 ∨ manifest.protocolMajor ≠ 1)
    (.invalid "bundle_format and protocol_major must be 1")
  failIf (¬manifest.SchemaRange)
    (.invalid "controller schema compatibility range is invalid")
  failIf (1 ∉ manifest.supervisorRuntimeFormats)
    (.invalid "supervisor runtime format 1 is required")
  let target ← orError (expectedTarget architecture)
    (.invalid ("unsupported native architecture " ++ architecture))
  failIf (manifest.target ≠ target)
    (.invalid ("bundle target " ++ manifest.target ++ " does not match " ++
      target))
  failIf (manifest.files.length ≠ requiredFiles.length)
    (.invalid "manifest must declare exactly the three SUSM executables")
  failIf (Manifest.sorted (manifest.files.map ManifestFile.path) ≠
      Manifest.sorted requiredFiles)
    (.invalid "manifest contains an unexpected file set")
  checkAll (fun file => failIf (validDigest file.sha256 = false)
    (.invalid (file.path ++ " has an invalid SHA-256"))) manifest.files

structure Manifest.Valid (architecture : String) (manifest : Manifest) :
    Prop where
  bundleFormat : manifest.bundleFormat = 1
  protocolMajor : manifest.protocolMajor = 1
  schemaRange : manifest.SchemaRange
  runtimeFormats : 1 ∈ manifest.supervisorRuntimeFormats
  target : expectedTarget architecture = some manifest.target
  files : (manifest.files.map ManifestFile.path).Perm requiredFiles
  digests : ∀ file ∈ manifest.files, validDigest file.sha256 = true

theorem sorted_eq_iff {first second : List String} :
    Manifest.sorted first = Manifest.sorted second ↔ first.Perm second := by
  constructor
  · intro same
    have left := List.perm_insertionSort (· ≤ ·) first
    have right := List.perm_insertionSort (· ≤ ·) second
    unfold Manifest.sorted at same
    exact left.symm.trans (same ▸ right)
  · intro perm
    refine List.Perm.eq_of_pairwise' (List.pairwise_insertionSort _ _)
      (List.pairwise_insertionSort _ _) ?_
    have left := List.perm_insertionSort (· ≤ ·) first
    have right := List.perm_insertionSort (· ≤ ·) second
    exact left.trans (perm.trans right.symm)

theorem validateManifest_eq_ok {architecture : String} {manifest : Manifest} :
    validateManifest architecture manifest = .ok () ↔
      manifest.Valid architecture := by
  simp only [validateManifest, bind_eq_ok_iff, failIf_eq_ok, orError_eq_ok,
    checkAll_eq_ok]
  constructor
  · rintro ⟨_, formats, _, range, _, runtime, target, known, _, same, _, _, _,
      files, digests⟩
    rw [not_or, not_not, not_not] at formats
    rw [not_not] at range runtime same files
    refine ⟨formats.1, formats.2, range, runtime, ?_,
      sorted_eq_iff.mp files, ?_⟩
    · rw [known, same]
    · simpa using digests
  · intro valid
    refine ⟨(), ?_, (), ?_, (), ?_, _, valid.target, (), ?_, (), ?_, (), ?_, ?_⟩
    · simp [valid.bundleFormat, valid.protocolMajor]
    · simpa using valid.schemaRange
    · simpa using valid.runtimeFormats
    · simp
    · simpa using valid.files.length_eq
    · simpa using sorted_eq_iff.mpr valid.files
    · simpa using valid.digests

namespace Manifest.Valid

variable {architecture : String} {manifest : Manifest} {name : String}
  {file : ManifestFile}

theorem nodup (valid : manifest.Valid architecture) :
    (manifest.files.map ManifestFile.path).Nodup := by
  rw [valid.files.nodup_iff]
  decide

theorem find?_path_eq_some {files : List ManifestFile}
    (nodup : (files.map ManifestFile.path).Nodup) :
    files.find? (fun file => file.path = name) = some file ↔
      file ∈ files ∧ file.path = name := by
  induction files with
  | nil => simp
  | cons first files ih =>
      rw [List.map_cons, List.nodup_cons] at nodup
      by_cases same : first.path = name
      · rw [List.find?_cons_of_pos (by simpa using same), Option.some_inj]
        constructor
        · rintro rfl
          exact ⟨List.mem_cons_self, same⟩
        · rintro ⟨member, named⟩
          cases List.mem_cons.mp member with
          | inl equal => exact equal.symm
          | inr later =>
              have repeated : first.path ∈ files.map ManifestFile.path :=
                List.mem_map.mpr ⟨file, later, named.trans same.symm⟩
              exact absurd repeated nodup.1
      · rw [List.find?_cons_of_neg (by simpa using same), ih nodup.2,
          List.mem_cons]
        constructor
        · rintro ⟨later, named⟩
          exact ⟨.inr later, named⟩
        · rintro ⟨rfl | later, named⟩
          · exact absurd named same
          · exact ⟨later, named⟩

theorem file?_eq_some (valid : manifest.Valid architecture) :
    manifest.file? name = some file ↔
      file ∈ manifest.files ∧ file.path = name := by
  have reversed : (manifest.files.reverse.map ManifestFile.path).Nodup := by
    simpa using valid.nodup
  simpa [file?] using find?_path_eq_some reversed

theorem find?_eq_file? (valid : manifest.Valid architecture) (name : String) :
    manifest.files.find? (fun file => file.path = name) =
      manifest.file? name := by
  ext file
  rw [find?_path_eq_some valid.nodup, valid.file?_eq_some]

end Manifest.Valid

end Susm.Installer
