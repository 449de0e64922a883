import Susm.Installer.Install

/-!
# The selected controller

What the host checks before it launches the controller of a user: the
selection, the selected manifest and the executable, each read on its own.
-/

namespace Susm.Host

open Susm.Foundation
open Susm.Installer

inductive LaunchError where
  | controllerMissing (path : Path)
  | installationIo (path : Path) (source : IoError)
  | invalidInstallation (message : String)
  | installationToml (source : ParseError)
  | installationVersion (source : ParseError)
  deriving DecidableEq, Repr

def maxControllerBytes : Nat := 256 * 1024 * 1024

/-- `bounded_read` of what a path leads to: a regular file, once links are
followed. -/
def readBounded (path : Path) (entry : Option Entry) (maximum : Nat) :
    Except LaunchError Bytes := do
  let target ← orError (entry.bind Entry.followed)
    (.installationIo path .notFound)
  match target with
  | .directory =>
      throw (.invalidInstallation
        (display path ++ " is not a bounded regular file"))
  | .file bytes =>
      failIf (maximum < bytes.length) (.invalidInstallation
        (display path ++ " is not a bounded regular file"))
      return bytes

/-- `reject_reparse_point` of the version directory. -/
def regularDirectory (path : Path) (node : Option VersionNode) :
    Except LaunchError Directory :=
  match node with
  | some (.directory directory) => .ok directory
  | some (.link _) =>
      .error (.invalidInstallation (display path ++ " is a reparse point"))
  | some .other =>
      .error (.installationIo (path ++ [osString "manifest.toml"]) .notFound)
  | none => .error (.installationIo path .notFound)

def validateManifest (architecture : String) (manifest : Manifest)
    (selection : Selection) : Except LaunchError Unit := do
  let target ← orError (expectedTarget architecture) (.invalidInstallation
    ("unsupported native architecture " ++ architecture))
  failIf (manifest.bundleFormat ≠ 1 ∨ manifest.protocolMajor ≠ 1 ∨
      manifest.version ≠ selection.version ∨ manifest.target ≠ target ∨
      ¬manifest.SchemaRange ∨ 1 ∉ manifest.supervisorRuntimeFormats)
    (.invalidInstallation "selected manifest is incompatible")

def checkController (machine : Machine) (directory : Path)
    (entry : Option Entry) (declared : ManifestFile) :
    Except LaunchError Path := do
  let controller := directory ++ [osString "susmd.exe"]
  let entry ← orError entry (.installationIo controller .notFound)
  failIf (entry.isSymlink = true) (.invalidInstallation
    (display controller ++ " is a reparse point"))
  match entry with
  | .file bytes =>
      failIf (bytes.length ≠ declared.size.toNat)
        (.controllerMissing controller)
      failIf (hex (machine.sha256 bytes) ≠ declared.sha256)
        (.invalidInstallation "susmd.exe digest does not match its manifest")
      return controller
  | _ => throw (.controllerMissing controller)

def readSelection (machine : Machine) (installation : Installation) :
    Except LaunchError Selection := do
  let bytes ← readBounded
    (installationPath machine ++ [osString selectionName])
    installation.selection maxManifestBytes
  let text ← orError (fromUtf8 bytes)
    (.invalidInstallation "selection is not valid UTF-8")
  let selection ← (machine.parseSelection text).mapError .installationToml
  failIf (selection.bundleFormat ≠ 1)
    (.invalidInstallation "selection bundle_format must be 1")
  let version ← (machine.parseVersion selection.version).mapError
    .installationVersion
  failIf (version.build ≠ "" ∨ validDigest selection.manifestSha256 = false)
    (.invalidInstallation
      "selection version or manifest identity is invalid")
  return selection

def readManifest (machine : Machine) (path : Path) (directory : Directory)
    (selection : Selection) : Except LaunchError Manifest := do
  let bytes ← readBounded (path ++ [osString "manifest.toml"])
    (findEntry machine.upcase directory "manifest.toml") maxManifestBytes
  failIf (hex (machine.sha256 bytes) ≠ selection.manifestSha256)
    (.invalidInstallation
      "selected manifest digest does not match the selection")
  let text ← orError (fromUtf8 bytes)
    (.invalidInstallation "manifest is not valid UTF-8")
  (machine.parseManifest text).mapError .installationToml

def selectedController (machine : Machine) (installation : Installation) :
    Except LaunchError Path := do
  let selection ← readSelection machine installation
  let name := versionDirectory selection.version selection.manifestSha256
  let path := installationPath machine ++ [osString "versions", name]
  let directory ← regularDirectory path
    (installation.findVersion machine.upcase name)
  let manifest ← readManifest machine path directory selection
  validateManifest machine.architecture manifest selection
  let declared ← orError
    (manifest.files.find? fun file => file.path = "susmd.exe")
    (.invalidInstallation "manifest does not declare susmd.exe")
  failIf (maxControllerBytes < declared.size.toNat ∨
      validDigest declared.sha256 = false)
    (.invalidInstallation "susmd.exe manifest entry is invalid")
  checkController machine path
    (findEntry machine.upcase directory "susmd.exe") declared

/-! ## What passes the checks -/

variable {machine : Machine} {installation : Installation} {path : Path}
  {directory : Directory} {selection : Selection} {manifest : Manifest}
  {controller : Path}

theorem readBounded_eq_ok {entry : Option Entry} {maximum : Nat}
    {bytes : Bytes} :
    readBounded path entry maximum = .ok bytes ↔
      entry.bind Entry.followed = some (.file bytes) ∧
        bytes.length ≤ maximum := by
  unfold readBounded
  rcases entry.bind Entry.followed with _ | ⟨held⟩ | _
  · simp [orError, bind, Except.bind]
  · simp only [orError, Option.elim_some, bind_eq_ok_iff, failIf_eq_ok,
      Except.ok.injEq, exists_eq_left', Option.some_inj, Target.file.injEq]
    constructor
    · rintro ⟨_, small, ⟨⟩⟩
      exact ⟨rfl, by omega⟩
    · rintro ⟨rfl, small⟩
      exact ⟨(), by omega, rfl⟩
  · simp [orError, bind, Except.bind, throw, throwThe, MonadExceptOf.throw]

theorem regularDirectory_eq_ok {node : Option VersionNode} :
    regularDirectory path node = .ok directory ↔
      node = some (.directory directory) := by
  unfold regularDirectory
  split <;> simp

theorem readManifest_eq_ok :
    readManifest machine path directory selection = .ok manifest ↔
      ∃ bytes, (findEntry machine.upcase directory "manifest.toml").bind
          Entry.followed = some (.file bytes) ∧
        bytes.length ≤ maxManifestBytes ∧
        hex (machine.sha256 bytes) = selection.manifestSha256 ∧
        Reads machine bytes manifest := by
  simp [readManifest, bind_eq_ok_iff, readBounded_eq_ok, Reads, and_assoc]

theorem validateManifest_eq_ok {architecture : String}
    (valid : manifest.Valid architecture) :
    validateManifest architecture manifest selection = .ok () ↔
      manifest.version = selection.version := by
  simp [validateManifest, bind_eq_ok_iff, valid.target, valid.bundleFormat,
    valid.protocolMajor, valid.schemaRange, valid.runtimeFormats]

theorem checkController_eq_ok {entry : Option Entry}
    {declared : ManifestFile} :
    checkController machine path entry declared = .ok controller ↔
      controller = path ++ [osString "susmd.exe"] ∧
        ∃ bytes, entry = some (.file bytes) ∧
          bytes.length = declared.size.toNat ∧
          hex (machine.sha256 bytes) = declared.sha256 := by
  unfold checkController
  rcases entry with _ | ⟨bytes⟩ | _ | _
  · simp [orError, bind, Except.bind]
  · simp only [orError, Option.elim_some, bind_eq_ok_iff, failIf_eq_ok,
      Except.ok.injEq, exists_eq_left', Option.some_inj, Entry.file.injEq,
      Entry.isSymlink, not_not]
    constructor
    · rintro ⟨_, _, _, size, _, digest, ⟨⟩⟩
      exact ⟨rfl, size, digest⟩
    · rintro ⟨rfl, size, digest⟩
      exact ⟨(), by simp, (), size, (), digest, rfl⟩
  · simp [orError, bind, Except.bind, Entry.isSymlink, failIf, throw,
      throwThe, MonadExceptOf.throw]
  · simp [orError, bind, Except.bind, Entry.isSymlink, failIf]

theorem selectedController_eq_ok
    (read : readSelection machine installation = .ok selection) :
    selectedController machine installation = .ok controller ↔
      ∃ directory manifest declared,
        installation.findVersion machine.upcase (versionDirectory
          selection.version selection.manifestSha256) =
            some (.directory directory) ∧
        readManifest machine (installationPath machine ++
          [osString "versions", versionDirectory selection.version
            selection.manifestSha256]) directory selection = .ok manifest ∧
        validateManifest machine.architecture manifest selection = .ok () ∧
        manifest.files.find? (fun file => file.path = "susmd.exe") =
          some declared ∧
        declared.size.toNat ≤ maxControllerBytes ∧
        validDigest declared.sha256 = true ∧
        checkController machine (installationPath machine ++
          [osString "versions", versionDirectory selection.version
            selection.manifestSha256])
          (findEntry machine.upcase directory "susmd.exe") declared =
            .ok controller := by
  simp only [selectedController, read, bind_eq_ok_iff, orError_eq_ok,
    failIf_eq_ok, regularDirectory_eq_ok, Except.ok.injEq, exists_eq_left',
    not_or, not_lt, Bool.not_eq_false]
  constructor
  · rintro ⟨directory, found, manifest, held, _, compatible, declared, known,
      _, ⟨small, digest⟩, checked⟩
    exact ⟨directory, manifest, declared, found, held, compatible, known,
      small, digest, checked⟩
  · rintro ⟨directory, manifest, declared, found, held, compatible, known,
      small, digest, checked⟩
    exact ⟨directory, found, manifest, held, (), compatible, declared, known,
      (), ⟨small, digest⟩, checked⟩

end Susm.Host
