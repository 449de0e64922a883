import Susm.Foundation.Splitting
import Susm.Installer.Bundle

/-!
# Installation and rollback

`validate_and_install` puts an accepted bundle under `versions`, or finds it
there, and writes the selection; `rollback` does it with an installed version.
-/

namespace Susm.Installer

open Susm.Foundation

/-! ## An installed directory -/

/-- `installed ... does not match its manifest` -/
def checkInstalled (machine : Machine) (path : Path) (directory : Directory)
    (manifest : Manifest) (name : String) : Except InstallError Unit := do
  let declared ← orError (manifest.file? name)
    (.invalid ("manifest does not declare " ++ name))
  let entry ← metadata machine path directory name
  let mismatch := .invalid ("installed " ++ name ++
    " does not match its manifest")
  failIf (entry.isFile = false) mismatch
  failIf (entry.length ≠ declared.size.toNat) mismatch
  let digest ← digestFile machine path directory name
  failIf (digest ≠ declared.sha256) mismatch

def manifestIdentity (name : OsString) : Except InstallError String := do
  let text ← orError (toStr name)
    (.invalid "installed directory name is invalid")
  let (_, identity) ← orError (rsplitOnce '-' text.toList)
    (.invalid "installed directory has no manifest identity")
  return String.ofList identity

def validateInstalledDirectory (machine : Machine) (parent : Path)
    (name : OsString) (directory : Directory) : Except InstallError Unit := do
  let path := parent ++ [name]
  let identity ← manifestIdentity name
  let bytes ←
    boundedRead machine path directory "manifest.toml" maxManifestBytes
  failIf (hex (machine.sha256 bytes) ≠ identity)
    (.invalid ("installed manifest identity does not match " ++
      toStringLossy name))
  let text ← orError (fromUtf8 bytes) (.invalid "manifest is not UTF-8")
  let manifest ← (machine.parseManifest text).mapError .manifest
  validateManifest machine.architecture manifest
  checkAll (checkInstalled machine path directory manifest) requiredFiles

/-! ## The selection -/

/-- `{:?}` of a text.  A version and a digest consist of characters that are
printed as they are. -/
def escapeDebug (character : Char) : List Char :=
  match character with
  | '\x00' => ['\\', '0']
  | '\t' => ['\\', 't']
  | '\n' => ['\\', 'n']
  | '\r' => ['\\', 'r']
  | '"' => ['\\', '"']
  | '\\' => ['\\', '\\']
  | _ => [character]

def debugText (text : String) : List Char :=
  '"' :: text.toList.flatMap escapeDebug ++ ['"']

def versionLabel : List Char := "bundle_format = 1\nversion = ".toList

def manifestLabel : List Char := "\nmanifest_sha256 = ".toList

def selectionText (version identity : String) : String :=
  String.ofList (versionLabel ++ debugText version ++ manifestLabel ++
    debugText identity ++ ['\n'])

def versionDirectory (version identity : String) : OsString :=
  osString (String.ofList (version.toList ++ '-' :: identity.toList))

def Bundle.directory (bundle : Bundle) : OsString :=
  versionDirectory bundle.manifest.version bundle.identity

def installationPath (machine : Machine) : Path :=
  machine.localAppData ++ [osString "Programs", osString "susm"]

/-- An empty `LOCALAPPDATA` counts as a missing one. -/
def installationRoot (machine : Machine) : Except InstallError Path := do
  failIf (machine.localAppData = []) (.invalid "LOCALAPPDATA is missing")
  return installationPath machine

def selectionName : String := "current.susm-install"

def currentSelection (machine : Machine) (installation : Installation) :
    Except InstallError (Option OsString) := do
  let path := installationPath machine ++ [osString selectionName]
  match installation.selection.bind Entry.followed with
  | none => return none
  | some _ =>
      let entry ← orError installation.selection (.io path .notFound)
      failIf (maxManifestBytes < entry.length)
        (.invalid (display path ++ " exceeds its size limit"))
      let bytes ← entry.read.mapError (.io path)
      let text ← orError (fromUtf8 bytes) (.invalid "selection is not UTF-8")
      let selection ← (machine.parseSelection text).mapError .manifest
      failIf (selection.bundleFormat ≠ 1 ∨
          (machine.parseVersion selection.version).toOption = none ∨
          validDigest selection.manifestSha256 = false)
        (.invalid "current selection is invalid")
      return some
        (versionDirectory selection.version selection.manifestSha256)

/-! ## Installing -/

/-- The accesses of `validate_and_install` that write. -/
inductive Access where
  | createVersions
  | createStaging
  | writeManifest
  | copy (name : String)
  | rename
  | writeSelection
  | createBin
  | writeCli
  deriving DecidableEq, Repr

abbrev Faults := Access → Option IoError

def attempt (faults : Faults) (access : Access) (path : Path) :
    Except InstallError Unit :=
  match faults access with
  | none => .ok ()
  | some source => .error (.io path source)

structure InstalledVersion where
  version : String
  identity : String
  path : Path
  current : Bool
  pinCount : Nat
  deriving DecidableEq, Repr

section Install

variable (machine : Machine) (faults : Faults) (staging : OsString)

/-- `fs::copy` of the required files into the staging directory. -/
def copyFiles (path target : Path) (root : Directory) :
    List String → Except InstallError Directory
  | [] => .ok []
  | name :: names => do
      attempt faults (.copy name) (target ++ [osString name])
      let bytes ← readFile machine path root name
      let copied ← copyFiles path target root names
      return (osString name, .file bytes) :: copied

def stage (path versions : Path) (root : Directory) (bundle : Bundle) :
    Except InstallError Directory := do
  let target := versions ++ [staging]
  attempt faults .createStaging target
  attempt faults .writeManifest (target ++ [osString "manifest.toml"])
  let copied ← copyFiles machine faults path target root requiredFiles
  return (osString "manifest.toml", .file bundle.manifestBytes) :: copied

/-- The version directory that is there already, or the staged one renamed.
A name that is too long cannot be given to a directory. -/
def placeBundle (path versions : Path) (root : Directory)
    (before : Installation) (bundle : Bundle) :
    Except InstallError (Directory × List (FileName × VersionNode)) :=
  match (before.findVersion machine.upcase bundle.directory).bind
      VersionNode.entries? with
  | some directory => do
      validateInstalledDirectory machine versions bundle.directory directory
      return (directory, before.versions)
  | none => do
      let staged ← stage machine faults staging path versions root bundle
      attempt faults .rename (versions ++ [bundle.directory])
      let stored ← orError (fileName? bundle.directory)
        (.io (versions ++ [bundle.directory]) (.system 123))
      return (staged,
        Installation.place machine.upcase before.versions stored staged)

def validateAndInstall (path : Path) (root : Directory)
    (before : Installation) :
    Except InstallError (InstalledVersion × Installation) := do
  let bundle ← validateBundle machine path root
  let installation ← installationRoot machine
  let versions := installation ++ [osString "versions"]
  attempt faults .createVersions versions
  let (directory, placed) ←
    placeBundle machine faults staging path versions root before bundle
  attempt faults .writeSelection (installation ++ [osString selectionName])
  let text := selectionText bundle.manifest.version bundle.identity
  let bin := installation ++ [osString "bin"]
  attempt faults .createBin bin
  let finalPath := versions ++ [bundle.directory]
  let cli ← boundedRead machine finalPath directory "susm.exe" maxFileBytes
  attempt faults .writeCli (bin ++ [osString "susm.exe"])
  return (
    { version := bundle.manifest.version
      identity := bundle.identity
      path := finalPath
      current := true
      pinCount := 0 },
    { before with
      versions := placed
      selection := some (.file (utf8 text.toList))
      bin := some cli })

/-! ## Rollback -/

def directoryEntryCount (installation : Installation) (name : OsString) :
    Except InstallError Nat :=
  match installation.pins name with
  | .missing => .ok 0
  | .directory entries => .ok entries
  | .other =>
      .error (.invalid ("pin path " ++
        display (installationPath machine ++ [osString "pins", name]) ++
        " is not a regular directory"))

/-- The entries of `versions` that are directories, not links, and whose name
has a hyphen. -/
def listEntries (installation : Installation) :
    List (FileName × VersionNode) →
      Except InstallError (List (InstalledVersion × Directory))
  | [] => .ok []
  | (name, .directory directory) :: rest =>
      match rsplitOnce '-' (toStringLossy name.name).toList with
      | none => listEntries installation rest
      | some (version, identity) => do
          let current ← currentSelection machine installation
          let pinCount ← directoryEntryCount machine installation name.name
          let listed ← listEntries installation rest
          return (
            { version := String.ofList version
              identity := String.ofList identity
              path := installationPath machine ++
                [osString "versions", name.name]
              current := current = some name.name
              pinCount := pinCount }, directory) :: listed
  | _ :: rest => listEntries installation rest

def listVersions (installation : Installation) :
    Except InstallError (List (InstalledVersion × Directory)) := do
  let _ ← installationRoot machine
  let versions ← listEntries machine installation installation.versions
  return versions.insertionSort fun left right =>
    left.1.version ≤ right.1.version

/-- The one version that the argument of `rollback` matches. -/
def chooseVersion (wanted : String) (installation : Installation) :
    Except InstallError (InstalledVersion × Directory) := do
  let versions ← listVersions machine installation
  match versions.filter fun listed => listed.1.version = wanted ∨
      wanted.toList <+: listed.1.identity.toList with
  | [selected] => return selected
  | [] => throw (.invalid ("no installed version matches " ++ wanted))
  | _ =>
      throw (.invalid ("installed version prefix " ++ wanted ++
        " is ambiguous"))

def rollback (wanted : String) (before : Installation) :
    Except InstallError (InstalledVersion × Installation) := do
  let (selected, directory) ← chooseVersion machine wanted before
  validateAndInstall machine faults staging selected.path directory before

end Install

/-! ## An installed version -/

/-- A version directory that agrees with the manifest in it. -/
structure Stored (machine : Machine) (directory : Directory)
    (identity : String) (bytes : Bytes) (manifest : Manifest) : Prop where
  held : ∃ entry,
    findEntry machine.upcase directory "manifest.toml" = some entry ∧
      entry.followed = some (.file bytes)
  identity : hex (machine.sha256 bytes) = identity
  reads : Reads machine bytes manifest
  valid : manifest.Valid machine.architecture
  files : ∀ name ∈ requiredFiles, ∃ declared bytes,
    manifest.file? name = some declared ∧
      Matches machine directory declared name bytes

section Stored

variable {machine : Machine} {faults : Faults} {staging : OsString}
  {path versions : Path} {root directory : Directory} {before : Installation}
  {bundle : Bundle} {manifest : Manifest} {name : String}

theorem checkInstalled_matches
    (checked : checkInstalled machine path directory manifest name = .ok ()) :
    ∃ declared bytes, manifest.file? name = some declared ∧
      Matches machine directory declared name bytes := by
  simp only [checkInstalled, metadata, bind_eq_ok_iff, failIf_eq_ok,
    orError_eq_ok] at checked
  obtain ⟨declared, known, entry, found, _, file, _, size, digest, digested,
    same⟩ := checked
  obtain ⟨bytes, rfl⟩ := Entry.eq_file_of_isFile (by simpa using file)
  refine ⟨declared, bytes, known, found, ?_, ?_⟩
  · simpa [Entry.length] using size
  · rw [← digestFile_file found digested]
    simpa using same

theorem manifestIdentity_versionDirectory {version identity : String}
    (plain : '-' ∉ identity.toList) :
    manifestIdentity (versionDirectory version identity) = .ok identity := by
  have text : toStr (versionDirectory version identity) =
      some (String.ofList (version.toList ++ '-' :: identity.toList)) := by
    simp [toStr, versionDirectory, osString]
  have split := @rsplitOnce_append _ _ _ version.toList _ plain
  simp [manifestIdentity, text, split, orError, bind, Except.bind, pure,
    Except.pure]

theorem validateInstalledDirectory_stored
    (plain : '-' ∉ bundle.identity.toList)
    (checked : validateInstalledDirectory machine versions bundle.directory
      directory = .ok ()) :
    ∃ bytes manifest,
      Stored machine directory bundle.identity bytes manifest := by
  simp only [validateInstalledDirectory, Bundle.directory,
    manifestIdentity_versionDirectory plain, bind_eq_ok_iff, failIf_eq_ok,
    orError_eq_ok, mapError_eq_ok, boundedRead_eq_ok, checkAll_eq_ok]
    at checked
  obtain ⟨_, ⟨⟩, bytes, ⟨entry, found, _, followed⟩, _, same, text, decoded,
    manifest, parsed, _, valid, files⟩ := checked
  refine ⟨bytes, manifest, ⟨entry, found, followed⟩, ?_,
    ⟨text, decoded, parsed⟩, validateManifest_eq_ok.mp valid, ?_⟩
  · simpa using same
  · intro name required
    exact checkInstalled_matches (files name required)

theorem checkInstalled_of_matches {declared : ManifestFile} {bytes : Bytes}
    (known : manifest.file? name = some declared)
    (matching : Matches machine directory declared name bytes) :
    checkInstalled machine path directory manifest name = .ok () := by
  have digested : digestFile machine path directory name =
      .ok (hex (machine.sha256 bytes)) := by
    have read : readFile machine path directory name = .ok bytes :=
      readFile_eq_ok.mpr ⟨_, matching.file, rfl⟩
    rw [digestFile, read]
    rfl
  simp [checkInstalled, known, metadata, matching.file, digested, orError,
    Entry.isFile, Entry.length, matching.size, matching.digest, bind,
    Except.bind]

/-- What the installer takes over: its manifest is bounded as a directory
entry, which says little of a link. -/
theorem validateInstalledDirectory_of_stored {bytes : Bytes} {entry : Entry}
    (stored : Stored machine directory bundle.identity bytes manifest)
    (plain : '-' ∉ bundle.identity.toList)
    (held : findEntry machine.upcase directory "manifest.toml" = some entry)
    (bounded : entry.length ≤ maxManifestBytes) :
    validateInstalledDirectory machine versions bundle.directory directory =
      .ok () := by
  obtain ⟨_, same, followed⟩ := stored.held
  rw [held, Option.some_inj] at same
  subst same
  obtain ⟨text, decoded, parsed⟩ := stored.reads
  refine bind_eq_ok_iff.mpr
    ⟨_, manifestIdentity_versionDirectory plain, bind_eq_ok_iff.mpr
    ⟨bytes, boundedRead_eq_ok.mpr ⟨entry, held, bounded, followed⟩,
    bind_eq_ok_iff.mpr ⟨(), by simp [stored.identity], bind_eq_ok_iff.mpr
    ⟨text, orError_eq_ok.mpr decoded, bind_eq_ok_iff.mpr
    ⟨manifest, mapError_eq_ok.mpr parsed, bind_eq_ok_iff.mpr
    ⟨(), validateManifest_eq_ok.mpr stored.valid, ?_⟩⟩⟩⟩⟩⟩
  rw [checkAll_eq_ok]
  intro name required
  obtain ⟨declared, _, known, matching⟩ := stored.files name required
  exact checkInstalled_of_matches known matching

theorem copyFiles_finds {target : Path} {names : List String}
    (distinct : names.Pairwise DifferentLengths)
    (copied : copyFiles machine faults path target root names =
      .ok directory) :
    ∀ name ∈ names, ∃ bytes, readFile machine path root name = .ok bytes ∧
      findEntry machine.upcase directory name = some (.file bytes) := by
  induction names generalizing directory with
  | nil => simp
  | cons first names ih =>
      simp only [copyFiles, bind_eq_ok_iff] at copied
      obtain ⟨_, _, bytes, held, rest, later, done⟩ := copied
      cases done
      rw [List.pairwise_cons] at distinct
      intro name member
      cases List.mem_cons.mp member with
      | inl equal =>
          subst equal
          exact ⟨bytes, held, findEntry_cons_self⟩
      | inr member =>
          rw [findEntry_cons_of_lengths (distinct.1 name member)]
          exact ih distinct.2 later name member

theorem stage_stored (accepted : bundle.Accepted machine root)
    (staged : stage machine faults staging path versions root bundle =
      .ok directory) :
    Stored machine directory bundle.identity bundle.manifestBytes
      bundle.manifest := by
  simp only [stage, bind_eq_ok_iff] at staged
  obtain ⟨_, _, _, _, copied, hcopied, done⟩ := staged
  cases done
  refine ⟨⟨_, findEntry_cons_self, rfl⟩, accepted.identity.symm,
    accepted.reads, accepted.valid, ?_⟩
  intro name required
  obtain ⟨declared, bytes, known, _, file, size, digest⟩ :=
    accepted.files name required
  obtain ⟨same, held, found⟩ :=
    copyFiles_finds requiredFiles_lengths hcopied name required
  obtain ⟨entry, hentry, followed⟩ := readFile_eq_ok.mp held
  rw [file, Option.some_inj] at hentry
  subst hentry
  cases followed
  refine ⟨declared, bytes, known, ?_, size, digest⟩
  rw [findEntry_cons_of_lengths (manifest_lengths name required)]
  exact found

/-! ## Successful installations -/

theorem placeBundle_of_entries
    (existing : (before.findVersion machine.upcase bundle.directory).bind
      VersionNode.entries? = some directory)
    (checked : validateInstalledDirectory machine versions bundle.directory
      directory = .ok ()) :
    placeBundle machine faults staging path versions root before bundle =
      .ok (directory, before.versions) := by
  simp [placeBundle, existing, checked, bind, Except.bind, pure, Except.pure]

theorem placeBundle_of_absent (fine : ∀ access, faults access = none)
    (absent : (before.findVersion machine.upcase bundle.directory).bind
      VersionNode.entries? = none)
    (short : bundle.directory.length ≤ 255)
    (staged : stage machine faults staging path versions root bundle =
      .ok directory) :
    placeBundle machine faults staging path versions root before bundle =
      .ok (directory, Installation.place machine.upcase before.versions
        ⟨bundle.directory, short⟩ directory) := by
  simp [placeBundle, absent, staged, attempt, fine, fileName?, short, orError,
    bind, Except.bind, pure, Except.pure]

theorem validateAndInstall_of_placed (fine : ∀ access, faults access = none)
    {nodes : List (FileName × VersionNode)} {cli : Bytes}
    (validated : validateBundle machine path root = .ok bundle)
    (user : machine.localAppData ≠ [])
    (placed : placeBundle machine faults staging path
      (installationPath machine ++ [osString "versions"]) root before bundle =
        .ok (directory, nodes))
    (held : findEntry machine.upcase directory "susm.exe" =
      some (.file cli))
    (bounded : cli.length ≤ maxFileBytes) :
    validateAndInstall machine faults staging path root before = .ok (
      { version := bundle.manifest.version
        identity := bundle.identity
        path := installationPath machine ++ [osString "versions"] ++
          [bundle.directory]
        current := true
        pinCount := 0 },
      { before with
        versions := nodes
        selection := some (.file (utf8
          (selectionText bundle.manifest.version bundle.identity).toList))
        bin := some cli }) := by
  have read : boundedRead machine (installationPath machine ++
      [osString "versions"] ++ [bundle.directory]) directory "susm.exe"
        maxFileBytes = .ok cli :=
    boundedRead_eq_ok.mpr ⟨_, held, bounded, rfl⟩
  have home : installationRoot machine = .ok (installationPath machine) := by
    simp [installationRoot, user, failIf, bind, Except.bind, pure, Except.pure]
  simp only [validateAndInstall, validated, home, placed, attempt, fine, read,
    bind, Except.bind, pure, Except.pure]

theorem toStringLossy_versionDirectory (version identity : String) :
    (toStringLossy (versionDirectory version identity)).toList =
      version.toList ++ '-' :: identity.toList := by
  rw [toStringLossy, versionDirectory, osString,
    fromUtf16Lossy_eq (fromUtf16_utf16 _), String.toList_ofList,
    String.toList_ofList]

theorem chooseVersion_only {stored : FileName}
    {version identity wanted : String} (user : machine.localAppData ≠ [])
    (only : before.versions = [(stored, .directory directory)])
    (named : stored.name = versionDirectory version identity)
    (plain : '-' ∉ identity.toList) (unselected : before.selection = none)
    (unpinned : before.pins stored.name = .missing)
    (matching : version = wanted ∨ wanted.toList <+: identity.toList) :
    chooseVersion machine wanted before = .ok (
      { version := version
        identity := identity
        path := installationPath machine ++
          [osString "versions", stored.name]
        current := false
        pinCount := 0 }, directory) := by
  have split := @rsplitOnce_append _ _ _ version.toList _ plain
  rw [← toStringLossy_versionDirectory, ← named] at split
  have current : currentSelection machine before = .ok none := by
    simp [currentSelection, unselected, pure, Except.pure]
  have listed : listVersions machine before = .ok [(
      { version := version
        identity := identity
        path := installationPath machine ++
          [osString "versions", stored.name]
        current := false
        pinCount := 0 }, directory)] := by
    simp [listVersions, installationRoot, user, only, listEntries, split,
      current, directoryEntryCount, unpinned, failIf, bind, Except.bind, pure,
      Except.pure]
  simp [chooseVersion, listed, matching, bind, Except.bind, pure, Except.pure]

end Stored

end Susm.Installer
