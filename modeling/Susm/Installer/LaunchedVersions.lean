import Susm.Host.Launcher

/-!
# The host launches what the installer selects

After an installation the host finds the selected version directory with the
manifest and the executable that the installer has checked.  It refuses one
kind of directory that the installer takes over: a link.
-/

namespace Susm.Installer

open Susm.Foundation
open Susm.Host (selectedController)

variable {machine : Machine} {faults : Faults} {staging : OsString}
  {path versions : Path} {root directory : Directory}
  {before after : Installation} {bundle : Bundle} {manifest : Manifest}
  {node : VersionNode} {bytes : Bytes} {installed : InstalledVersion}

/-! ## The statements -/

/-- The selection that was written is read back as it was meant. -/
def ParsesBack (machine : Machine) (bundle : Bundle) : Prop :=
  machine.parseSelection
      (selectionText bundle.manifest.version bundle.identity) =
    .ok ⟨1, bundle.manifest.version, bundle.identity⟩

def Installation.readVersionFile (machine : Machine)
    (installation : Installation) (version : OsString) (name : String) :
    Option Bytes := do
  let node ← installation.findVersion machine.upcase version
  let directory ← node.entries?
  let entry ← findEntry machine.upcase directory name
  match entry.followed with
  | some (.file bytes) => some bytes
  | _ => none

/-- The host launches `susmd.exe` of the installed version, and its size and
digest are those that the manifest of the bundle declares. -/
def Launches (machine : Machine) (bundle : Bundle)
    (installed : InstalledVersion) (after : Installation) : Prop :=
  selectedController machine after =
      .ok (installed.path ++ [osString "susmd.exe"]) ∧
    ∃ declared bytes, bundle.manifest.file? "susmd.exe" = some declared ∧
      after.readVersionFile machine bundle.directory "susmd.exe" =
        some bytes ∧
      bytes.length = declared.size.toNat ∧
      hex (machine.sha256 bytes) = declared.sha256

/-- What the host wants of a version directory: it is no link, and its
manifest is bounded and declares the version and the controller that the
manifest of the bundle declares. -/
structure Fits (bundle : Bundle) (node : VersionNode) (bytes : Bytes)
    (manifest : Manifest) : Prop where
  regular : ∃ directory, node = .directory directory
  bounded : bytes.length ≤ maxManifestBytes
  version : manifest.version = bundle.manifest.version
  controller : manifest.file? "susmd.exe" = bundle.manifest.file? "susmd.exe"

/-- A version directory that is there already fits.  Its manifest is the one
of the bundle unless SHA-256 maps two manifests to one digest. -/
def Reusable (machine : Machine) (bundle : Bundle) (before : Installation) :
    Prop :=
  ∀ node directory bytes manifest,
    before.findVersion machine.upcase bundle.directory = some node →
    node.entries? = some directory →
    (∃ entry,
      findEntry machine.upcase directory "manifest.toml" = some entry ∧
        entry.followed = some (.file bytes)) →
    Reads machine bytes manifest → Fits bundle node bytes manifest

/-- `Path::file_name` of the version directory. -/
def InstalledVersion.fileName (version : InstalledVersion) : OsString :=
  version.path.getLast?.getD []

/-- The selection leads to the directory of the version. -/
def Selects (machine : Machine) (after : Installation)
    (chosen : InstalledVersion) : Prop :=
  ∃ name, currentSelection machine after = .ok (some name) ∧
    sameName machine.upcase name chosen.fileName = true

/-- The directory has the name that its own manifest gives it. -/
def CanonicallyNamed (machine : Machine) (bundle : Bundle)
    (chosen : InstalledVersion) : Prop :=
  sameName machine.upcase bundle.directory chosen.fileName = true

/-! ## The installation afterwards -/

theorem findVersion_place {stored : FileName}
    {nodes : List (FileName × VersionNode)} :
    Installation.findVersion machine.upcase
      { before with
        versions := Installation.place machine.upcase nodes stored directory }
      stored.name = some (.directory directory) := by
  simp [Installation.findVersion, Installation.place, sameName_refl]

theorem length_of_findVersion {name : OsString}
    (found : before.findVersion machine.upcase name = some node) :
    name.length ≤ 255 := by
  obtain ⟨⟨stored, _⟩, hfind, _⟩ := Option.map_eq_some_iff.mp found
  have same := List.find?_some hfind
  by_contra long
  have different : stored.name.length ≠ name.length := by
    have short := stored.short
    omega
  simp [not_sameName_of_length different] at same

structure Placed (machine : Machine) (bundle : Bundle)
    (before after : Installation) (node : VersionNode) (directory : Directory)
    (bytes : Bytes) (manifest : Manifest) : Prop where
  found : after.findVersion machine.upcase bundle.directory = some node
  entries : node.entries? = some directory
  stored : Stored machine directory bundle.identity bytes manifest
  origin : before.findVersion machine.upcase bundle.directory = some node ∨
    (before.findVersion machine.upcase bundle.directory).bind
        VersionNode.entries? = none ∧
      node = .directory directory ∧ bytes = bundle.manifestBytes ∧
      manifest = bundle.manifest

theorem placeBundle_placed {nodes : List (FileName × VersionNode)}
    (accepted : bundle.Accepted machine root)
    (placed : placeBundle machine faults staging path versions root before
      bundle = .ok (directory, nodes)) :
    bundle.directory.length ≤ 255 ∧
      ∃ node bytes manifest, Placed machine bundle before
        { before with versions := nodes } node directory bytes manifest := by
  unfold placeBundle at placed
  split at placed
  · rename_i existing there
    obtain ⟨node, found, entries⟩ := Option.bind_eq_some_iff.mp there
    obtain ⟨_, checked, done⟩ := bind_eq_ok_iff.mp placed
    cases done
    have plain : '-' ∉ bundle.identity.toList := by
      rw [accepted.identity]
      exact hyphen_not_mem_hex _
    obtain ⟨bytes, manifest, stored⟩ :=
      validateInstalledDirectory_stored plain checked
    exact ⟨length_of_findVersion found, node, bytes, manifest, found, entries,
      stored, .inl found⟩
  · rename_i absent
    simp only [bind_eq_ok_iff, orError_eq_ok] at placed
    obtain ⟨staged, hstaged, _, _, stored, valid, done⟩ := placed
    cases done
    have named := fileName?_eq_some valid
    have short := stored.short
    rw [named] at short
    have found := @findVersion_place machine directory before stored
      before.versions
    rw [named] at found
    exact ⟨short, _, _, _, found, rfl, stage_stored accepted hstaged,
      .inr ⟨absent, rfl, rfl, rfl⟩⟩

theorem validateAndInstall_placed
    (accepted : validateBundle machine path root = .ok bundle)
    (success : validateAndInstall machine faults staging path root before =
      .ok (installed, after)) :
    bundle.directory.length ≤ 255 ∧
      installed.path = installationPath machine ++
        [osString "versions", bundle.directory] ∧
      after.selection = some (.file (utf8
        (selectionText bundle.manifest.version bundle.identity).toList)) ∧
      ∃ node directory bytes manifest,
        Placed machine bundle before after node directory bytes manifest := by
  simp only [validateAndInstall, accepted, installationRoot, bind_eq_ok_iff]
    at success
  obtain ⟨_, ⟨⟩, _, ⟨_, _, ⟨⟩⟩, _, _, ⟨directory, nodes⟩, placed, _, _, _, _,
    cli, _, _, _, done⟩ := success
  cases done
  obtain ⟨short, node, bytes, manifest, placed⟩ :=
    placeBundle_placed (validateBundle_accepted accepted) placed
  exact ⟨short, by simp, rfl, node, directory, bytes, manifest, placed.found,
    placed.entries, placed.stored, placed.origin⟩

/-! ## The selection afterwards -/

theorem length_escapeDebug_le (character : Char) :
    (escapeDebug character).length ≤ 2 := by
  unfold escapeDebug
  split <;> simp

theorem length_debugText_le (text : String) :
    (debugText text).length ≤ 2 * text.toList.length + 2 := by
  have escaped : ∀ characters : List Char,
      (characters.flatMap escapeDebug).length ≤ 2 * characters.length := by
    intro characters
    induction characters with
    | nil => simp
    | cons character characters ih =>
        have one := length_escapeDebug_le character
        simp only [List.flatMap_cons, List.length_append, List.length_cons]
        omega
  have bound := escaped text.toList
  simp only [debugText, List.length_cons, List.length_append, List.length_nil]
  omega

theorem length_selectionText_le (version identity : String) :
    (selectionText version identity).toList.length ≤
      2 * (version.toList.length + identity.toList.length) + 52 := by
  have first := length_debugText_le version
  have second := length_debugText_le identity
  have version_label : versionLabel.length = 28 := rfl
  have manifest_label : manifestLabel.length = 19 := rfl
  rw [selectionText, String.toList_ofList]
  simp only [List.length_append, List.length_singleton]
  omega

theorem selectionText_bounded {version identity : String}
    (short : (versionDirectory version identity).length ≤ 255) :
    (utf8 (selectionText version identity).toList).length ≤
      maxManifestBytes := by
  have units := length_le_length_utf16
    (version.toList ++ '-' :: identity.toList)
  have name : (version.toList ++ '-' :: identity.toList).length ≤ 255 := by
    refine units.trans ?_
    simpa [versionDirectory, osString] using short
  rw [List.length_append, List.length_cons] at name
  have text := length_selectionText_le version identity
  have bound : maxManifestBytes = 65536 := rfl
  rw [bound]
  exact (length_utf8_le _).trans (by omega)

theorem Bundle.Accepted.validDigest (accepted : bundle.Accepted machine root) :
    Installer.validDigest bundle.identity = true := by
  rw [accepted.identity]
  exact validDigest_hex _

theorem readSelection_written (accepted : bundle.Accepted machine root)
    (parses : ParsesBack machine bundle)
    (short : bundle.directory.length ≤ 255)
    (written : after.selection = some (.file (utf8
      (selectionText bundle.manifest.version bundle.identity).toList))) :
    Host.readSelection machine after =
      .ok ⟨1, bundle.manifest.version, bundle.identity⟩ := by
  have read := @Host.readBounded_eq_ok
    (installationPath machine ++ [osString selectionName]) after.selection
    maxManifestBytes _ |>.mpr ⟨by rw [written]; rfl,
      selectionText_bounded short⟩
  have digest := accepted.validDigest
  simp only [ParsesBack] at parses
  simp [Host.readSelection, read, fromUtf8_utf8, parses, accepted.version,
    digest, bind_eq_ok_iff, orError, Functor.map, Except.map]

theorem currentSelection_written (accepted : bundle.Accepted machine root)
    (parses : ParsesBack machine bundle)
    (short : bundle.directory.length ≤ 255)
    (written : after.selection = some (.file (utf8
      (selectionText bundle.manifest.version bundle.identity).toList))) :
    currentSelection machine after = .ok (some bundle.directory) := by
  have bounded := not_lt.mpr (selectionText_bounded short)
  have digest := accepted.validDigest
  simp only [ParsesBack] at parses
  simp [currentSelection, written, Entry.followed, Entry.read, Entry.length,
    bounded, fromUtf8_utf8, parses, accepted.version, digest, bind_eq_ok_iff,
    orError, Bundle.directory, Except.toOption, Functor.map, Except.map]

/-! ## What the host finds -/

theorem ManifestFile.eq_of_matches {first second : ManifestFile}
    {name other : String} {place : Directory} (path : first.path = second.path)
    (one : Matches machine directory first name bytes)
    (two : Matches machine place second other bytes) : first = second := by
  obtain ⟨_, size, digest⟩ := first
  obtain ⟨_, again, repeated⟩ := second
  have sizes : size = again :=
    UInt64.toNat_inj.mp (one.size.symm.trans two.size)
  have digests : digest = repeated := one.digest.symm.trans two.digest
  cases path
  rw [sizes, digests]

variable (accepted : bundle.Accepted machine root)
  (placed : Placed machine bundle before after node directory bytes manifest)

include placed in
theorem Placed.readVersionFile {name : String} {held : Bytes}
    (file : findEntry machine.upcase directory name = some (.file held)) :
    after.readVersionFile machine bundle.directory name = some held := by
  simp [Installation.readVersionFile, placed.found, placed.entries, file,
    Entry.followed]

include placed in
theorem Placed.entries_eq {checked : Directory}
    (regular : node = .directory checked) : directory = checked := by
  have entries := placed.entries
  rw [regular] at entries
  exact (Option.some_inj.mp entries).symm

include accepted placed in
theorem Placed.controller :
    ∃ declared stored held,
      bundle.manifest.file? "susmd.exe" = some declared ∧
      declared.size.toNat ≤ maxFileBytes ∧
      manifest.file? "susmd.exe" = some stored ∧
      Matches machine directory stored "susmd.exe" held ∧
      declared.path = stored.path := by
  have required : "susmd.exe" ∈ requiredFiles := by simp [requiredFiles]
  obtain ⟨declared, _, known, small, _⟩ := accepted.files _ required
  obtain ⟨stored, held, also, matching⟩ := placed.stored.files _ required
  refine ⟨declared, stored, held, known, small, also, matching, ?_⟩
  have first := (accepted.valid.file?_eq_some.mp known).2
  have second := (placed.stored.valid.file?_eq_some.mp also).2
  exact first.trans second.symm

include accepted placed in
theorem fits_of_launches (parses : ParsesBack machine bundle)
    (short : bundle.directory.length ≤ 255)
    (written : after.selection = some (.file (utf8
      (selectionText bundle.manifest.version bundle.identity).toList)))
    (launches : Launches machine bundle installed after) :
    Fits bundle node bytes manifest := by
  obtain ⟨launched, declared, held, known, found, size, digest⟩ := launches
  have read := readSelection_written accepted parses short written
  obtain ⟨checked, selected, _, there, selected_held, compatible, _, _, _, _⟩ :=
    (Host.selectedController_eq_ok read).mp launched
  -- the host looks into the directory that was placed
  have regular : node = .directory checked :=
    Option.some_inj.mp (placed.found.symm.trans there)
  have same := placed.entries_eq regular
  subst same
  -- and reads the manifest that is in it
  obtain ⟨manifestBytes, followed, bounded, _, reads⟩ :=
    Host.readManifest_eq_ok.mp selected_held
  obtain ⟨entry, hentry, hfollowed⟩ := placed.stored.held
  rw [hentry, Option.bind_some, hfollowed] at followed
  cases followed
  have manifests := placed.stored.reads.unique reads
  subst manifests
  refine ⟨⟨directory, regular⟩, bounded,
    (Host.validateManifest_eq_ok placed.stored.valid).mp compatible, ?_⟩
  obtain ⟨known_declared, stored, stored_held, hknown, _, hstored, matching,
    path⟩ := placed.controller accepted
  rw [known, Option.some_inj] at hknown
  subst hknown
  rw [placed.readVersionFile matching.file, Option.some_inj] at found
  subst found
  have equal := ManifestFile.eq_of_matches path
    ⟨matching.file, size, digest⟩ matching
  rw [hstored, known, equal]

include accepted placed in
theorem launches_of_fits (parses : ParsesBack machine bundle)
    (short : bundle.directory.length ≤ 255)
    (named : installed.path = installationPath machine ++
      [osString "versions", bundle.directory])
    (written : after.selection = some (.file (utf8
      (selectionText bundle.manifest.version bundle.identity).toList)))
    (fits : Fits bundle node bytes manifest) :
    Launches machine bundle installed after := by
  obtain ⟨declared, stored, held, known, small, also, matching, _⟩ :=
    placed.controller accepted
  have equal : stored = declared := by
    have controller := fits.controller
    rw [also, known, Option.some_inj] at controller
    exact controller
  subst equal
  refine ⟨?_, stored, held, known, placed.readVersionFile matching.file,
    matching.size, matching.digest⟩
  have read := readSelection_written accepted parses short written
  obtain ⟨checked, regular⟩ := fits.regular
  have same := placed.entries_eq regular
  subst same
  obtain ⟨entry, hentry, followed⟩ := placed.stored.held
  refine (Host.selectedController_eq_ok read).mpr
    ⟨directory, manifest, stored, ?_, ?_, ?_, ?_, small, ?_, ?_⟩
  · rw [← regular]
    exact placed.found
  · refine Host.readManifest_eq_ok.mpr ⟨bytes, ?_, fits.bounded,
      placed.stored.identity, placed.stored.reads⟩
    rw [hentry, Option.bind_some, followed]
  · exact (Host.validateManifest_eq_ok placed.stored.valid).mpr fits.version
  · rw [placed.stored.valid.find?_eq_file?]
    exact also
  · exact placed.stored.valid.digests stored
      (placed.stored.valid.file?_eq_some.mp also).1
  · refine Host.checkController_eq_ok.mpr ⟨?_, held, matching.file,
      matching.size, matching.digest⟩
    rw [named]
    rfl

include accepted placed in
theorem reusable_iff_fits :
    Reusable machine bundle before ↔ Fits bundle node bytes manifest := by
  constructor
  · intro reusable
    cases placed.origin with
    | inl existing =>
        exact reusable node directory bytes manifest existing placed.entries
          placed.stored.held placed.stored.reads
    | inr fresh =>
        obtain ⟨_, rfl, rfl, rfl⟩ := fresh
        exact ⟨⟨directory, rfl⟩, accepted.bounded, rfl, rfl⟩
  · intro fits found_node entries held_bytes declared existing hentries held
      reads
    cases placed.origin with
    | inr fresh =>
        rw [existing, Option.bind_some, hentries] at fresh
        exact absurd fresh.1 (by simp)
    | inl found =>
        rw [found, Option.some_inj] at existing
        subst existing
        rw [placed.entries, Option.some_inj] at hentries
        subst hentries
        obtain ⟨entry, hentry, followed⟩ := held
        obtain ⟨stored, hstored, also⟩ := placed.stored.held
        rw [hentry, Option.some_inj] at hstored
        subst hstored
        rw [followed] at also
        cases also
        rw [reads.unique placed.stored.reads]
        exact fits

theorem validateBundle_of_success
    (success : validateAndInstall machine faults staging path root before =
      .ok (installed, after)) :
    ∃ bundle, validateBundle machine path root = .ok bundle := by
  obtain ⟨bundle, validated, _⟩ := bind_eq_ok_iff.mp success
  exact ⟨bundle, validated⟩

theorem selects_iff {chosen : InstalledVersion}
    (validated : validateBundle machine path root = .ok bundle)
    (success : validateAndInstall machine faults staging path root before =
      .ok (installed, after)) (parses : ParsesBack machine bundle) :
    Selects machine after chosen ↔
      CanonicallyNamed machine bundle chosen := by
  obtain ⟨short, _, written, _⟩ := validateAndInstall_placed validated success
  have selection := currentSelection_written
    (validateBundle_accepted validated) parses short written
  simp [Selects, selection, CanonicallyNamed]

/-- After every installation the host launches the installed controller exactly
when the version directory was not there or fits, and after every rollback the
selection leads to the chosen directory exactly when that has its own name. -/
theorem installations_launch_iff (machine : Machine) :
    (∀ faults staging path root before installed after,
      validateAndInstall machine faults staging path root before =
        .ok (installed, after) →
      ∃ bundle, validateBundle machine path root = .ok bundle ∧
        (ParsesBack machine bundle →
          (Launches machine bundle installed after ↔
            Reusable machine bundle before))) ∧
    (∀ faults staging wanted before installed after,
      rollback machine faults staging wanted before = .ok (installed, after) →
      ∃ chosen directory bundle,
        chooseVersion machine wanted before = .ok (chosen, directory) ∧
        validateBundle machine chosen.path directory = .ok bundle ∧
        (ParsesBack machine bundle →
          (Selects machine after chosen ↔
            CanonicallyNamed machine bundle chosen))) := by
  constructor
  · intro faults staging path root before installed after success
    obtain ⟨bundle, validated⟩ := validateBundle_of_success success
    refine ⟨bundle, validated, ?_⟩
    intro parses
    have accepted := validateBundle_accepted validated
    obtain ⟨short, named, written, node, directory, bytes, manifest, placed⟩ :=
      validateAndInstall_placed validated success
    rw [reusable_iff_fits accepted placed]
    constructor
    · exact fits_of_launches accepted placed parses short written
    · exact launches_of_fits accepted placed parses short named written
  · intro faults staging wanted before installed after success
    obtain ⟨⟨chosen, directory⟩, chose, success⟩ := bind_eq_ok_iff.mp success
    obtain ⟨bundle, validated⟩ := validateBundle_of_success success
    exact ⟨chosen, directory, bundle, chose, validated,
      selects_iff validated success⟩

/-! ## A small bundle -/

def smallDigest : String :=
  "9b8db510ef42b8ed54a3712636fda55a4f8cfcd5493e20b74ab00cd4f3979f2d"

def smallManifest : Manifest :=
  { bundleFormat := 1
    version := "1.0.0"
    target := "x86_64-pc-windows-msvc"
    protocolMajor := 1
    controllerSchemaReadMin := 1
    controllerSchemaReadMax := 1
    controllerSchemaWrite := 1
    supervisorRuntimeFormats := [1]
    files := requiredFiles.map fun path => ⟨path, 2, smallDigest⟩ }

def smallEntry (path : String) : List Char :=
  "  \x7b path = \"".toList ++ path.toList ++
    "\", size = 2, sha256 = \"".toList ++ smallDigest.toList ++
    "\" \x7d,\n".toList

def smallText : List Char :=
  "bundle_format = 1\nversion = \"1.0.0\"\n".toList ++
    "target = \"x86_64-pc-windows-msvc\"\nprotocol_major = 1\n".toList ++
    "controller_schema_read_min = 1\n".toList ++
    "controller_schema_read_max = 1\ncontroller_schema_write = 1\n".toList ++
    "supervisor_runtime_formats = [1]\nfiles = [\n".toList ++
    requiredFiles.flatMap smallEntry ++ "]\n".toList

/-- SHA-256 of the text above. -/
def manifestDigest : Vector UInt8 32 :=
  #v[43, 182, 48, 186, 32, 115, 5, 169, 161, 77, 104, 166, 80, 140, 97, 6, 120,
    58, 110, 213, 68, 37, 5, 71, 40, 75, 76, 138, 150, 89, 3, 114]

/-- SHA-256 of the two bytes of each executable. -/
def fileDigest : Vector UInt8 32 :=
  #v[155, 141, 181, 16, 239, 66, 184, 237, 84, 163, 113, 38, 54, 253, 165, 90,
    79, 140, 252, 213, 73, 62, 32, 183, 74, 176, 12, 212, 243, 151, 159, 45]

/-- SHA-256 and the readers on what the installations below give them. -/
def smallMachine : Machine :=
  { architecture := "x86_64"
    upcase := fun unit =>
      if 97 ≤ unit.toNat ∧ unit.toNat ≤ 122 then unit - 32 else unit
    sha256 := fun bytes =>
      if bytes = utf8 smallText then manifestDigest else fileDigest
    parseManifest := fun text =>
      if text = String.ofList smallText then .ok smallManifest
      else .error "unexpected manifest"
    parseSelection := fun text =>
      if text = selectionText "1.0.0" (hex manifestDigest) then
        .ok ⟨1, "1.0.0", hex manifestDigest⟩
      else .error "unexpected selection"
    parseVersion := fun version =>
      if version = "1.0.0" then .ok ⟨""⟩ else .error "unexpected version"
    localAppData := ["C:", "Users", "user", "AppData", "Local"].map osString }

def smallBundle : Bundle :=
  ⟨utf8 smallText, smallManifest, hex (smallMachine.sha256 (utf8 smallText))⟩

def smallRoot : Directory :=
  [(osString "manifest.toml", .file (utf8 smallText)),
    (osString "susm.exe", .file [0x4D, 0x5A]),
    (osString "susmd.exe", .file [0x4D, 0x5A]),
    (osString "susm-supervisor.exe", .file [0x4D, 0x5A])]

theorem smallText_bounded : (utf8 smallText).length ≤ maxManifestBytes := by
  have length : smallText.length = 572 := by decide +kernel
  have bound : maxManifestBytes = 65536 := rfl
  rw [bound]
  exact (length_utf8_le smallText).trans (by omega)

theorem smallManifest_valid : smallManifest.Valid "x86_64" where
  bundleFormat := rfl
  protocolMajor := rfl
  schemaRange := by decide
  runtimeFormats := by decide
  target := by decide
  files := by simp [smallManifest, Function.comp_def]
  digests := by
    have digest : validDigest smallDigest = true := by decide +kernel
    simp [smallManifest, digest]

theorem validateBundle_small (path : Path) :
    validateBundle smallMachine path smallRoot = .ok smallBundle := by
  have read : boundedRead smallMachine path smallRoot "manifest.toml"
      maxManifestBytes = .ok (utf8 smallText) :=
    boundedRead_eq_ok.mpr ⟨_, findEntry_cons_self, smallText_bounded, rfl⟩
  have decoded := fromUtf8_utf8 (String.ofList smallText)
  rw [String.toList_ofList] at decoded
  have parsed : smallMachine.parseManifest (String.ofList smallText) =
      .ok smallManifest := by simp [smallMachine]
  have version : smallMachine.parseVersion smallManifest.version =
      .ok ⟨""⟩ := by simp [smallMachine, smallManifest]
  have files : checkFiles smallMachine path smallRoot smallManifest
      requiredFiles 0 = .ok 6 := by rfl
  exact validateBundle_of_checks (by rfl) read decoded parsed
    smallManifest_valid version files (by decide)

theorem parsesBack_small : ParsesBack smallMachine smallBundle := by
  simp [ParsesBack, smallBundle, smallManifest, smallMachine]

theorem stage_small (path versions : Path) :
    stage smallMachine (fun _ => none) [] path versions smallRoot
      smallBundle = .ok smallRoot := by
  rfl

theorem length_small :
    70 ≤ smallBundle.directory.length ∧
      smallBundle.directory.length ≤ 140 := by
  have named : smallBundle.directory = utf16 ("1.0.0".toList ++
      '-' :: hexText (smallMachine.sha256 (utf8 smallText)).toList) := by
    simp only [Bundle.directory, versionDirectory, osString, smallBundle,
      smallManifest, hex, String.toList_ofList]
  have version : "1.0.0".toList.length = 5 := rfl
  have length : ("1.0.0".toList ++ '-' :: hexText
      (smallMachine.sha256 (utf8 smallText)).toList).length = 70 := by
    rw [List.length_append, List.length_cons, length_hexText, version,
      Vector.length_toList]
  rw [named]
  constructor
  · exact length ▸ length_le_length_utf16 _
  · exact (length_utf16_le _).trans (by rw [length])

theorem short_small : smallBundle.directory.length ≤ 255 :=
  length_small.2.trans (by decide)

def oneVersion (stored : FileName) (node : VersionNode) : Installation :=
  { versions := [(stored, node)], pins := fun _ => .missing
    selection := none, bin := none }

def canonicalName : FileName := ⟨smallBundle.directory, short_small⟩

/-- What a staging directory is called that was never renamed. -/
def stagingName : FileName :=
  ⟨versionDirectory ".staging-0190a000-0000-7000-8000" "00000000abcd",
    by decide⟩

theorem length_staging :
    smallBundle.directory.length ≠ stagingName.name.length := by
  have least := length_small.1
  have staging : stagingName.name.length = 45 := by decide
  omega

theorem findVersion_canonical {node : VersionNode} :
    (oneVersion canonicalName node).findVersion smallMachine.upcase
      smallBundle.directory = some node := by
  simp [oneVersion, canonicalName, Installation.findVersion, sameName_refl]

theorem findEntry_cli :
    findEntry smallMachine.upcase smallRoot "susm.exe" =
      some (.file [0x4D, 0x5A]) := by
  rfl

theorem installs_existing (path : Path) {node : VersionNode}
    (entries : node.entries? = some smallRoot) :
    ∃ installed after, validateAndInstall smallMachine (fun _ => none) []
      path smallRoot (oneVersion canonicalName node) =
        .ok (installed, after) := by
  have stored := stage_stored
    (validateBundle_accepted (validateBundle_small [])) (stage_small [] [])
  have checked := @validateInstalledDirectory_of_stored _
    (installationPath smallMachine ++ [osString "versions"]) _ _ _ _ _ stored
    (hyphen_not_mem_hex _) findEntry_cons_self smallText_bounded
  have existing : ((oneVersion canonicalName node).findVersion
      smallMachine.upcase smallBundle.directory).bind VersionNode.entries? =
        some smallRoot := by
    rw [findVersion_canonical, Option.bind_some, entries]
  exact ⟨_, _, validateAndInstall_of_placed (fun _ => rfl)
    (validateBundle_small path) (by simp [smallMachine])
    (placeBundle_of_entries existing checked) findEntry_cli (by decide)⟩

theorem installs_absent (path : Path) {before : Installation}
    (absent : before.findVersion smallMachine.upcase smallBundle.directory =
      none) :
    ∃ installed after, validateAndInstall smallMachine (fun _ => none) []
      path smallRoot before = .ok (installed, after) := by
  have nothing : (before.findVersion smallMachine.upcase
      smallBundle.directory).bind VersionNode.entries? = none := by
    rw [absent, Option.bind_none]
  exact ⟨_, _, validateAndInstall_of_placed (fun _ => rfl)
    (validateBundle_small path) (by simp [smallMachine])
    (placeBundle_of_absent (fun _ => rfl) nothing short_small
      (stage_small path _)) findEntry_cli (by decide)⟩

theorem chooses {stored : FileName} {version identity wanted : String}
    (named : stored.name = versionDirectory version identity)
    (plain : '-' ∉ identity.toList)
    (matching : version = wanted ∨ wanted.toList <+: identity.toList) :
    ∃ chosen, chosen.fileName = stored.name ∧
      chooseVersion smallMachine wanted
        (oneVersion stored (.directory smallRoot)) =
          .ok (chosen, smallRoot) := by
  refine ⟨_, ?_, chooseVersion_only (by simp [smallMachine]) rfl named plain
    rfl rfl matching⟩
  simp [InstalledVersion.fileName]

/-- A first installation is launched, and a rollback to it selects it. -/
theorem installations_launch_iff_small :
    (∃ installed after, validateAndInstall smallMachine (fun _ => none) [] []
        smallRoot ⟨[], fun _ => .missing, none, none⟩ =
          .ok (installed, after) ∧
      Launches smallMachine smallBundle installed after) ∧
    ∃ chosen installed after,
      chooseVersion smallMachine "1.0.0"
        (oneVersion canonicalName (.directory smallRoot)) =
          .ok (chosen, smallRoot) ∧
      rollback smallMachine (fun _ => none) [] "1.0.0"
        (oneVersion canonicalName (.directory smallRoot)) =
          .ok (installed, after) ∧
      Selects smallMachine after chosen := by
  obtain ⟨installation, back⟩ := installations_launch_iff smallMachine
  constructor
  · obtain ⟨installed, after, success⟩ := @installs_absent []
      ⟨[], fun _ => .missing, none, none⟩ rfl
    refine ⟨installed, after, success, ?_⟩
    obtain ⟨bundle, validated, launches⟩ := installation _ _ _ _ _ _ _ success
    rw [validateBundle_small, Except.ok.injEq] at validated
    subst validated
    apply (launches parsesBack_small).mpr
    rintro node directory bytes manifest ⟨⟩
  · obtain ⟨chosen, named, chose⟩ := @chooses canonicalName "1.0.0"
      smallBundle.identity "1.0.0"
      (by simp [canonicalName, Bundle.directory, smallBundle, smallManifest])
      (hyphen_not_mem_hex _) (.inl rfl)
    obtain ⟨installed, after, installs⟩ :=
      @installs_existing chosen.path (.directory smallRoot) rfl
    have success : rollback smallMachine (fun _ => none) [] "1.0.0"
        (oneVersion canonicalName (.directory smallRoot)) =
          .ok (installed, after) :=
      bind_eq_ok_iff.mpr ⟨_, chose, installs⟩
    refine ⟨chosen, installed, after, chose, success, ?_⟩
    obtain ⟨_, _, bundle, choice, validated, selects⟩ :=
      back _ _ _ _ _ _ success
    rw [chose, Except.ok.injEq, Prod.mk.injEq] at choice
    obtain ⟨rfl, rfl⟩ := choice
    rw [validateBundle_small, Except.ok.injEq] at validated
    subst validated
    apply (selects parsesBack_small).mpr
    simp only [CanonicallyNamed, named, canonicalName, sameName_refl]

/-- A link is taken over, and the host refuses it; a staging directory is
chosen, and its copy is selected. -/
theorem installations_launch_fails :
    (¬∀ machine faults staging path root before bundle installed after,
      validateBundle machine path root = .ok bundle →
      validateAndInstall machine faults staging path root before =
        .ok (installed, after) →
      ParsesBack machine bundle →
      Launches machine bundle installed after) ∧
    ¬∀ machine faults staging wanted before chosen directory bundle installed
        after,
      chooseVersion machine wanted before = .ok (chosen, directory) →
      validateBundle machine chosen.path directory = .ok bundle →
      rollback machine faults staging wanted before =
        .ok (installed, after) →
      ParsesBack machine bundle → Selects machine after chosen := by
  have accepted := validateBundle_accepted (validateBundle_small [])
  constructor
  · intro launches
    obtain ⟨installed, after, success⟩ :=
      @installs_existing [] (.link (some smallRoot)) rfl
    obtain ⟨short, _, written, node, directory, bytes, manifest, placed⟩ :=
      validateAndInstall_placed (validateBundle_small []) success
    have fits := fits_of_launches accepted placed parsesBack_small short
      written (launches _ _ _ _ _ _ _ _ _ (validateBundle_small []) success
        parsesBack_small)
    have reusable := (reusable_iff_fits accepted placed).mpr fits
    have stored := stage_stored accepted (stage_small [] [])
    obtain ⟨_, regular⟩ := (reusable _ _ _ _ findVersion_canonical rfl
      stored.held stored.reads).regular
    cases regular
  · intro selects
    obtain ⟨chosen, named, chose⟩ := @chooses stagingName
      ".staging-0190a000-0000-7000-8000" "00000000abcd" "00000000abcd" rfl
      (by decide) (.inr List.prefix_rfl)
    have different : sameName smallMachine.upcase smallBundle.directory
        stagingName.name = false := not_sameName_of_length length_staging
    have absent : (oneVersion stagingName (.directory smallRoot)).findVersion
        smallMachine.upcase smallBundle.directory = none := by
      rw [sameName_comm] at different
      simp [oneVersion, Installation.findVersion, different]
    obtain ⟨installed, after, success⟩ := installs_absent chosen.path absent
    have canonical := (selects_iff (validateBundle_small chosen.path) success
      parsesBack_small).mp (selects _ _ _ _ _ _ _ _ _ _ chose
        (validateBundle_small chosen.path)
        (bind_eq_ok_iff.mpr ⟨_, chose, success⟩) parsesBack_small)
    rw [CanonicallyNamed, named, different] at canonical
    cases canonical

end Susm.Installer
