import Mathlib.Data.Finset.Card
import Susm.Installer.Manifest

/-!
# Bundles

The checks that `validate_and_install` makes before it touches the
installation.
-/

namespace Susm.Installer

open Susm.Foundation

/-! ## Access to files -/

section Access

variable (machine : Machine) (path : Path) (directory : Directory)

/-- `fs::symlink_metadata` of a file of the directory. -/
def metadata (name : String) : Except InstallError Entry :=
  orError (findEntry machine.upcase directory name)
    (.io (path ++ [osString name]) .notFound)

def readFile (name : String) : Except InstallError Bytes := do
  let entry ← metadata machine path directory name
  entry.read.mapError (.io (path ++ [osString name]))

def boundedRead (name : String) (maximum : Nat) :
    Except InstallError Bytes := do
  let entry ← metadata machine path directory name
  failIf (maximum < entry.length)
    (.invalid (display (path ++ [osString name]) ++ " exceeds its size limit"))
  entry.read.mapError (.io (path ++ [osString name]))

def digestFile (name : String) : Except InstallError String := do
  let bytes ← readFile machine path directory name
  return hex (machine.sha256 bytes)

end Access

/-! ## The bundle directory -/

/-- `str::to_uppercase` of a name that is one of the four. -/
def toUppercase (name : String) : List Char := name.toList.map Char.toUpper

/-- The upper-case names of the entries, all of which have to be expected. -/
def sourceNames (path : Path) :
    Directory → Finset (List Char) → Except InstallError (Finset (List Char))
  | [], names => .ok names
  | (name, entry) :: rest, names => do
      failIf (entry.isFile = false ∨ entry.isSymlink = true)
        (.invalid ("bundle entry " ++ display (path ++ [name]) ++
          " is not a regular file"))
      let text ← orError (toStr name)
        (.invalid "bundle filename is not Unicode")
      failIf (text ≠ "manifest.toml" ∧ text ∉ requiredFiles)
        (.invalid ("bundle contains unexpected file " ++ text))
      sourceNames path rest (insert (toUppercase text) names)

def validateSourceRoot (path : Path) (root : Directory) :
    Except InstallError Unit := do
  let names ← sourceNames path root ∅
  failIf (names.card ≠ requiredFiles.length + 1 ∨
      toUppercase "manifest.toml" ∉ names ∨
      ∃ name ∈ requiredFiles, toUppercase name ∉ names)
    (.invalid
      "bundle must contain exactly the manifest and three executables")

theorem isFile_of_sourceNames {path : Path} {root : Directory}
    {before names : Finset (List Char)}
    (accepted : sourceNames path root before = .ok names) :
    ∀ stored ∈ root, stored.2.isFile = true := by
  induction root generalizing before with
  | nil => simp
  | cons first rest ih =>
      simp only [sourceNames, bind_eq_ok_iff, failIf_eq_ok, orError_eq_ok]
        at accepted
      obtain ⟨_, regular, _, _, _, _, later⟩ := accepted
      intro stored member
      cases List.mem_cons.mp member with
      | inl same =>
          rw [same]
          simpa using fun notFile => regular (.inl notFile)
      | inr member => exact ih later stored member

theorem isFile_of_validateSourceRoot {path : Path} {root : Directory}
    (accepted : validateSourceRoot path root = .ok ()) :
    ∀ stored ∈ root, stored.2.isFile = true := by
  obtain ⟨names, accepted, _⟩ := bind_eq_ok_iff.mp accepted
  exact isFile_of_sourceNames accepted

/-! ## The files of a bundle -/

/-- `u64::checked_add` -/
def checkedAdd (total : Nat) (size : UInt64) : Option Nat :=
  if total + size.toNat < 2 ^ 64 then some (total + size.toNat) else none

def checkFiles (machine : Machine) (path : Path) (root : Directory)
    (manifest : Manifest) : List String → Nat → Except InstallError Nat
  | [], total => .ok total
  | name :: names, total => do
      let declared ← orError (manifest.file? name)
        (.invalid ("manifest does not declare " ++ name))
      failIf (maxFileBytes < declared.size.toNat)
        (.invalid (name ++ " exceeds 256 MiB"))
      let total ← orError (checkedAdd total declared.size)
        (.invalid "payload size overflowed")
      let entry ← metadata machine path root name
      failIf (entry.length ≠ declared.size.toNat)
        (.invalid (name ++ " size is " ++ toString entry.length ++
          ", expected " ++ toString declared.size))
      let digest ← digestFile machine path root name
      failIf (digest ≠ declared.sha256)
        (.invalid (name ++ " SHA-256 does not match"))
      checkFiles machine path root manifest names total

structure Bundle where
  manifestBytes : Bytes
  manifest : Manifest
  identity : String

def validateBundle (machine : Machine) (path : Path) (root : Directory) :
    Except InstallError Bundle := do
  validateSourceRoot path root
  let bytes ← boundedRead machine path root "manifest.toml" maxManifestBytes
  let text ← orError (fromUtf8 bytes) (.invalid "manifest is not UTF-8")
  let manifest ← (machine.parseManifest text).mapError .manifest
  validateManifest machine.architecture manifest
  let version ← (machine.parseVersion manifest.version).mapError .version
  failIf (version.build ≠ "")
    (.invalid "bundle version must not contain build metadata")
  let total ← checkFiles machine path root manifest requiredFiles 0
  failIf (maxPayloadBytes < total) (.invalid "payload exceeds 768 MiB")
  return ⟨bytes, manifest, hex (machine.sha256 bytes)⟩

/-! ## What an accepted bundle is -/

section Accepted

variable {machine : Machine} {path : Path} {directory root : Directory}
  {manifest : Manifest} {name : String}

def Reads (machine : Machine) (bytes : Bytes) (manifest : Manifest) : Prop :=
  ∃ text, fromUtf8 bytes = some text ∧
    machine.parseManifest text = .ok manifest

theorem Reads.unique {bytes : Bytes} {other : Manifest}
    (reads : Reads machine bytes manifest)
    (again : Reads machine bytes other) : manifest = other := by
  obtain ⟨text, decoded, parsed⟩ := reads
  obtain ⟨same, decoded_again, parsed_again⟩ := again
  rw [decoded, Option.some_inj] at decoded_again
  subst decoded_again
  rw [parsed, Except.ok.injEq] at parsed_again
  exact parsed_again

structure Matches (machine : Machine) (directory : Directory)
    (declared : ManifestFile) (name : String) (bytes : Bytes) : Prop where
  file : findEntry machine.upcase directory name = some (.file bytes)
  size : bytes.length = declared.size.toNat
  digest : hex (machine.sha256 bytes) = declared.sha256

theorem readFile_eq_ok {bytes : Bytes} :
    readFile machine path directory name = .ok bytes ↔
      ∃ entry, findEntry machine.upcase directory name = some entry ∧
        entry.followed = some (.file bytes) := by
  simp [readFile, metadata, bind_eq_ok_iff, Entry.read_eq_ok]

theorem boundedRead_eq_ok {bytes : Bytes} {maximum : Nat} :
    boundedRead machine path directory name maximum = .ok bytes ↔
      ∃ entry, findEntry machine.upcase directory name = some entry ∧
        entry.length ≤ maximum ∧ entry.followed = some (.file bytes) := by
  simp [boundedRead, metadata, bind_eq_ok_iff, Entry.read_eq_ok]

theorem digestFile_file {bytes : Bytes} {digest : String}
    (file : findEntry machine.upcase directory name = some (.file bytes))
    (digested : digestFile machine path directory name = .ok digest) :
    digest = hex (machine.sha256 bytes) := by
  obtain ⟨read, held, digested⟩ := bind_eq_ok_iff.mp digested
  obtain ⟨entry, found, followed⟩ := readFile_eq_ok.mp held
  rw [file, Option.some_inj] at found
  subst found
  cases followed
  cases digested
  rfl

theorem checkFiles_matches {names : List String} {total last : Nat}
    (regular : ∀ stored ∈ root, stored.2.isFile = true)
    (accepted : checkFiles machine path root manifest names total = .ok last) :
    ∀ name ∈ names, ∃ declared bytes, manifest.file? name = some declared ∧
      declared.size.toNat ≤ maxFileBytes ∧
      Matches machine root declared name bytes := by
  induction names generalizing total with
  | nil => simp
  | cons first names ih =>
      simp only [checkFiles, metadata, bind_eq_ok_iff, failIf_eq_ok,
        orError_eq_ok] at accepted
      obtain ⟨declared, known, _, small, _, _, entry, found, _, size, digest,
        digested, _, same, later⟩ := accepted
      intro name member
      cases List.mem_cons.mp member with
      | inr member => exact ih later name member
      | inl equal =>
          subst equal
          obtain ⟨stored, hstored⟩ := mem_of_findEntry found
          obtain ⟨bytes, rfl⟩ := Entry.eq_file_of_isFile (regular _ hstored)
          refine ⟨declared, bytes, known, by omega, found, ?_, ?_⟩
          · simpa [Entry.length] using size
          · rw [← digestFile_file found digested]
            simpa using same

/-- What is known of a bundle and its directory once it is accepted. -/
structure Bundle.Accepted (machine : Machine) (root : Directory)
    (bundle : Bundle) : Prop where
  stored : findEntry machine.upcase root "manifest.toml" =
    some (.file bundle.manifestBytes)
  bounded : bundle.manifestBytes.length ≤ maxManifestBytes
  reads : Reads machine bundle.manifestBytes bundle.manifest
  valid : bundle.manifest.Valid machine.architecture
  version : machine.parseVersion bundle.manifest.version = .ok ⟨""⟩
  identity : bundle.identity = hex (machine.sha256 bundle.manifestBytes)
  files : ∀ name ∈ requiredFiles, ∃ declared bytes,
    bundle.manifest.file? name = some declared ∧
      declared.size.toNat ≤ maxFileBytes ∧
      Matches machine root declared name bytes

theorem validateBundle_accepted {bundle : Bundle}
    (accepted : validateBundle machine path root = .ok bundle) :
    bundle.Accepted machine root := by
  simp only [validateBundle, bind_eq_ok_iff, orError_eq_ok, mapError_eq_ok,
    failIf_eq_ok, boundedRead_eq_ok] at accepted
  obtain ⟨_, source, bytes, ⟨entry, found, bounded, followed⟩, text, decoded,
    manifest, parsed, _, valid, ⟨build⟩, version, _, plain, total, checked, _,
    _, done⟩ := accepted
  cases done
  have regular := isFile_of_validateSourceRoot source
  obtain ⟨stored, hstored⟩ := mem_of_findEntry found
  obtain ⟨bytes, rfl⟩ := Entry.eq_file_of_isFile (regular _ hstored)
  cases followed
  have unbuilt : build = "" := by simpa using plain
  subst unbuilt
  exact ⟨found, bounded, ⟨text, decoded, parsed⟩,
    validateManifest_eq_ok.mp valid, version, rfl,
    checkFiles_matches regular checked⟩

theorem validateBundle_of_checks {bytes : Bytes} {text : String}
    {total : Nat} (source : validateSourceRoot path root = .ok ())
    (read : boundedRead machine path root "manifest.toml" maxManifestBytes =
      .ok bytes)
    (decoded : fromUtf8 bytes = some text)
    (parsed : machine.parseManifest text = .ok manifest)
    (valid : manifest.Valid machine.architecture)
    (version : machine.parseVersion manifest.version = .ok ⟨""⟩)
    (files : checkFiles machine path root manifest requiredFiles 0 =
      .ok total)
    (bounded : total ≤ maxPayloadBytes) :
    validateBundle machine path root =
      .ok ⟨bytes, manifest, hex (machine.sha256 bytes)⟩ := by
  have accepted := validateManifest_eq_ok.mpr valid
  have small := not_lt.mpr bounded
  simp [validateBundle, source, read, decoded, parsed, accepted, version,
    files, small, orError, Except.mapError, bind, Except.bind, pure,
    Except.pure]

end Accepted

end Susm.Installer
