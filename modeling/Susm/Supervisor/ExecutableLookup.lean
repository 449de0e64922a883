import Susm.Foundation.Map
import Susm.Supervisor.Runner

/-!
# Executable lookup

A bare executable name is looked up in the directories of `PATH`.  The
functions of `std::path` are a parameter; everything proved here holds for
whatever they are.
-/

namespace Susm.Supervisor

open Susm.Foundation

abbrev PathText := List Char

/-- `Path::components().count()`, `is_absolute`, `join` and whether there is
an `extension`. -/
structure PathFunctions where
  componentCount : PathText → Nat
  isAbsolute : PathText → Bool
  join : PathText → PathText → PathText
  hasExtension : PathText → Bool

/--
`std::env::split_paths` on Windows: the text between semicolons that stand
outside quotes, without the quotes.
-/
def splitPaths (inQuote : Bool) : List Char → List PathText
  | [] => [[]]
  | character :: rest =>
      if character = '"' then splitPaths (!inQuote) rest
      else if character = ';' && !inQuote then [] :: splitPaths false rest
      else
        match splitPaths inQuote rest with
        | [] => [[character]]
        | first :: others => (character :: first) :: others

section Lookup

variable (paths : PathFunctions) (isFile : PathText → Bool)
  (value workingDirectory : PathText)

/-- The exact name in the directory, then the name with `.exe`. -/
def findInDirectory (directory : PathText) : Option PathText :=
  let exact := paths.join directory value
  if isFile exact then some exact
  else if !paths.hasExtension value then
    let executable := paths.join directory (value ++ ".exe".toList)
    if isFile executable then some executable else none
  else none

/-- The directory that an entry of `PATH` stands for. -/
def entryDirectory (entry : PathText) : PathText :=
  if paths.isAbsolute entry then entry else paths.join workingDirectory entry

/-- What the loop over `PATH` finds for one entry. -/
def findForEntry (entry : PathText) : Option PathText :=
  findInDirectory paths isFile value
    (entryDirectory paths workingDirectory entry)

def searchPath : List PathText → Option PathText
  | [] => none
  | entry :: entries =>
      match findForEntry paths isFile value workingDirectory entry with
      | some found => some found
      | none => searchPath entries

def notFound : RunError :=
  .preflight s!"executable was not found on PATH: {String.ofList value}"

def resolveExecutable (environment : Map String String) :
    Except RunError PathText :=
  if paths.componentCount value > 1 then
    if paths.isAbsolute value && isFile value then .ok value
    else
      .error (.preflight
        s!"executable is not an existing absolute file: {String.ofList value}")
  else
    match environment.lookup "PATH" with
    | none => .error (.preflight "PATH is missing")
    | some pathValue =>
        match searchPath paths isFile value workingDirectory
            (splitPaths false pathValue.toList) with
        | some found => .ok found
        | none => .error (notFound value)

/-! ## Listed directories -/

/-- The entries of `PATH` that name a directory. -/
def listedEntries (pathValue : String) : List PathText :=
  (splitPaths false pathValue.toList).filter (· ≠ [])

def namesTried (directory : PathText) : List PathText :=
  if paths.hasExtension value then [paths.join directory value]
  else
    [paths.join directory value,
      paths.join directory (value ++ ".exe".toList)]

def listedFile (pathValue : String) : Option PathText :=
  ((listedEntries pathValue).flatMap fun entry =>
    namesTried paths value (entryDirectory paths workingDirectory entry)).find?
      isFile

def lookupListed (pathValue : String) : Except RunError PathText :=
  match listedFile paths isFile value workingDirectory pathValue with
  | some found => .ok found
  | none => .error (notFound value)

end Lookup

section Search

variable {paths : PathFunctions} {isFile : PathText → Bool}
  {value workingDirectory : PathText}

theorem searchPath_eq (entries : List PathText) :
    searchPath paths isFile value workingDirectory entries =
      entries.findSome?
        (findForEntry paths isFile value workingDirectory) := by
  induction entries with
  | nil => rfl
  | cons entry entries ih =>
      rw [searchPath, List.findSome?_cons, ih]
      cases findForEntry paths isFile value workingDirectory entry <;> rfl

theorem findInDirectory_eq (directory : PathText) :
    findInDirectory paths isFile value directory =
      (namesTried paths value directory).find? isFile := by
  unfold findInDirectory namesTried
  cases paths.hasExtension value <;> simp [List.find?_cons] <;> grind

theorem listedFile_eq (pathValue : String) :
    listedFile paths isFile value workingDirectory pathValue =
      (listedEntries pathValue).findSome?
        (findForEntry paths isFile value workingDirectory) := by
  unfold listedFile
  rw [List.find?_flatMap]
  congr 1
  funext entry
  exact (findInDirectory_eq _).symm

end Search

/-! ## Entries that are skipped -/

section Skipping

variable {Entry Found : Type} [DecidableEq Entry] {find : Entry → Option Found}
  {skipped : Entry}

theorem findSome_filter_of_none (h : find skipped = none)
    (entries : List Entry) :
    (entries.filter (· ≠ skipped)).findSome? find =
      entries.findSome? find := by
  induction entries with
  | nil => rfl
  | cons entry entries ih =>
      by_cases heq : entry = skipped
      · subst heq
        simpa [h] using ih
      · rw [List.filter_cons_of_pos (by simpa using heq),
          List.findSome?_cons, List.findSome?_cons, ih]

theorem findSome_filter_iff (entries : List Entry) :
    entries.findSome? find = (entries.filter (· ≠ skipped)).findSome? find ↔
      skipped ∉ entries ∨ find skipped = none ∨
        (∃ entry ∈ entries.takeWhile (· ≠ skipped), (find entry).isSome) ∨
        (entries.filter (· ≠ skipped)).findSome? find = find skipped := by
  cases hskipped : find skipped with
  | none => simpa using (findSome_filter_of_none hskipped entries).symm
  | some planted =>
      induction entries with
      | nil => simp
      | cons entry entries ih =>
          by_cases heq : entry = skipped
          · subst heq
            simpa [hskipped] using eq_comm
          · cases hentry : find entry with
            | some found => simp [heq, hentry]
            | none => simpa [heq, hentry, Ne.symm heq] using ih

end Skipping

/--
The lookup finds what the listed directories hold unless an empty entry comes
first and the working directory holds one of the names, as another file.
-/
theorem resolveExecutable_listed_iff {paths : PathFunctions}
    {isFile : PathText → Bool} {value workingDirectory : PathText}
    {environment : Map String String} {pathValue : String}
    (bare : paths.componentCount value ≤ 1)
    (set : environment.lookup "PATH" = some pathValue) :
    let find := findForEntry paths isFile value workingDirectory
    let entries := splitPaths false pathValue.toList
    resolveExecutable paths isFile value workingDirectory environment =
        lookupListed paths isFile value workingDirectory pathValue ↔
      [] ∉ entries ∨ find [] = none ∨
        (∃ entry ∈ entries.takeWhile (· ≠ []), (find entry).isSome) ∨
        listedFile paths isFile value workingDirectory pathValue =
          find [] := by
  intro find entries
  have hresolve :
      resolveExecutable paths isFile value workingDirectory environment =
        match entries.findSome? find with
        | some found => .ok found
        | none => .error (notFound value) := by
    rw [resolveExecutable, if_neg (Nat.not_lt.mpr bare), set]
    dsimp only
    rw [searchPath_eq]
  have hlisted :
      lookupListed paths isFile value workingDirectory pathValue =
        match (entries.filter (· ≠ [])).findSome? find with
        | some found => .ok found
        | none => .error (notFound value) := by
    rw [lookupListed, listedFile_eq]
    rfl
  rw [hresolve, hlisted, listedFile_eq, listedEntries,
    ← findSome_filter_iff entries]
  generalize entries.findSome? find = first
  generalize (entries.filter (· ≠ [])).findSome? find = second
  cases first <;> cases second <;> simp

/-! ## Paths with a drive letter -/

def isPathSeparator (character : Char) : Bool :=
  character = '\\' || character = '/'

def splitDrive : PathText → PathText × PathText
  | letter :: ':' :: rest =>
      if letter.isAlpha then ([letter, ':'], rest)
      else ([], letter :: ':' :: rest)
  | path => ([], path)

def hasRoot (path : PathText) : Bool :=
  (splitDrive path).2.head?.any isPathSeparator

/-- The names in the path; `.` counts only as its first component. -/
def pathNames (path : PathText) : List PathText :=
  let (drive, rest) := splitDrive path
  let parts := rest.splitOnP isPathSeparator
  let relative := drive = [] && !hasRoot path
  (if relative then parts.take 1 else []).filter (· = ['.']) ++
    parts.filter fun part => part ≠ [] && part ≠ ['.']

def componentExtension (name : PathText) : Option PathText :=
  let reversed := name.reverse
  let before := (reversed.dropWhile (· ≠ '.')).drop 1
  if name = ['.', '.'] || before = [] then none
  else some (reversed.takeWhile (· ≠ '.')).reverse

/-- Windows paths that are relative or start with a drive letter. -/
def drivePaths : PathFunctions where
  componentCount path :=
    (if (splitDrive path).1 = [] then 0 else 1) +
      (if hasRoot path then 1 else 0) + (pathNames path).length
  isAbsolute path := (splitDrive path).1 ≠ [] && hasRoot path
  join base path :=
    if (splitDrive path).1 ≠ [] then path
    else if hasRoot path then (splitDrive base).1 ++ path
    else if (splitDrive base).2 = [] || base.getLast?.any isPathSeparator then
      base ++ path
    else base ++ '\\' :: path
  hasExtension path :=
    ((pathNames path).getLast?.bind componentExtension).isSome

/-- The only file is in the working directory, which `PATH` does not list. -/
def plantedFile (path : PathText) : Bool :=
  path = "C:\\work\\tool.exe".toList

def plantedEnvironment : Map String String :=
  (∅ : Map String String).insert "PATH" ";C:\\bin"

theorem working_directory_searched :
    resolveExecutable drivePaths plantedFile "tool".toList
        "C:\\work".toList plantedEnvironment =
      .ok "C:\\work\\tool.exe".toList ∧
    lookupListed drivePaths plantedFile "tool".toList "C:\\work".toList
        ";C:\\bin" =
      .error (notFound "tool".toList) := by
  decide +kernel

/-- With the empty entry at the end, behind a directory that has the tool. -/
theorem resolveExecutable_listed_iff_last :
    resolveExecutable drivePaths (fun _ => true) "tool".toList
        "C:\\work".toList
        ((∅ : Map String String).insert "PATH" "C:\\bin;") =
      lookupListed drivePaths (fun _ => true) "tool".toList
        "C:\\work".toList "C:\\bin;" :=
  (resolveExecutable_listed_iff (by decide +kernel) (by decide +kernel)).mpr
    (.inr (.inr (.inl (by decide +kernel))))

end Susm.Supervisor
