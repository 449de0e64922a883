import Susm.Foundation.EventMachine
import Susm.Foundation.OrderedMap
import Susm.Foundation.Splitting
import Susm.Foundation.Utf16
import Susm.Supervisor.CommandLine
import Mathlib.Data.String.Basic

/-!
# Environment blocks

An environment as Windows takes and gives it: UTF-16 entries that each end in
a zero unit, and one more zero unit behind them.  Here is how the supervisor
writes such a block for a process and how it reads the block of the user.
-/

namespace Susm.Supervisor

open Susm.Foundation

abbrev EnvironmentMap := OrderedMap String String

/-! ## Writing -/

/-- `name.strip_prefix('=').unwrap_or(name)` -/
def withoutLeadingEquals : List Char → List Char
  | '=' :: name => name
  | name => name

def encodeVariable (name value : String) : Except ProcessError (List UInt16) :=
  if name.isEmpty || name.toList.contains '\x00' ||
      value.toList.contains '\x00' then
    .error (.invalid "environment names and values must not contain NUL")
  else if (withoutLeadingEquals name.toList).contains '=' then
    .error (.invalid ("environment name contains '=': " ++ name))
  else .ok (utf16 (name.toList ++ '=' :: value.toList) ++ [0])

def encodeEnvironment (environment : EnvironmentMap) :
    Except ProcessError (List UInt16) := do
  let block ← environment.entries.foldlM
    (fun block entry => do
      return block ++ (← encodeVariable entry.1 entry.2)) []
  let block := block ++ [0]
  return if block.length = 1 then block ++ [0] else block

/-! ## Reading -/

/-- A block that cannot be read: the error of the reader, or a unit that it
looks at beyond the end of the memory. -/
inductive BlockFault where
  | process (error : ProcessError)
  | outOfBounds
  deriving DecidableEq, Repr

def splitEntry : List Char → Option (List Char × List Char)
  | '=' :: entry =>
      (splitOnce '=' entry).map fun (name, value) => ('=' :: name, value)
  | entry => splitOnce '=' entry

def parseEntry (toUppercase : String → String) (units : List UInt16) :
    Except ProcessError (String × String) :=
  match fromUtf16 units with
  | none => .error (.invalid "user environment contains invalid UTF-16")
  | some entry =>
      match splitEntry entry with
      | none => .error (.invalid "user environment entry has no '='")
      | some (name, value) =>
          .ok (toUppercase (String.ofList name), String.ofList value)

/--
The loop of `parse_environment_block` on the memory from the cursor on.  The
result has the memory from the last position of the cursor on.
-/
def parseBlockFrom (toUppercase : String → String)
    (environment : EnvironmentMap) (cursor : List UInt16) :
    Except BlockFault (EnvironmentMap × List UInt16) :=
  match _h : splitOnce 0 cursor with
  | none => .error .outOfBounds
  | some ([], _) => .ok (environment, cursor)
  | some (entry, next) =>
      match parseEntry toUppercase entry with
      | .error error => .error (.process error)
      | .ok (name, value) =>
          parseBlockFrom toUppercase (environment.insert name value) next
termination_by cursor.length
decreasing_by exact length_lt_of_splitOnce _h

def parseEnvironmentBlock (toUppercase : String → String)
    (memory : List UInt16) : Except BlockFault (EnvironmentMap × List UInt16) :=
  parseBlockFrom toUppercase .empty memory

/-! ## What can be written -/

/-- A name and a value that an entry can hold. -/
structure Encodable (name value : String) : Prop where
  nonempty : name ≠ ""
  nameNull : '\x00' ∉ name.toList
  nameEquals : '=' ∉ withoutLeadingEquals name.toList
  valueNull : '\x00' ∉ value.toList

def entryUnits (entry : String × String) : List UInt16 :=
  utf16 (entry.1.toList ++ '=' :: entry.2.toList) ++ [0]

def terminator (environment : EnvironmentMap) : List UInt16 :=
  if environment.entries = [] then [0, 0] else [0]

theorem encodeEntry_eq_ok {name value : String} {units : List UInt16} :
    encodeVariable name value = .ok units ↔
      Encodable name value ∧ units = entryUnits (name, value) := by
  unfold encodeVariable
  split
  · rename_i bad
    refine ⟨nofun, fun ⟨good, _⟩ => ?_⟩
    simp [good.nonempty, good.nameNull, good.valueNull] at bad
  · rename_i plain
    simp only [Bool.or_eq_true, String.isEmpty_iff, List.contains_eq_mem,
      decide_eq_true_eq, not_or] at plain
    split
    · rename_i bad
      refine ⟨nofun, fun ⟨good, _⟩ => ?_⟩
      simp [good.nameEquals] at bad
    · rename_i separable
      constructor
      · rintro h
        cases h
        exact ⟨⟨plain.1.1, plain.1.2, by simpa using separable, plain.2⟩, rfl⟩
      · rintro ⟨-, rfl⟩
        rfl

theorem encodeEntries_eq_ok {entries : List (String × String)}
    {start block : List UInt16} :
    entries.foldlM
        (fun block entry => do
          return block ++ (← encodeVariable entry.1 entry.2))
        start = (.ok block : Except ProcessError (List UInt16)) ↔
      (∀ entry ∈ entries, Encodable entry.1 entry.2) ∧
        block = start ++ entries.flatMap entryUnits := by
  induction entries generalizing start with
  | nil =>
      simp only [List.foldlM_nil, List.not_mem_nil, List.flatMap_nil,
        List.append_nil]
      constructor
      · rintro h
        cases h
        exact ⟨nofun, rfl⟩
      · rintro ⟨-, rfl⟩
        rfl
  | cons entry entries ih =>
      rw [List.foldlM_cons, List.forall_mem_cons, List.flatMap_cons]
      cases encoded : encodeVariable entry.1 entry.2 with
      | error error =>
          refine ⟨nofun, fun ⟨⟨good, _⟩, _⟩ => ?_⟩
          rw [encodeEntry_eq_ok.mpr ⟨good, rfl⟩] at encoded
          cases encoded
      | ok units =>
          obtain ⟨good, rfl⟩ := encodeEntry_eq_ok.mp encoded
          rw [← List.append_assoc]
          exact ih.trans (and_congr_left fun _ =>
            (and_iff_right (show Encodable entry.1 entry.2 from good)).symm)

theorem encodeEnvironment_eq_ok {environment : EnvironmentMap}
    {block : List UInt16} :
    encodeEnvironment environment = .ok block ↔
      (∀ entry ∈ environment.entries, Encodable entry.1 entry.2) ∧
        block = environment.entries.flatMap entryUnits ++
          terminator environment := by
  have padded : ∀ units : List UInt16,
      units = environment.entries.flatMap entryUnits →
      (if (units ++ [0]).length = 1 then units ++ [0] ++ [0]
        else units ++ [0]) = units ++ terminator environment := by
    rintro units rfl
    cases h : environment.entries with
    | nil => simp [terminator, h]
    | cons entry entries =>
        simp [terminator, h, entryUnits]
        omega
  unfold encodeEnvironment
  rw [bind_eq_ok_iff]
  constructor
  · rintro ⟨units, encoded, written⟩
    obtain ⟨good, hunits⟩ := encodeEntries_eq_ok.mp encoded
    rw [List.nil_append] at hunits
    cases written
    exact ⟨good, by rw [padded units hunits, hunits]⟩
  · rintro ⟨good, rfl⟩
    refine ⟨_, encodeEntries_eq_ok.mpr ⟨good, rfl⟩, ?_⟩
    rw [List.nil_append, ← padded _ rfl]
    rfl

/-! ## Reading back -/

theorem splitEntry_encodable {name value : String}
    (encodable : Encodable name value) :
    splitEntry (name.toList ++ '=' :: value.toList) =
      some (name.toList, value.toList) := by
  have nonempty : name.toList ≠ [] := by simpa using encodable.nonempty
  have separable := encodable.nameEquals
  cases h : name.toList with
  | nil => exact absurd h nonempty
  | cons first rest =>
      rw [h] at separable
      by_cases hfirst : first = '='
      · subst hfirst
        rw [List.cons_append, splitEntry,
          splitOnce_append (show '=' ∉ rest from separable)]
        rfl
      · have unchanged : withoutLeadingEquals (first :: rest) =
            first :: rest := by
          unfold withoutLeadingEquals
          split
          · rename_i heq
            cases heq
            exact absurd rfl hfirst
          · rfl
        rw [unchanged] at separable
        unfold splitEntry
        split
        · rename_i heq
          cases heq
          exact absurd rfl hfirst
        · exact splitOnce_append separable

variable {toUppercase : String → String}

theorem parseEntry_encodable {name value : String}
    (encodable : Encodable name value) (upper : toUppercase name = name) :
    parseEntry toUppercase (utf16 (name.toList ++ '=' :: value.toList)) =
      .ok (name, value) := by
  simp [parseEntry, splitEntry_encodable encodable, upper]

theorem splitOnce_entryUnits {entry : String × String} {rest : List UInt16}
    (encodable : Encodable entry.1 entry.2) :
    splitOnce 0 (entryUnits entry ++ rest) =
        some (utf16 (entry.1.toList ++ '=' :: entry.2.toList), rest) ∧
      utf16 (entry.1.toList ++ '=' :: entry.2.toList) ≠ [] := by
  constructor
  · rw [entryUnits, List.append_assoc, List.singleton_append]
    refine splitOnce_append ?_
    simp [zero_mem_utf16, encodable.nameNull, encodable.valueNull]
  · intro h
    have empty := fromUtf16_utf16 (entry.1.toList ++ '=' :: entry.2.toList)
    rw [h] at empty
    simp [fromUtf16] at empty

theorem parseBlockFrom_entryUnits {environment : EnvironmentMap}
    {entry : String × String} {rest : List UInt16}
    (encodable : Encodable entry.1 entry.2)
    (upper : toUppercase entry.1 = entry.1) :
    parseBlockFrom toUppercase environment (entryUnits entry ++ rest) =
      parseBlockFrom toUppercase (environment.insert entry.1 entry.2) rest := by
  obtain ⟨split, nonempty⟩ := @splitOnce_entryUnits entry rest encodable
  rw [parseBlockFrom]
  split
  · simp_all
  · simp_all
  · rename_i units next _ h
    rw [split] at h
    cases h
    simp [parseEntry_encodable encodable upper]

theorem parseBlockFrom_zero {environment : EnvironmentMap}
    {rest : List UInt16} :
    parseBlockFrom toUppercase environment (0 :: rest) =
      .ok (environment, 0 :: rest) := by
  rw [parseBlockFrom]
  split <;> simp_all [splitOnce]

theorem parseBlockFrom_entries {entries : List (String × String)}
    {environment : EnvironmentMap} {rest : List UInt16}
    (encodable : ∀ entry ∈ entries, Encodable entry.1 entry.2)
    (upper : ∀ entry ∈ entries, toUppercase entry.1 = entry.1) :
    parseBlockFrom toUppercase environment
        (entries.flatMap entryUnits ++ 0 :: rest) =
      .ok (environment.insertAll entries, 0 :: rest) := by
  induction entries generalizing environment with
  | nil => exact parseBlockFrom_zero
  | cons entry entries ih =>
      rw [List.forall_mem_cons] at encodable upper
      rw [List.flatMap_cons, List.append_assoc,
        parseBlockFrom_entryUnits encodable.1 upper.1,
        ih encodable.2 upper.2]
      rfl

/-- The reader stops at the terminator, whatever is behind its first zero. -/
theorem parseEnvironmentBlock_units {environment : EnvironmentMap}
    {beyond : List UInt16}
    (encodable : ∀ entry ∈ environment.entries, Encodable entry.1 entry.2)
    (upper : ∀ name ∈ environment.keys, toUppercase name = name) :
    parseEnvironmentBlock toUppercase
        (environment.entries.flatMap entryUnits ++ 0 :: beyond) =
      .ok (environment, 0 :: beyond) := by
  rw [parseEnvironmentBlock, parseBlockFrom_entries encodable,
    OrderedMap.insertAll_entries]
  exact fun entry hmem => upper entry.1 (List.mem_map_of_mem hmem)

/-- What can be written is exactly what a block can hold, and what is written
reads back: the reader stops at the terminator and needs nothing behind it. -/
theorem environment_round_trip (environment : EnvironmentMap) :
    (∀ block, (∀ name ∈ environment.keys, toUppercase name = name) →
      encodeEnvironment environment = .ok block →
      parseEnvironmentBlock toUppercase block =
          .ok (environment, terminator environment) ∧
        ∃ units, block = units ++ terminator environment ∧
          ∀ beyond, parseEnvironmentBlock toUppercase (units ++ 0 :: beyond) =
            .ok (environment, 0 :: beyond)) ∧
    ((∃ block, encodeEnvironment environment = .ok block) ↔
      ∀ entry ∈ environment.entries,
        (entry.1 ≠ "" ∧ '\x00' ∉ entry.1.toList ∧
          '=' ∉ withoutLeadingEquals entry.1.toList) ∧
        '\x00' ∉ entry.2.toList) := by
  simp only [encodeEnvironment_eq_ok]
  constructor
  · rintro block upper ⟨encodable, rfl⟩
    refine ⟨?_, _, rfl, fun beyond =>
      parseEnvironmentBlock_units encodable upper⟩
    unfold terminator
    split <;> exact parseEnvironmentBlock_units encodable upper
  constructor
  · rintro ⟨-, encodable, -⟩ entry hmem
    obtain ⟨nonempty, nameNull, nameEquals, valueNull⟩ := encodable entry hmem
    exact ⟨⟨nonempty, nameNull, nameEquals⟩, valueNull⟩
  · intro good
    refine ⟨_, fun entry hmem => ?_, rfl⟩
    obtain ⟨⟨nonempty, nameNull, nameEquals⟩, valueNull⟩ := good entry hmem
    exact ⟨nonempty, nameNull, nameEquals, valueNull⟩

/-- The variable of a drive's directory and a value with the separator. -/
def driveEnvironment : EnvironmentMap where
  entries := [("=C:", "C:\\a=b"), ("PATH", "")]
  sorted := by decide

theorem environment_round_trip_drive :
    ∃ block, encodeEnvironment driveEnvironment = .ok block ∧
      parseEnvironmentBlock
          (fun name => String.ofList (name.toList.map Char.toUpper)) block =
        .ok (driveEnvironment, [0]) := by
  obtain ⟨roundTrip, accepts⟩ :=
    @environment_round_trip
      (fun name => String.ofList (name.toList.map Char.toUpper))
      driveEnvironment
  obtain ⟨block, encoded⟩ := accepts.mpr (by decide)
  exact ⟨block, encoded, (roundTrip block (by decide) encoded).1⟩

end Susm.Supervisor
