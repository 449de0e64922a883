import Susm.Foundation.ArgumentList
import Susm.Foundation.Utf16

/-!
# Command lines

A process gets its arguments as one string.  The supervisor quotes each of them
so that the C runtime of the process splits the string into the same arguments.
-/

namespace Susm.Supervisor

open Susm.Foundation

inductive ProcessError where
  | invalid (message : String)
  deriving DecidableEq, Repr

/-- A path, with its text unless it is not valid Unicode. -/
structure Path where
  toStr : Option String
  deriving DecidableEq, Repr

def maxCommandLineCodeUnits : Nat := 32_767

/-- `char::is_whitespace`: the property `White_Space` of Unicode. -/
def isWhitespace (character : Char) : Bool :=
  let code := character.toNat
  (0x09 ≤ code && code ≤ 0x0D) || code == 0x20 || code == 0x85 ||
    code == 0xA0 || code == 0x1680 || (0x2000 ≤ code && code ≤ 0x200A) ||
    code == 0x2028 || code == 0x2029 || code == 0x202F || code == 0x205F ||
    code == 0x3000

def repeatN (character : Char) (count : Nat) : String :=
  String.ofList (List.replicate count character)

/-- The two variables of the quoting loop. -/
structure Quoting where
  quoted : String
  backslashes : Nat

def Quoting.next (quoting : Quoting) (character : Char) : Quoting :=
  if character = '\\' then
    { quoting with backslashes := quoting.backslashes + 1 }
  else if character = '"' then
    ⟨(quoting.quoted ++ repeatN '\\' (quoting.backslashes * 2 + 1)).push '"', 0⟩
  else
    ⟨(quoting.quoted ++ repeatN '\\' quoting.backslashes).push character, 0⟩

def quoteWindowsArgument (argument : String) : String :=
  if !argument.isEmpty &&
      !argument.toList.any (fun character =>
        isWhitespace character || character == '"') then
    argument
  else
    let quoting := argument.toList.foldl Quoting.next ⟨"\"", 0⟩
    (quoting.quoted ++ repeatN '\\' (quoting.backslashes * 2)).push '"'

/-- The number of UTF-16 code units of the text. -/
def utf16Count (text : String) : Nat := (utf16 text.toList).length

def encodeCommandLine (executable : Path) (arguments : List String) :
    Except ProcessError String :=
  match executable.toStr with
  | none => .error (.invalid "executable path is not valid Unicode")
  | some executable =>
      let commandLine := arguments.foldl
        (fun commandLine argument =>
          commandLine.push ' ' ++ quoteWindowsArgument argument)
        (quoteWindowsArgument executable)
      let length := utf16Count commandLine + 1
      if length > maxCommandLineCodeUnits then
        .error (.invalid (s!"encoded command line uses {length} UTF-16 code " ++
          s!"units, maximum is {maxCommandLineCodeUnits}"))
      else .ok commandLine

/-! ## The quoted form of an argument -/

theorem isBlank_whitespace {character : Char}
    (blank : ArgumentList.isBlank character = true) :
    isWhitespace character = true := by
  simp only [ArgumentList.isBlank, Bool.or_eq_true, beq_iff_eq] at blank
  rcases blank with rfl | rfl <;> rfl

@[simp] theorem toList_repeatN (character : Char) (count : Nat) :
    (repeatN character count).toList = List.replicate count character := by
  simp [repeatN]

theorem foldl_next (text : List Char) (quoting : Quoting) :
    let last := text.foldl Quoting.next quoting
    (last.quoted ++ repeatN '\\' (last.backslashes * 2)).toList =
      quoting.quoted.toList ++
        ArgumentList.escape quoting.backslashes text := by
  induction text generalizing quoting with
  | nil => simp [ArgumentList.escape]
  | cons character text ih =>
      simp only [List.foldl_cons] at ih ⊢
      rw [ih, Quoting.next, ArgumentList.escape]
      by_cases hbackslash : character = '\\'
      · simp [hbackslash]
      by_cases hquote : character = '"'
      · simp [hquote]
      · simp [hbackslash, hquote]

theorem quoteWindowsArgument_toList (argument : String) :
    ((quoteWindowsArgument argument).toList = argument.toList ∧
      argument.toList ≠ [] ∧
      ∀ character ∈ argument.toList,
        ArgumentList.isBlank character = false ∧ character ≠ '"') ∨
    (quoteWindowsArgument argument).toList =
      '"' :: ArgumentList.escape 0 argument.toList ++ ['"'] := by
  unfold quoteWindowsArgument
  split
  · rename_i plain
    simp only [Bool.and_eq_true, Bool.not_eq_true', String.isEmpty_eq_false_iff,
      List.any_eq_false, Bool.or_eq_true, beq_iff_eq, not_or] at plain
    obtain ⟨nonempty, plain⟩ := plain
    refine .inl ⟨rfl, by simpa using nonempty, ?_⟩
    intro character hmem
    obtain ⟨solid, unquoted⟩ := plain character hmem
    refine ⟨?_, unquoted⟩
    by_contra blank
    exact solid (isBlank_whitespace (by simpa using blank))
  · refine .inr ?_
    have loop := foldl_next argument.toList ⟨"\"", 0⟩
    simp only at loop
    rw [String.toList_push, loop]
    rfl

/-! ## Splitting the command line -/

/-- The strings that the C runtime of the process sees. -/
def splitCommandLine (commandLine : String) : List String :=
  (ArgumentList.split commandLine.toList).map String.ofList

/-- The text that the arguments add to the command line. -/
def argumentsText (arguments : List String) : List Char :=
  arguments.flatMap fun argument =>
    ' ' :: (quoteWindowsArgument argument).toList

theorem argumentsText_ends (arguments : List String) :
    ArgumentList.Ends (argumentsText arguments) := by
  intro character hhead
  cases arguments with
  | nil => simp [argumentsText] at hhead
  | cons argument arguments =>
      simp only [argumentsText, List.flatMap_cons, List.cons_append,
        List.head?_cons, Option.some.injEq] at hhead
      subst hhead
      rfl

theorem commandLine_toList (commandLine : String) (arguments : List String) :
    (arguments.foldl
      (fun commandLine argument =>
        commandLine.push ' ' ++ quoteWindowsArgument argument)
      commandLine).toList =
        commandLine.toList ++ argumentsText arguments := by
  induction arguments generalizing commandLine with
  | nil => simp [argumentsText]
  | cons argument arguments ih =>
      rw [List.foldl_cons, ih]
      simp [argumentsText]

theorem splitArguments_quoteWindowsArgument {argument : String}
    {rest : List Char} (ends : ArgumentList.Ends rest) :
    ArgumentList.splitArguments none
        ((quoteWindowsArgument argument).toList ++ rest) =
      argument.toList :: ArgumentList.splitArguments none rest := by
  rcases quoteWindowsArgument_toList argument with
    ⟨same, nonempty, plain⟩ | quoted
  · rw [same]
    exact ArgumentList.splitArguments_unquoted ends nonempty plain
  · rw [quoted, List.append_assoc, List.singleton_append]
    exact ArgumentList.splitArguments_quoted ends

theorem splitArguments_argumentsText (arguments : List String) :
    ArgumentList.splitArguments none (argumentsText arguments) =
      arguments.map String.toList := by
  induction arguments with
  | nil => rfl
  | cons argument arguments ih =>
      calc
        ArgumentList.splitArguments none (argumentsText (argument :: arguments))
          = ArgumentList.splitArguments none
              ((quoteWindowsArgument argument).toList ++
                argumentsText arguments) :=
            ArgumentList.splitArguments_blank rfl
        _ = argument.toList ::
              ArgumentList.splitArguments none (argumentsText arguments) :=
            splitArguments_quoteWindowsArgument (argumentsText_ends arguments)
        _ = (argument :: arguments).map String.toList := by
            rw [ih, List.map_cons]

/-- A path that can name a file: some text, which has no quote and does not end
in a backslash. -/
structure NamesFile (executable : Path) (program : String) : Prop where
  text : executable.toStr = some program
  nonempty : program ≠ ""
  unquoted : '"' ∉ program.toList
  complete : program.toList.getLast? ≠ some '\\'

theorem splitProgram_quoteWindowsArgument {executable : Path}
    {program : String} {rest : List Char}
    (names : NamesFile executable program) (ends : ArgumentList.Ends rest) :
    ArgumentList.splitProgram ((quoteWindowsArgument program).toList ++ rest) =
      (program.toList, rest) := by
  rcases quoteWindowsArgument_toList program with
    ⟨same, nonempty, plain⟩ | quoted
  · rw [same]
    exact ArgumentList.splitProgram_unquoted ends nonempty plain
  · rw [quoted, ArgumentList.escape_literal names.unquoted names.complete
      fun _ => rfl, List.append_assoc, List.singleton_append]
    exact ArgumentList.splitProgram_quoted names.unquoted

/-- The C runtime reads back the executable and its arguments. -/
theorem split_encodeCommandLine {executable : Path} {program : String}
    {arguments : List String} {commandLine : String}
    (names : NamesFile executable program)
    (encoded : encodeCommandLine executable arguments = .ok commandLine) :
    splitCommandLine commandLine = program :: arguments := by
  simp only [encodeCommandLine, names.text] at encoded
  split at encoded
  · cases encoded
  · cases encoded
    rw [splitCommandLine, commandLine_toList, ArgumentList.split,
      splitProgram_quoteWindowsArgument names (argumentsText_ends arguments)]
    simp [splitArguments_argumentsText, Function.comp_def]

theorem split_encodeCommandLine_quoted :
    splitCommandLine
      "\"C:\\my tools\\a.exe\" \"\" \"say \\\"hi\\\"\" \"x y\\\\\" z\\" =
      ["C:\\my tools\\a.exe", "", "say \"hi\"", "x y\\", "z\\"] :=
  @split_encodeCommandLine ⟨some "C:\\my tools\\a.exe"⟩
    "C:\\my tools\\a.exe" ["", "say \"hi\"", "x y\\", "z\\"] _
    ⟨rfl, by decide, by decide, by decide⟩ (by decide)

end Susm.Supervisor
