import Mathlib.Data.List.Basic

/-!
# Splitting a command line

How the Microsoft C runtime splits a command line.  Space and tab separate
outside quotes.  Backslashes are literal unless a quote follows them: an even
number of them stands for half as many and leaves a quote that opens or closes,
an odd number for half as many and a literal quote.  The program name is read
without any escapes, up to its closing quote or to the first blank.
-/

namespace Susm.Foundation.ArgumentList

def isBlank (character : Char) : Bool := character == ' ' || character == '\t'

/-! ## Reading one argument -/

structure Reading where
  text : List Char
  inQuotes : Bool
  backslashes : Nat
  deriving DecidableEq

namespace Reading

def start : Reading := ⟨[], false, 0⟩

def read (reading : Reading) (character : Char) : Reading :=
  if character = '\\' then
    { reading with backslashes := reading.backslashes + 1 }
  else if character = '"' then
    let text := reading.text ++ List.replicate (reading.backslashes / 2) '\\'
    if reading.backslashes % 2 = 0 then ⟨text, !reading.inQuotes, 0⟩
    else ⟨text ++ ['"'], reading.inQuotes, 0⟩
  else
    ⟨reading.text ++ List.replicate reading.backslashes '\\' ++ [character],
      reading.inQuotes, 0⟩

/-- The argument, when nothing follows. -/
def finish (reading : Reading) : List Char :=
  reading.text ++ List.replicate reading.backslashes '\\'

end Reading

/-- The arguments that are left; the first one may have been begun. -/
def splitArguments : Option Reading → List Char → List (List Char)
  | none, [] => []
  | some reading, [] => [reading.finish]
  | none, character :: rest =>
      if isBlank character then splitArguments none rest
      else splitArguments (some (Reading.start.read character)) rest
  | some reading, character :: rest =>
      if isBlank character && !reading.inQuotes then
        reading.finish :: splitArguments none rest
      else splitArguments (some (reading.read character)) rest

/-- The program name and what follows it. -/
def splitProgram : List Char → List Char × List Char
  | '"' :: rest =>
      (rest.takeWhile (· != '"'), (rest.dropWhile (· != '"')).tail)
  | line =>
      (line.takeWhile (!isBlank ·), line.dropWhile (!isBlank ·))

def split (line : List Char) : List (List Char) :=
  let (program, rest) := splitProgram line
  program :: splitArguments none rest

/-! ## What a reading makes of its characters -/

section

variable {reading : Reading} {character : Char} {text rest : List Char}
  {count : Nat}

@[simp] theorem splitArguments_blank (blank : isBlank character = true) :
    splitArguments none (character :: rest) = splitArguments none rest := by
  simp [splitArguments, blank]

theorem splitArguments_start (solid : isBlank character = false) :
    splitArguments none (character :: rest) =
      splitArguments (some .start) (character :: rest) := by
  simp [splitArguments, solid]

theorem splitArguments_close (blank : isBlank character = true)
    (outside : reading.inQuotes = false) :
    splitArguments (some reading) (character :: rest) =
      reading.finish :: splitArguments none rest := by
  simp [splitArguments, blank, outside]

theorem splitArguments_read
    (inside : isBlank character = true → reading.inQuotes = true) :
    splitArguments (some reading) (character :: rest) =
      splitArguments (some (reading.read character)) rest := by
  cases blank : isBlank character with
  | false => simp [splitArguments, blank]
  | true => simp [splitArguments, blank, inside blank]

theorem splitArguments_backslashes :
    splitArguments (some reading) (List.replicate count '\\' ++ rest) =
      splitArguments
        (some { reading with backslashes := reading.backslashes + count })
        rest := by
  induction count generalizing reading with
  | zero => rfl
  | succ count ih =>
      rw [List.replicate_succ, List.cons_append,
        splitArguments_read (by simp [isBlank])]
      simp only [Reading.read, if_true, ih]
      rw [Nat.add_assoc, Nat.add_comm 1 count]

theorem splitArguments_plain
    (plain : ∀ character ∈ text, isBlank character = false ∧ character ≠ '"') :
    ∃ next : Reading, next.inQuotes = reading.inQuotes ∧
      next.finish = reading.finish ++ text ∧
      splitArguments (some reading) (text ++ rest) =
        splitArguments (some next) rest := by
  induction text generalizing reading with
  | nil => exact ⟨reading, rfl, (List.append_nil _).symm, rfl⟩
  | cons character text ih =>
      obtain ⟨solid, unquoted⟩ := plain character List.mem_cons_self
      obtain ⟨next, hquotes, hfinish, hsplit⟩ :=
        @ih (reading.read character) fun other hother =>
          plain other (List.mem_cons_of_mem character hother)
      have readQuotes :
          (reading.read character).inQuotes = reading.inQuotes := by
        unfold Reading.read
        split <;> simp
      have readFinish :
          (reading.read character).finish = reading.finish ++ [character] := by
        unfold Reading.read Reading.finish
        split
        · simp [List.replicate_succ', *]
        · simp
      refine ⟨next, hquotes.trans readQuotes, ?_, ?_⟩
      · rw [hfinish, readFinish, List.append_assoc, List.singleton_append]
      · rw [List.cons_append,
          splitArguments_read (by simp [solid]), hsplit]

end

/-! ## Escaped text -/

/--
The text between two quotes that is read back as `text`, when `backslashes`
backslashes precede it: they are doubled before a quote.
-/
def escape : Nat → List Char → List Char
  | backslashes, [] => List.replicate (backslashes * 2) '\\'
  | backslashes, character :: rest =>
      if character = '\\' then escape (backslashes + 1) rest
      else if character = '"' then
        List.replicate (backslashes * 2 + 1) '\\' ++ '"' :: escape 0 rest
      else
        List.replicate backslashes '\\' ++ character :: escape 0 rest

theorem splitArguments_escape {reading : Reading} {backslashes : Nat}
    {text rest : List Char} (inside : reading.inQuotes = true)
    (decided : reading.backslashes = 0) :
    splitArguments (some reading) (escape backslashes text ++ '"' :: rest) =
      splitArguments
        (some ⟨reading.text ++ List.replicate backslashes '\\' ++ text,
          false, 0⟩) rest := by
  induction text generalizing reading backslashes with
  | nil =>
      rw [escape, splitArguments_backslashes,
        splitArguments_read (by simp [isBlank])]
      simp [Reading.read, inside, decided]
  | cons character text ih =>
      by_cases hbackslash : character = '\\'
      · subst hbackslash
        rw [escape, if_pos rfl, ih inside decided]
        simp [List.replicate_succ']
      by_cases hquote : character = '"'
      · subst hquote
        have half : (backslashes * 2 + 1) / 2 = backslashes := by omega
        have odd : (backslashes * 2 + 1) % 2 = 1 := by omega
        rw [escape, if_neg hbackslash, if_pos rfl, List.append_assoc,
          splitArguments_backslashes, List.cons_append,
          splitArguments_read (by simp [isBlank]), ih]
        all_goals simp [Reading.read, inside, decided, half, odd]
      · rw [escape, if_neg hbackslash, if_neg hquote, List.append_assoc,
          splitArguments_backslashes, List.cons_append,
          splitArguments_read (by simp [inside]), ih]
        all_goals simp [Reading.read, inside, decided, hbackslash, hquote]

/-! ## Whole arguments -/

/-- Nothing follows, or a blank that ends an argument. -/
def Ends (rest : List Char) : Prop :=
  ∀ character, rest.head? = some character → isBlank character = true

theorem splitArguments_finish {reading : Reading} {rest : List Char}
    (ends : Ends rest) (outside : reading.inQuotes = false) :
    splitArguments (some reading) rest =
      reading.finish :: splitArguments none rest := by
  cases rest with
  | nil => rfl
  | cons character rest =>
      have blank : isBlank character = true := ends character rfl
      rw [splitArguments_close blank outside, splitArguments_blank blank]

theorem splitArguments_quoted {text rest : List Char} (ends : Ends rest) :
    splitArguments none ('"' :: escape 0 text ++ '"' :: rest) =
      text :: splitArguments none rest := by
  rw [List.cons_append, splitArguments_start (by simp [isBlank]),
    splitArguments_read (by simp [isBlank]), splitArguments_escape rfl rfl,
    splitArguments_finish ends rfl]
  simp [Reading.finish, Reading.read, Reading.start]

theorem splitArguments_unquoted {text rest : List Char} (ends : Ends rest)
    (some_text : text ≠ [])
    (plain : ∀ character ∈ text,
      isBlank character = false ∧ character ≠ '"') :
    splitArguments none (text ++ rest) = text :: splitArguments none rest := by
  obtain ⟨next, outside, hfinish, hsplit⟩ :=
    @splitArguments_plain .start text rest plain
  obtain ⟨character, tail, rfl⟩ := List.exists_cons_of_ne_nil some_text
  have solid := (plain character List.mem_cons_self).1
  rw [List.cons_append, splitArguments_start solid, ← List.cons_append, hsplit,
    splitArguments_finish ends outside, hfinish]
  rfl

/-! ## Program names -/

theorem escape_literal {backslashes : Nat} {text : List Char}
    (unquoted : '"' ∉ text) (complete : text.getLast? ≠ some '\\')
    (pending : text = [] → backslashes = 0) :
    escape backslashes text = List.replicate backslashes '\\' ++ text := by
  induction text generalizing backslashes with
  | nil => simp [escape, pending]
  | cons character text ih =>
      have hunquoted : '"' ∉ text := fun h =>
        unquoted (List.mem_cons_of_mem character h)
      have hcomplete : text.getLast? ≠ some '\\' := by
        intro h
        exact complete (by simp [List.getLast?_cons, h])
      by_cases hbackslash : character = '\\'
      · subst hbackslash
        rw [escape, if_pos rfl, ih hunquoted hcomplete]
        · simp [List.replicate_succ']
        · rintro rfl
          simp at complete
      · have hquote : character ≠ '"' := fun h => unquoted (by simp [h])
        rw [escape, if_neg hbackslash, if_neg hquote,
          ih hunquoted hcomplete fun _ => rfl]
        simp

theorem splitProgram_quoted {program rest : List Char}
    (unquoted : '"' ∉ program) :
    splitProgram ('"' :: program ++ '"' :: rest) = (program, rest) := by
  have inside : ∀ character ∈ program, (character != '"') = true := by
    intro character hmem
    simp only [bne_iff_ne]
    rintro rfl
    exact unquoted hmem
  rw [List.cons_append, splitProgram, List.takeWhile_append_of_pos inside,
    List.dropWhile_append_of_pos inside]
  simp

theorem splitProgram_unquoted {program rest : List Char} (ends : Ends rest)
    (some_text : program ≠ [])
    (plain : ∀ character ∈ program,
      isBlank character = false ∧ character ≠ '"') :
    splitProgram (program ++ rest) = (program, rest) := by
  have solid : ∀ character ∈ program, (!isBlank character) = true :=
    fun character hmem => by simp [(plain character hmem).1]
  have atRest : rest.takeWhile (!isBlank ·) = [] ∧
      rest.dropWhile (!isBlank ·) = rest := by
    cases rest with
    | nil => exact ⟨rfl, rfl⟩
    | cons character rest => simp [ends character rfl]
  obtain ⟨character, tail, rfl⟩ := List.exists_cons_of_ne_nil some_text
  have hquote := (plain character List.mem_cons_self).2
  rw [List.cons_append, splitProgram]
  · rw [← List.cons_append, List.takeWhile_append_of_pos solid,
      List.dropWhile_append_of_pos solid, atRest.1, atRest.2, List.append_nil]
  · intro _ h
    exact hquote (List.cons.inj h).1

end Susm.Foundation.ArgumentList
