import Susm.Foundation.Map
import Susm.Foundation.Splitting
import Susm.Supervisor.Runner

/-!
# Interpolation of environment references

`expand` scans a string for dollar signs.  What it accepts is a small grammar,
and what it returns is the meaning of the pieces of the string in the base
environment.  The upper case of a character is Unicode's and a parameter.
-/

namespace Susm.Supervisor

open Susm.Foundation

section Expand

variable (uppercase : Char → List Char)

/-- `str::to_uppercase`, one character after another. -/
def toUppercase (text : List Char) : String :=
  String.ofList (text.flatMap uppercase)

/-- What the text behind a dollar sign adds to the output, and the rest. -/
def expandDollar (environment : Map String String) :
    List Char → Except RunError (List Char × List Char)
  | '$' :: after => .ok (['$'], after)
  | '{' :: afterOpen =>
      match splitOnce '}' afterOpen with
      | none => .error (.preflight "unterminated environment reference")
      | some (name, after) =>
          match environment.lookup (toUppercase uppercase name) with
          | none =>
              .error (.preflight
                s!"environment variable is missing: {String.ofList name}")
          | some replacement => .ok (replacement.toList, after)
  | _ => .error (.preflight "a single '$' is not a valid interpolation")

/--
One round of the loop in `expand`: what it adds to the output and the rest of
the string, or nothing when there is no dollar sign left.
-/
def expandRound (environment : Map String String) (rest : List Char) :
    Except RunError (Option (List Char × List Char)) :=
  match splitOnce '$' rest with
  | none => .ok none
  | some (before, after) =>
      (expandDollar uppercase environment after).map fun (added, rest) =>
        some (before ++ added, rest)

section Rounds

variable {uppercase} {environment : Map String String}
  {rest added after : List Char}

theorem expandDollar_shorter
    (h : expandDollar uppercase environment rest = .ok (added, after)) :
    after.length < rest.length := by
  unfold expandDollar at h
  split at h
  · cases h
    simp
  · rename_i afterOpen
    split at h
    · cases h
    · rename_i name after hclose
      have := length_lt_of_splitOnce hclose
      split at h
      · cases h
      · cases h
        simp
        omega
  · cases h

theorem expandRound_eq_some
    (h : expandRound uppercase environment rest = .ok (some (added, after))) :
    ∃ before behind value, rest = before ++ '$' :: behind ∧ '$' ∉ before ∧
      expandDollar uppercase environment behind = .ok (value, after) ∧
      added = before ++ value := by
  unfold expandRound at h
  split at h
  · cases h
  · rename_i before behind hsplit
    obtain ⟨hrest, habsent⟩ := splitOnce_eq_some_iff.mp hsplit
    cases hdollar : expandDollar uppercase environment behind with
    | error error =>
        rw [hdollar] at h
        cases h
    | ok result =>
        rw [hdollar] at h
        cases h
        exact ⟨before, behind, result.1, hrest, habsent, hdollar, rfl⟩

theorem expandRound_shorter
    (h : expandRound uppercase environment rest = .ok (some (added, after))) :
    after.length < rest.length := by
  obtain ⟨before, behind, value, rfl, -, hdollar, -⟩ := expandRound_eq_some h
  have := expandDollar_shorter hdollar
  simp
  omega

end Rounds

/-- The loop of `expand` with the output so far and the rest of the string. -/
def expandFrom (environment : Map String String) (output : List Char)
    (rest : List Char) : Except RunError (List Char) :=
  match _h : expandRound uppercase environment rest with
  | .error error => .error error
  | .ok none => .ok (output ++ rest)
  | .ok (some (added, after)) =>
      expandFrom environment (output ++ added) after
termination_by rest.length
decreasing_by exact expandRound_shorter _h

def expand (environment : Map String String) (value : String) :
    Except RunError String :=
  (expandFrom uppercase environment [] value.toList).map String.ofList

/-! ## The grammar -/

inductive Piece where
  | literal (text : List Char)
  | dollar
  | reference (name : List Char)
  deriving DecidableEq, Repr

namespace Piece

def source : Piece → List Char
  | .literal text => text
  | .dollar => ['$', '$']
  | .reference name => '$' :: '{' :: name ++ ['}']

def WellFormed : Piece → Prop
  | .literal text => '$' ∉ text
  | .dollar => True
  | .reference name => '}' ∉ name

/-- Nothing for a reference to a variable that is missing. -/
def meaning (environment : Map String String) : Piece → Option (List Char)
  | .literal text => some text
  | .dollar => some ['$']
  | .reference name =>
      (environment.lookup (toUppercase uppercase name)).map String.toList

end Piece

/-- The string is the concatenation of the pieces. -/
structure Spells (pieces : List Piece) (text : List Char) : Prop where
  wellFormed : ∀ piece ∈ pieces, piece.WellFormed
  source : text = pieces.flatMap Piece.source

/-- The meanings one after another, when every reference has one. -/
def substitute (environment : Map String String) :
    List Piece → Option (List Char)
  | [] => some []
  | piece :: pieces => do
      let first ← piece.meaning uppercase environment
      let rest ← substitute environment pieces
      return first ++ rest

/-! ## The scan follows the grammar -/

variable {uppercase} {environment : Map String String}

theorem Spells.nil : Spells [] [] := ⟨by simp, rfl⟩

theorem Spells.cons {piece : Piece} {pieces : List Piece} {text : List Char}
    (wellFormed : piece.WellFormed) (spells : Spells pieces text) :
    Spells (piece :: pieces) (piece.source ++ text) := by
  constructor
  · simpa [wellFormed] using spells.wellFormed
  · rw [spells.source, List.flatMap_cons]

theorem Spells.append {first second : List Piece} {left right : List Char}
    (before : Spells first left) (after : Spells second right) :
    Spells (first ++ second) (left ++ right) := by
  constructor
  · intro piece hmem
    rcases List.mem_append.mp hmem with h | h
    · exact before.wellFormed piece h
    · exact after.wellFormed piece h
  · rw [before.source, after.source, List.flatMap_append]

theorem substitute_cons {piece : Piece} {pieces : List Piece}
    {first rest : List Char}
    (hfirst : piece.meaning uppercase environment = some first)
    (hrest : substitute uppercase environment pieces = some rest) :
    substitute uppercase environment (piece :: pieces) =
      some (first ++ rest) := by
  simp [substitute, hfirst, hrest]

theorem substitute_append {first second : List Piece}
    {left right : List Char}
    (before : substitute uppercase environment first = some left)
    (after : substitute uppercase environment second = some right) :
    substitute uppercase environment (first ++ second) =
      some (left ++ right) := by
  induction first generalizing left with
  | nil =>
      cases before
      exact after
  | cons piece first ih =>
      simp only [substitute, Option.bind_eq_bind, Option.bind_eq_some_iff,
        Option.pure_def, Option.some.injEq] at before
      obtain ⟨value, hvalue, rest, hrest, rfl⟩ := before
      rw [List.cons_append, List.append_assoc]
      exact substitute_cons hvalue (ih hrest)

theorem expandFrom_stop {rest : List Char}
    (h : expandRound uppercase environment rest = .ok none)
    (output : List Char) :
    expandFrom uppercase environment output rest = .ok (output ++ rest) := by
  rw [expandFrom]
  split <;> simp_all

theorem expandFrom_step {rest added after : List Char}
    (h : expandRound uppercase environment rest = .ok (some (added, after)))
    (output : List Char) :
    expandFrom uppercase environment output rest =
      expandFrom uppercase environment (output ++ added) after := by
  rw [expandFrom]
  split <;> simp_all

theorem expandFrom_error {rest : List Char} {error : RunError}
    (h : expandRound uppercase environment rest = .error error)
    (output : List Char) :
    expandFrom uppercase environment output rest = .error error := by
  rw [expandFrom]
  split <;> simp_all

theorem expandRound_literal {text : List Char} (h : '$' ∉ text)
    (rest : List Char) :
    expandRound uppercase environment (text ++ rest) =
      (expandRound uppercase environment rest).map
        (Option.map fun round => (text ++ round.1, round.2)) := by
  unfold expandRound
  rw [splitOnce_append_left h]
  rcases splitOnce '$' rest with _ | ⟨before, after⟩
  · rfl
  · simp only [Option.map_some]
    cases expandDollar uppercase environment after <;> simp [Except.map]

theorem expandFrom_literal {text : List Char} (h : '$' ∉ text)
    (output rest : List Char) :
    expandFrom uppercase environment output (text ++ rest) =
      expandFrom uppercase environment (output ++ text) rest := by
  have hround := @expandRound_literal uppercase environment text h rest
  cases hrest : expandRound uppercase environment rest with
  | error error =>
      rw [hrest] at hround
      rw [expandFrom_error hround, expandFrom_error hrest]
  | ok round =>
      rw [hrest] at hround
      cases round with
      | none =>
          rw [expandFrom_stop hround, expandFrom_stop hrest,
            List.append_assoc]
      | some round =>
          rw [expandFrom_step hround, expandFrom_step hrest,
            List.append_assoc]

theorem expandRound_dollar {behind value after : List Char}
    (h : expandDollar uppercase environment behind = .ok (value, after)) :
    expandRound uppercase environment ('$' :: behind) =
      .ok (some (value, after)) := by
  simp [expandRound, splitOnce, h, Except.map]

theorem expandDollar_reference {name : List Char} (h : '}' ∉ name)
    {replacement : String}
    (found : environment.lookup (toUppercase uppercase name) =
      some replacement) (rest : List Char) :
    expandDollar uppercase environment ('{' :: (name ++ '}' :: rest)) =
      .ok (replacement.toList, rest) := by
  simp [expandDollar, splitOnce_append h, found]

theorem expandFrom_spelled {pieces : List Piece} {text result : List Char}
    (spells : Spells pieces text)
    (meant : substitute uppercase environment pieces = some result)
    (output : List Char) :
    expandFrom uppercase environment output text = .ok (output ++ result) := by
  rw [spells.source]
  have wellFormed := spells.wellFormed
  clear spells
  induction pieces generalizing output result with
  | nil =>
      cases meant
      exact expandFrom_stop rfl output
  | cons piece pieces ih =>
      simp only [substitute, Option.bind_eq_bind, Option.bind_eq_some_iff,
        Option.pure_def, Option.some.injEq] at meant
      obtain ⟨value, hvalue, more, hmore, rfl⟩ := meant
      obtain ⟨hpiece, hpieces⟩ := List.forall_mem_cons.mp wellFormed
      have hrest := ih hmore (output ++ value) hpieces
      rw [List.append_assoc] at hrest
      rw [List.flatMap_cons, ← hrest]
      cases piece with
      | literal text =>
          cases hvalue
          exact expandFrom_literal hpiece output _
      | dollar =>
          cases hvalue
          exact expandFrom_step (expandRound_dollar rfl) output
      | reference name =>
          obtain ⟨replacement, hfound, rfl⟩ := Option.map_eq_some_iff.mp hvalue
          have hdollar := expandDollar_reference hpiece hfound
            (pieces.flatMap Piece.source)
          have hstep := expandFrom_step (expandRound_dollar hdollar) output
          simpa [Piece.source] using hstep

theorem expandDollar_reads {behind value after : List Char}
    (h : expandDollar uppercase environment behind = .ok (value, after)) :
    ∃ piece : Piece, piece.WellFormed ∧
      '$' :: behind = piece.source ++ after ∧
      piece.meaning uppercase environment = some value := by
  unfold expandDollar at h
  split at h
  · cases h
    exact ⟨.dollar, trivial, rfl, rfl⟩
  · split at h
    · cases h
    · rename_i name after hclose
      obtain ⟨rfl, hname⟩ := splitOnce_eq_some_iff.mp hclose
      split at h
      · cases h
      · rename_i replacement hfound
        cases h
        exact ⟨.reference name, hname, by simp [Piece.source],
          by simp [Piece.meaning, hfound]⟩
  · cases h

theorem expandRound_none {rest : List Char}
    (h : expandRound uppercase environment rest = .ok none) : '$' ∉ rest := by
  unfold expandRound at h
  split at h
  · rename_i hnone
    exact splitOnce_eq_none_iff.mp hnone
  · generalize expandDollar uppercase environment _ = result at h
    cases result <;> cases h

theorem expandFrom_reads {output rest result : List Char}
    (h : expandFrom uppercase environment output rest = .ok result) :
    ∃ pieces value, Spells pieces rest ∧
      substitute uppercase environment pieces = some value ∧
      result = output ++ value := by
  fun_induction expandFrom uppercase environment output rest with
  | case1 output rest error hround => cases h
  | case2 output rest hround =>
      cases h
      have spells := Spells.nil.cons (show (Piece.literal rest).WellFormed from
        expandRound_none hround)
      rw [List.append_nil] at spells
      exact ⟨[.literal rest], rest, spells,
        by simp [substitute, Piece.meaning], rfl⟩
  | case3 output rest added after hround ih =>
      obtain ⟨text, behind, value, rfl, htext, hdollar, rfl⟩ :=
        expandRound_eq_some hround
      obtain ⟨piece, hpiece, hsource, hvalue⟩ := expandDollar_reads hdollar
      obtain ⟨pieces, more, spells, hmore, rfl⟩ := ih h
      have hliteral : (Piece.literal text).WellFormed := htext
      refine ⟨.literal text :: piece :: pieces, text ++ (value ++ more), ?_,
        substitute_cons rfl (substitute_cons hvalue hmore), ?_⟩
      · rw [hsource]
        exact (spells.cons hpiece).cons hliteral
      · simp only [List.append_assoc]

end Expand

/--
`expand` accepts exactly the concatenations of literals, escaped dollar signs
and references to variables that are there, and returns the concatenation of
their meanings; it distributes over concatenation.
-/
theorem expand_follows_grammar (uppercase : Char → List Char)
    (environment : Map String String) :
    (∀ value output : String,
      expand uppercase environment value = .ok output ↔
        ∃ pieces, Spells pieces value.toList ∧
          substitute uppercase environment pieces = some output.toList) ∧
    ∀ first second left right : String,
      expand uppercase environment first = .ok left →
      expand uppercase environment second = .ok right →
      expand uppercase environment (first ++ second) = .ok (left ++ right) := by
  have grammar : ∀ value output : String,
      expand uppercase environment value = .ok output ↔
        ∃ pieces, Spells pieces value.toList ∧
          substitute uppercase environment pieces = some output.toList := by
    intro value output
    unfold expand
    constructor
    · intro h
      cases hfrom : expandFrom uppercase environment [] value.toList with
      | error error =>
          rw [hfrom] at h
          cases h
      | ok result =>
          rw [hfrom] at h
          cases h
          obtain ⟨pieces, meaning, spells, hmeaning, rfl⟩ :=
            expandFrom_reads hfrom
          exact ⟨pieces, spells, by simpa using hmeaning⟩
    · rintro ⟨pieces, spells, hmeaning⟩
      rw [expandFrom_spelled spells hmeaning]
      simp [Except.map]
  refine ⟨grammar, ?_⟩
  intro first second left right hfirst hsecond
  obtain ⟨before, hbefore, hleft⟩ := (grammar first left).mp hfirst
  obtain ⟨after, hafter, hright⟩ := (grammar second right).mp hsecond
  refine (grammar _ _).mpr ⟨before ++ after, ?_, ?_⟩
  · rw [String.toList_append]
    exact hbefore.append hafter
  · rw [String.toList_append]
    exact substitute_append hleft hright

def asciiUppercase (character : Char) : List Char := [character.toUpper]

/-- A value that looks like a reference is not read again. -/
example :
    expand asciiUppercase ((∅ : Map String String).insert "HOME" "${HOME}$$")
        "a$$b${Home}" = .ok "a$b${HOME}$$" := by
  decide +kernel

/-- Two strings that expand, with a reference in the first. -/
theorem expand_follows_grammar_home :
    expand asciiUppercase ((∅ : Map String String).insert "HOME" "C:\\")
        ("${Home}" ++ "$$x") = .ok ("C:\\" ++ "$x") :=
  (expand_follows_grammar asciiUppercase
    ((∅ : Map String String).insert "HOME" "C:\\")).2 "${Home}" "$$x" "C:\\"
    "$x" (by decide +kernel) (by decide +kernel)

end Susm.Supervisor
