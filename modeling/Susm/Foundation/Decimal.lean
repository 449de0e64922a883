import Susm.Foundation.Integers

/-!
# Decimal numbers as text

Integers are written in decimal without a sign or with a minus sign, and are
parsed with an optional sign and any number of leading zeros.
-/

namespace Susm.Foundation.Decimal

def write (value : Nat) : List Char := Nat.toDigits 10 value

def writeInt : Int → List Char
  | .ofNat value => write value
  | .negSucc value => '-' :: write (value + 1)

/-- Digits padded with zeros to at least this width. -/
def writePadded (width value : Nat) : List Char :=
  List.replicate (width - (write value).length) '0' ++ write value

/-- At least one digit, and nothing but digits. -/
def parseDigits (text : List Char) : Option Nat :=
  if text ≠ [] ∧ text.all Char.isDigit then
    some (Nat.ofDigitChars 10 text 0)
  else none

/-- An unsigned integer below the exclusive limit. -/
def parse (limit : Nat) : List Char → Option Nat
  | '+' :: digits => (parseDigits digits).bind (checked limit)
  | text => (parseDigits text).bind (checked limit)

/-- A signed integer of absolute value below the limit, or its negative. -/
def parseInt (limit : Nat) : List Char → Option Int
  | '-' :: digits =>
      ((parseDigits digits).bind (checked (limit + 1))).map fun value =>
        -(value : Int)
  | text => (parse limit text).map Int.ofNat

theorem isDigit_of_mem_write {value : Nat} {character : Char}
    (h : character ∈ write value) : character.isDigit = true :=
  Nat.isDigit_of_mem_toDigits (by decide) (by decide) h

theorem mem_writeInt {value : Int} {character : Char}
    (h : character ∈ writeInt value) :
    character = '-' ∨ character.isDigit = true := by
  cases value with
  | ofNat value => exact .inr (isDigit_of_mem_write h)
  | negSucc value =>
      rcases List.mem_cons.mp h with rfl | h
      · exact .inl rfl
      · exact .inr (isDigit_of_mem_write h)

theorem toNat_lt_of_isDigit {character : Char}
    (h : character.isDigit = true) : character.toNat < 0x80 := by
  simp only [Char.isDigit, Bool.and_eq_true, decide_eq_true_eq] at h
  have hupper : character.val.toNat ≤ 57 := h.2
  exact lt_of_le_of_lt hupper (by decide)

theorem write_ne_nil (value : Nat) : write value ≠ [] :=
  Nat.toDigits_ne_nil

theorem writeInt_ne_nil (value : Int) : writeInt value ≠ [] := by
  cases value <;> simp [writeInt, write_ne_nil]

theorem parseDigits_padding (zeros value : Nat) :
    parseDigits (List.replicate zeros '0' ++ write value) = some value := by
  have hne : List.replicate zeros '0' ++ write value ≠ [] := by
    simp [write_ne_nil]
  have hdigits :
      (List.replicate zeros '0' ++ write value).all Char.isDigit = true := by
    rw [List.all_append, Bool.and_eq_true]
    refine ⟨?_, List.all_eq_true.mpr fun _ => isDigit_of_mem_write⟩
    rw [List.all_eq_true]
    intro character hmem
    rw [List.eq_of_mem_replicate hmem]
    decide
  rw [parseDigits, if_pos ⟨hne, hdigits⟩, Nat.ofDigitChars_append,
    Nat.ofDigitChars_replicate_zero, Nat.mul_zero, write,
    Nat.ofDigitChars_ten_toDigits]

theorem parse_of_digits {text : List Char}
    (digits : ∀ character ∈ text, character.isDigit = true) (limit : Nat) :
    parse limit text = (parseDigits text).bind (checked limit) := by
  unfold parse
  split
  · exact absurd (digits '+' List.mem_cons_self) (by decide)
  · rfl

theorem parseInt_of_digits {text : List Char}
    (digits : ∀ character ∈ text, character.isDigit = true) (limit : Nat) :
    parseInt limit text = (parse limit text).map Int.ofNat := by
  unfold parseInt
  split
  · exact absurd (digits '-' List.mem_cons_self) (by decide)
  · rfl

theorem isDigit_of_mem_writePadded {width value : Nat} {character : Char}
    (h : character ∈ writePadded width value) : character.isDigit = true := by
  rcases List.mem_append.mp h with hmem | hmem
  · rw [List.eq_of_mem_replicate hmem]
    decide
  · exact isDigit_of_mem_write hmem

theorem parse_writePadded {limit value : Nat} (h : value < limit)
    (width : Nat) : parse limit (writePadded width value) = some value := by
  rw [parse_of_digits fun _ => isDigit_of_mem_writePadded, writePadded,
    parseDigits_padding, Option.bind_some, checked_of_lt h]

theorem parse_write {limit value : Nat} (h : value < limit) :
    parse limit (write value) = some value := by
  have hdigits := parseDigits_padding 0 value
  rw [List.replicate_zero, List.nil_append] at hdigits
  rw [parse_of_digits (fun _ => isDigit_of_mem_write), hdigits,
    Option.bind_some, checked_of_lt h]

theorem parseInt_writeInt {limit : Nat} {value : Int}
    (hlower : -(limit : Int) ≤ value) (hupper : value < limit) :
    parseInt limit (writeInt value) = some value := by
  cases value with
  | ofNat value =>
      rw [writeInt, parseInt_of_digits (fun _ => isDigit_of_mem_write),
        parse_write (by simpa using hupper)]
      rfl
  | negSucc value =>
      have hdigits := parseDigits_padding 0 (value + 1)
      rw [List.replicate_zero, List.nil_append] at hdigits
      have hlimit : value + 1 < limit + 1 := by omega
      rw [writeInt, parseInt, hdigits, Option.bind_some,
        checked_of_lt hlimit]
      simp [Int.negSucc_eq]

end Susm.Foundation.Decimal
