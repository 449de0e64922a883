import Mathlib.Data.List.Basic

/-!
# UTF-16

The code units of a text, and the text of code units whose surrogates stand in
pairs.
-/

namespace Susm.Foundation

def utf16Char (character : Char) : List UInt16 :=
  if character.toNat < 0x10000 then [.ofNat character.toNat]
  else
    let offset := character.toNat - 0x10000
    [.ofNat (0xD800 + offset / 0x400), .ofNat (0xDC00 + offset % 0x400)]

def utf16 (text : List Char) : List UInt16 := text.flatMap utf16Char

def isSurrogate (unit : UInt16) : Bool :=
  0xD800 ≤ unit.toNat && unit.toNat ≤ 0xDFFF

def surrogatePair (leading trailing : UInt16) : Option Char :=
  if leading.toNat ≤ 0xDBFF ∧ isSurrogate trailing ∧
      0xDC00 ≤ trailing.toNat then
    some (Char.ofNat (0x10000 + (leading.toNat - 0xD800) * 0x400 +
      (trailing.toNat - 0xDC00)))
  else none

/-- `String::from_utf16` -/
def fromUtf16 : List UInt16 → Option (List Char)
  | [] => some []
  | [unit] =>
      if isSurrogate unit then none else some [Char.ofNat unit.toNat]
  | unit :: next :: rest =>
      if isSurrogate unit then do
        let character ← surrogatePair unit next
        return character :: (← fromUtf16 rest)
      else
        return Char.ofNat unit.toNat :: (← fromUtf16 (next :: rest))

/-! ## Reading back -/

theorem fromUtf16_plain {unit : UInt16} {rest : List UInt16}
    (plain : isSurrogate unit = false) :
    fromUtf16 (unit :: rest) =
      (fromUtf16 rest).map fun text => Char.ofNat unit.toNat :: text := by
  cases rest with
  | nil => simp [fromUtf16, plain]
  | cons next rest =>
      rw [fromUtf16, plain]
      cases fromUtf16 (next :: rest) <;> simp

theorem fromUtf16_pair {leading trailing : UInt16} {rest : List UInt16}
    {character : Char} (surrogate : isSurrogate leading = true)
    (pair : surrogatePair leading trailing = some character) :
    fromUtf16 (leading :: trailing :: rest) =
      (fromUtf16 rest).map fun text => character :: text := by
  rw [fromUtf16, surrogate, pair]
  cases fromUtf16 rest <;> simp

/-- A character is below the surrogates, between them and the first pair, or
one of the pairs. -/
theorem toNat_cases (character : Char) :
    character.toNat < 0xD800 ∨
      (0xDFFF < character.toNat ∧ character.toNat < 0x110000) := by
  rcases character.valid with low | high
  · exact .inl low
  · exact .inr high

theorem fromUtf16_utf16Char (character : Char) (rest : List UInt16) :
    fromUtf16 (utf16Char character ++ rest) =
      (fromUtf16 rest).map fun text => character :: text := by
  have range := toNat_cases character
  unfold utf16Char
  split
  · rename_i small
    have toNat : (UInt16.ofNat character.toNat).toNat = character.toNat :=
      UInt16.toNat_ofNat_of_lt' small
    have plain : isSurrogate (UInt16.ofNat character.toNat) = false := by
      simp only [isSurrogate, toNat, Bool.and_eq_false_iff,
        decide_eq_false_iff_not]
      omega
    rw [List.singleton_append, fromUtf16_plain plain, toNat,
      Char.ofNat_toNat]
  · rename_i large
    have leading : (UInt16.ofNat
        (0xD800 + (character.toNat - 0x10000) / 0x400)).toNat =
          0xD800 + (character.toNat - 0x10000) / 0x400 :=
      UInt16.toNat_ofNat_of_lt' (by rw [UInt16.size]; omega)
    have trailing : (UInt16.ofNat
        (0xDC00 + (character.toNat - 0x10000) % 0x400)).toNat =
          0xDC00 + (character.toNat - 0x10000) % 0x400 :=
      UInt16.toNat_ofNat_of_lt' (by rw [UInt16.size]; omega)
    refine fromUtf16_pair ?_ ?_
    · simp only [isSurrogate, leading, Bool.and_eq_true, decide_eq_true_eq]
      omega
    · have value : 0x10000 +
          (0xD800 + (character.toNat - 0x10000) / 0x400 - 0xD800) * 0x400 +
          (0xDC00 + (character.toNat - 0x10000) % 0x400 - 0xDC00) =
            character.toNat := by omega
      rw [surrogatePair, leading, trailing, if_pos, value, Char.ofNat_toNat]
      simp only [isSurrogate, trailing, Bool.and_eq_true, decide_eq_true_eq]
      omega

@[simp] theorem fromUtf16_utf16 (text : List Char) :
    fromUtf16 (utf16 text) = some text := by
  induction text with
  | nil => rfl
  | cons character text ih =>
      rw [utf16, List.flatMap_cons, fromUtf16_utf16Char, ← utf16, ih]
      rfl

theorem zero_mem_utf16 {text : List Char} :
    0 ∈ utf16 text ↔ '\x00' ∈ text := by
  have char (character : Char) :
      0 ∈ utf16Char character ↔ character = '\x00' := by
    have range := toNat_cases character
    unfold utf16Char
    split
    · rename_i small
      rw [List.mem_singleton, ← UInt16.toNat_inj,
        UInt16.toNat_ofNat_of_lt' small, ← Char.toNat_inj]
      exact eq_comm
    · rename_i large
      have notNull : character ≠ '\x00' := by
        rintro rfl
        exact large (by decide)
      simp only [List.mem_cons, List.not_mem_nil, or_false, notNull, iff_false,
        not_or, ← UInt16.toNat_inj]
      rw [UInt16.toNat_ofNat_of_lt' (by rw [UInt16.size]; omega),
        UInt16.toNat_ofNat_of_lt' (by rw [UInt16.size]; omega),
        UInt16.toNat_zero]
      omega
  simp [utf16, List.mem_flatMap, char]

theorem length_le_length_utf16 (text : List Char) :
    text.length ≤ (utf16 text).length := by
  induction text with
  | nil => simp [utf16]
  | cons character text ih =>
      have one : 1 ≤ (utf16Char character).length := by
        unfold utf16Char
        split <;> simp
      simp only [utf16, List.flatMap_cons, List.length_append,
        List.length_cons] at ih ⊢
      omega

theorem length_utf16_le (text : List Char) :
    (utf16 text).length ≤ 2 * text.length := by
  induction text with
  | nil => simp [utf16]
  | cons character text ih =>
      have pair : (utf16Char character).length ≤ 2 := by
        unfold utf16Char
        split <;> simp
      simp only [utf16, List.flatMap_cons, List.length_append,
        List.length_cons] at ih ⊢
      omega

/-! ## Decoding with replacement -/

/-- `OsStr::to_string_lossy`: a surrogate without its pair is replaced. -/
def fromUtf16Lossy : List UInt16 → List Char
  | [] => []
  | [unit] =>
      if isSurrogate unit then ['\uFFFD'] else [Char.ofNat unit.toNat]
  | unit :: next :: rest =>
      if isSurrogate unit then
        match surrogatePair unit next with
        | some character => character :: fromUtf16Lossy rest
        | none => '\uFFFD' :: fromUtf16Lossy (next :: rest)
      else Char.ofNat unit.toNat :: fromUtf16Lossy (next :: rest)

theorem fromUtf16Lossy_plain {unit : UInt16} {rest : List UInt16}
    (plain : isSurrogate unit = false) :
    fromUtf16Lossy (unit :: rest) =
      Char.ofNat unit.toNat :: fromUtf16Lossy rest := by
  cases rest <;> simp [fromUtf16Lossy, plain]

theorem fromUtf16Lossy_pair {leading trailing : UInt16} {rest : List UInt16}
    {character : Char} (surrogate : isSurrogate leading = true)
    (pair : surrogatePair leading trailing = some character) :
    fromUtf16Lossy (leading :: trailing :: rest) =
      character :: fromUtf16Lossy rest := by
  rw [fromUtf16Lossy, if_pos surrogate, pair]

theorem fromUtf16Lossy_eq {units : List UInt16} {text : List Char}
    (decoded : fromUtf16 units = some text) : fromUtf16Lossy units = text := by
  fun_induction fromUtf16 units generalizing text with
  | case1 =>
      cases decoded
      rfl
  | case2 | case3 => simp_all [fromUtf16Lossy]
  | case4 unit next rest surrogate ih =>
      obtain ⟨character, pair, decoded⟩ := Option.bind_eq_some_iff.mp decoded
      obtain ⟨later, hlater, done⟩ := Option.bind_eq_some_iff.mp decoded
      cases done
      rw [fromUtf16Lossy_pair surrogate pair, ih hlater]
  | case5 unit next rest plain ih =>
      obtain ⟨later, hlater, done⟩ := Option.bind_eq_some_iff.mp decoded
      cases done
      rw [fromUtf16Lossy_plain (by simpa using plain), ih hlater]

end Susm.Foundation
