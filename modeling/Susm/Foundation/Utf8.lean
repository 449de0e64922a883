import Mathlib.Data.List.Basic

/-!
# UTF-8

The bytes of a text, and the text of bytes in which every maximal part that is
not UTF-8 is replaced by one replacement character.
-/

namespace Susm.Foundation

def utf8 (text : List Char) : List UInt8 := text.flatMap String.utf8EncodeChar

/-! ## Decoding with replacement -/

/-- What may follow a lead byte: the bounds of the second byte and the number
of continuation bytes behind it. -/
def continuation (lead : Nat) : Option (Nat × Nat × Nat) :=
  if 0xC2 ≤ lead ∧ lead ≤ 0xDF then some (0x80, 0xBF, 0)
  else if lead = 0xE0 then some (0xA0, 0xBF, 1)
  else if lead = 0xED then some (0x80, 0x9F, 1)
  else if 0xE1 ≤ lead ∧ lead ≤ 0xEF then some (0x80, 0xBF, 1)
  else if lead = 0xF0 then some (0x90, 0xBF, 2)
  else if 0xF1 ≤ lead ∧ lead ≤ 0xF3 then some (0x80, 0xBF, 2)
  else if lead = 0xF4 then some (0x80, 0x8F, 2)
  else none

/-- The payload bits of a lead byte, by the number of bytes of the sequence. -/
def leadBits (lead more : Nat) : Nat :=
  match more with
  | 0 => lead % 0x20
  | 1 => lead % 0x10
  | _ => lead % 0x08

def takeContinuation : Nat → Nat → List UInt8 → Option Nat × List UInt8
  | 0, value, bytes => (some value, bytes)
  | _ + 1, _, [] => (none, [])
  | more + 1, value, byte :: bytes =>
      if 0x80 ≤ byte.toNat ∧ byte.toNat ≤ 0xBF then
        takeContinuation more (value * 64 + byte.toNat % 64) bytes
      else (none, byte :: bytes)

def takeSequence (lead : Nat) (bytes : List UInt8) : Char × List UInt8 :=
  match continuation lead, bytes with
  | some (low, high, more), second :: rest =>
      if low ≤ second.toNat ∧ second.toNat ≤ high then
        match takeContinuation more
            (leadBits lead more * 64 + second.toNat % 64) rest with
        | (some value, rest) => (Char.ofNat value, rest)
        | (none, rest) => ('\uFFFD', rest)
      else ('\uFFFD', bytes)
  | _, _ => ('\uFFFD', bytes)

def decodeLossy : Nat → List UInt8 → List Char
  | 0, _ | _, [] => []
  | fuel + 1, byte :: bytes =>
      if byte.toNat < 0x80 then
        Char.ofNat byte.toNat :: decodeLossy fuel bytes
      else
        let (character, rest) := takeSequence byte.toNat bytes
        character :: decodeLossy fuel rest

/-- `String::from_utf8_lossy` -/
def fromUtf8Lossy (bytes : List UInt8) : List Char :=
  decodeLossy bytes.length bytes

/-! ## ASCII -/

theorem eq_of_mem_utf8EncodeChar {character : Char} {byte : UInt8}
    (h : byte ∈ String.utf8EncodeChar character) (hbyte : byte.toNat < 0x80) :
    character.toNat = byte.toNat := by
  have hvalue : character.val.toNat = character.toNat := rfl
  unfold String.utf8EncodeChar at h
  dsimp only at h
  rw [hvalue] at h
  split at h
  · rename_i hascii
    rw [List.mem_singleton.mp h, UInt8.toNat_ofNat']
    omega
  · exfalso
    split at h
    · simp only [List.mem_cons, List.not_mem_nil, or_false] at h
      rcases h with rfl | rfl <;> rw [UInt8.toNat_ofNat'] at hbyte <;> omega
    · split at h
      · simp only [List.mem_cons, List.not_mem_nil, or_false] at h
        rcases h with rfl | rfl | rfl <;>
          rw [UInt8.toNat_ofNat'] at hbyte <;> omega
      · simp only [List.mem_cons, List.not_mem_nil, or_false] at h
        rcases h with rfl | rfl | rfl | rfl <;>
          rw [UInt8.toNat_ofNat'] at hbyte <;> omega

theorem not_mem_utf8 {text : List Char} {character : Char}
    (hascii : character.toNat < 0x80) (absent : character ∉ text) :
    UInt8.ofNat character.toNat ∉ utf8 text := by
  intro hmem
  obtain ⟨other, hother, hbyte⟩ := List.mem_flatMap.mp hmem
  have hnat : (UInt8.ofNat character.toNat).toNat = character.toNat := by
    rw [UInt8.toNat_ofNat']
    omega
  have heq := eq_of_mem_utf8EncodeChar hbyte (by omega)
  rw [hnat] at heq
  exact absent (Char.toNat_inj.mp heq ▸ hother)

theorem utf8EncodeChar_ascii {character : Char}
    (h : character.toNat < 0x80) :
    String.utf8EncodeChar character = [UInt8.ofNat character.toNat] := by
  have hvalue : character.val.toNat = character.toNat := rfl
  unfold String.utf8EncodeChar
  dsimp only
  rw [hvalue, if_pos (by omega)]

theorem decodeLossy_ascii {text : List Char}
    (ascii : ∀ character ∈ text, character.toNat < 0x80) (fuel : Nat)
    (hfuel : (utf8 text).length ≤ fuel) :
    decodeLossy fuel (utf8 text) = text := by
  induction text generalizing fuel with
  | nil => cases fuel <;> rfl
  | cons character text ih =>
      obtain ⟨hcharacter, htext⟩ := List.forall_mem_cons.mp ascii
      have hcons : utf8 (character :: text) =
          UInt8.ofNat character.toNat :: utf8 text := by
        simp [utf8, utf8EncodeChar_ascii hcharacter]
      have hnat : (UInt8.ofNat character.toNat).toNat = character.toNat := by
        rw [UInt8.toNat_ofNat']
        omega
      rw [hcons, List.length_cons] at hfuel
      obtain ⟨fuel, rfl⟩ := Nat.exists_eq_succ_of_ne_zero
        (show fuel ≠ 0 by omega)
      rw [hcons, decodeLossy, hnat, if_pos hcharacter,
        ih htext fuel (by omega), Char.ofNat_toNat]

theorem fromUtf8Lossy_ascii {text : List Char}
    (ascii : ∀ character ∈ text, character.toNat < 0x80) :
    fromUtf8Lossy (utf8 text) = text :=
  decodeLossy_ascii ascii _ (Nat.le_refl _)

/-! ## Strict decoding -/

/-- `str::from_utf8` -/
def fromUtf8 (bytes : List UInt8) : Option String :=
  String.fromUTF8? ⟨bytes.toArray⟩

theorem fromUtf8_utf8 (text : String) :
    fromUtf8 (utf8 text.toList) = some text := by
  have encoded : (⟨(utf8 text.toList).toArray⟩ : ByteArray) =
      text.toByteArray := by
    rw [← String.utf8Encode_toList, List.utf8Encode]
    ext1
    simp [utf8]
  rw [fromUtf8, encoded, String.fromUTF8?, dif_pos text.isValidUTF8]
  rfl

theorem length_utf8_le (text : List Char) :
    (utf8 text).length ≤ 4 * text.length := by
  induction text with
  | nil => simp [utf8]
  | cons character text ih =>
      have size := character.utf8Size_le_four
      simp only [utf8, List.flatMap_cons, List.length_append,
        String.length_utf8EncodeChar, List.length_cons] at ih ⊢
      omega

end Susm.Foundation
