import Susm.Foundation.Utf8

/-!
# Hexadecimal text

Two lower-case digits for every byte, and the bytes of such digits.
-/

namespace Susm.Foundation

def hexDigit (value : Nat) : Char :=
  if value < 10 then Char.ofNat (48 + value) else Char.ofNat (87 + value)

def hexText (bytes : List UInt8) : List Char :=
  bytes.flatMap fun byte =>
    [hexDigit (byte.toNat / 16), hexDigit (byte.toNat % 16)]

theorem length_hexText (bytes : List UInt8) :
    (hexText bytes).length = 2 * bytes.length := by
  simp [hexText, Nat.mul_comm]

/-- An ASCII digit, or a letter from `a` to `f`. -/
def isLowerHex (byte : UInt8) : Bool :=
  (48 ≤ byte.toNat && byte.toNat ≤ 57) || (97 ≤ byte.toNat && byte.toNat ≤ 102)

theorem utf8_hexDigit {value : Nat} (small : value < 16) :
    String.utf8EncodeChar (hexDigit value) =
      [UInt8.ofNat (if value < 10 then 48 + value else 87 + value)] := by
  revert value
  decide

theorem isLowerHex_hexDigit {value : Nat} (small : value < 16) :
    isLowerHex (UInt8.ofNat (if value < 10 then 48 + value else 87 + value)) =
      true := by
  revert value
  decide

theorem utf8_hexText_cons (byte : UInt8) (bytes : List UInt8) :
    ∃ high low, isLowerHex high = true ∧ isLowerHex low = true ∧
      utf8 (hexText (byte :: bytes)) = high :: low :: utf8 (hexText bytes) := by
  have bound := byte.toNat_lt
  have high : byte.toNat / 16 < 16 := by omega
  have low : byte.toNat % 16 < 16 := by omega
  refine ⟨_, _, isLowerHex_hexDigit high, isLowerHex_hexDigit low, ?_⟩
  simp [utf8, hexText, utf8_hexDigit high, utf8_hexDigit low]

theorem length_utf8_hexText (bytes : List UInt8) :
    (utf8 (hexText bytes)).length = 2 * bytes.length := by
  induction bytes with
  | nil => rfl
  | cons byte bytes ih =>
      obtain ⟨high, low, _, _, encoded⟩ := utf8_hexText_cons byte bytes
      rw [encoded, List.length_cons, List.length_cons, ih, List.length_cons]
      omega

theorem all_isLowerHex (bytes : List UInt8) :
    (utf8 (hexText bytes)).all isLowerHex = true := by
  induction bytes with
  | nil => rfl
  | cons byte bytes ih =>
      obtain ⟨high, low, hhigh, hlow, encoded⟩ := utf8_hexText_cons byte bytes
      simp [encoded, hhigh, hlow, ih]

theorem hyphen_not_mem_hexText (bytes : List UInt8) : '-' ∉ hexText bytes := by
  have digit : ∀ value < 16, '-' ≠ hexDigit value := by decide
  intro member
  obtain ⟨byte, _, member⟩ := List.mem_flatMap.mp member
  have bound := byte.toNat_lt
  simp only [List.mem_cons, List.not_mem_nil, or_false] at member
  cases member with
  | inl same => exact digit _ (by omega) same
  | inr same => exact digit _ (by omega) same

end Susm.Foundation
