import Mathlib.Data.List.Basic
import Mathlib.Algebra.Order.Ring.Nat

/-!
# Little-endian integers

Natural numbers written as a fixed number of bytes, least significant first.
-/

namespace Susm.Foundation

def leBytes : Nat → Nat → List UInt8
  | 0, _ => []
  | width + 1, value => UInt8.ofNat value :: leBytes width (value / 256)

def ofLeBytes : List UInt8 → Nat
  | [] => 0
  | byte :: bytes => byte.toNat + 256 * ofLeBytes bytes

@[simp] theorem length_leBytes (width value : Nat) :
    (leBytes width value).length = width := by
  induction width generalizing value with
  | zero => rfl
  | succ width ih => simp [leBytes, ih]

theorem ofLeBytes_leBytes (width value : Nat) :
    ofLeBytes (leBytes width value) = value % 256 ^ width := by
  induction width generalizing value with
  | zero => simp [leBytes, ofLeBytes, Nat.mod_one]
  | succ width ih =>
      calc
        ofLeBytes (leBytes (width + 1) value) =
            value % 256 + 256 * (value / 256 % 256 ^ width) := by
          simp [leBytes, ofLeBytes, ih]
        _ = value % (256 * 256 ^ width) := Nat.mod_mul.symm
        _ = value % 256 ^ (width + 1) := by rw [Nat.pow_succ']

theorem ofLeBytes_leBytes_of_lt {width value : Nat}
    (h : value < 256 ^ width) : ofLeBytes (leBytes width value) = value := by
  rw [ofLeBytes_leBytes, Nat.mod_eq_of_lt h]

theorem leBytes_ofLeBytes (bytes : List UInt8) :
    leBytes bytes.length (ofLeBytes bytes) = bytes := by
  induction bytes with
  | nil => rfl
  | cons byte bytes ih =>
      have hbyte : byte.toNat < 256 := byte.toNat_lt
      have hrest : (byte.toNat + 256 * ofLeBytes bytes) / 256 =
          ofLeBytes bytes := by omega
      have hfirst : UInt8.ofNat (byte.toNat + 256 * ofLeBytes bytes) =
          byte := by
        apply UInt8.toNat_inj.mp
        simp
      rw [List.length_cons, leBytes, ofLeBytes, hrest, hfirst, ih]

end Susm.Foundation
