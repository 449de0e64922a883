import Mathlib.Algebra.Group.Int.Defs
import Mathlib.Algebra.Group.Nat.Defs
import Mathlib.Data.Nat.Basic
import Mathlib.Data.Option.Basic

/-!
# Bounded machine integers

Checked and saturating arithmetic below an exclusive limit, saturation to
signed 64-bit integers, and the non-zero 32-bit integers.
-/

namespace Susm.Foundation

/--
The value itself below the exclusive limit, nothing from the limit on.  It is
irreducible so that no comparison with a 64-bit limit is ever unfolded while
terms are compared.
-/
@[irreducible] def checked (limit value : Nat) : Option Nat :=
  if value < limit then some value else none

theorem checked_eq_some_iff {limit value result : Nat} :
    checked limit value = some result ↔ value < limit ∧ value = result := by
  unfold checked
  split <;> simp [*]

theorem checked_eq_none_iff {limit value : Nat} :
    checked limit value = none ↔ limit ≤ value := by
  simp [checked]

@[simp] theorem checked_of_lt {limit value : Nat} (h : value < limit) :
    checked limit value = some value :=
  checked_eq_some_iff.mpr ⟨h, rfl⟩

/-- Addition that stops at the largest value below the exclusive limit. -/
def saturatingAdd (limit first second : Nat) : Nat :=
  min (first + second) (limit - 1)

theorem saturatingAdd_of_lt {limit first second : Nat}
    (h : first + second < limit) :
    saturatingAdd limit first second = first + second := by
  simp [saturatingAdd]
  omega

/-- Multiplication that stops at the largest value below the exclusive limit. -/
def saturatingMul (limit first second : Nat) : Nat :=
  min (first * second) (limit - 1)

/-- The largest signed 64-bit integer. -/
def maxI64 : Int := 2 ^ 63 - 1

/-- Clamp to the signed 64-bit integers. -/
def saturateI64 (value : Int) : Int := max (-2 ^ 63) (min value maxI64)

@[ext] structure NonZeroU32 where
  get : Nat
  pos : 0 < get
  lt : get < 2 ^ 32
  deriving Repr

namespace NonZeroU32

instance : DecidableEq NonZeroU32 := fun first second =>
  decidable_of_iff (first.get = second.get) NonZeroU32.ext_iff.symm

def one : NonZeroU32 := ⟨1, by decide, by decide⟩

def two : NonZeroU32 := ⟨2, by decide, by decide⟩

end NonZeroU32

end Susm.Foundation
