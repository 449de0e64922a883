import Susm.Foundation.EventMachine

/-!
# Checks that fail

A check that returns an error, and what it means that a sequence of checks
has passed.
-/

namespace Susm.Foundation

universe u v

variable {Error : Type u} {Item : Type v} {condition : Prop}
  [Decidable condition] {error : Error}

/-- `if condition { return Err(error) }` -/
def failIf (condition : Prop) [Decidable condition] (error : Error) :
    Except Error Unit :=
  if condition then .error error else .ok ()

@[simp] theorem failIf_eq_ok {done : Unit} :
    failIf condition error = .ok done ↔ ¬condition := by
  unfold failIf
  split <;> simp_all

@[simp] theorem failIf_false : failIf False error = .ok () := by
  simp

/-- `ok_or` -/
def orError {Value : Type v} (value : Option Value) (error : Error) :
    Except Error Value :=
  value.elim (.error error) .ok

@[simp] theorem orError_eq_ok {Value : Type v} {value : Option Value}
    {result : Value} :
    orError value error = .ok result ↔ value = some result := by
  cases value <;> simp [orError]

theorem orError_eq_error {Value : Type v} {value : Option Value}
    {failure : Error} :
    orError value error = .error failure ↔ value = none ∧ error = failure := by
  cases value <;> simp [orError]

/-- `map_err` -/
@[simp] theorem mapError_eq_ok {Value Other : Type v}
    {result : Except Error Value} {convert : Error → Other} {value : Value} :
    result.mapError convert = .ok value ↔ result = .ok value := by
  cases result <;> simp [Except.mapError]

theorem toOption_eq_some {Value : Type v} {result : Except Error Value}
    {value : Value} : result.toOption = some value ↔ result = .ok value := by
  cases result <;> simp [Except.toOption]

def checkAll (check : Item → Except Error Unit) : List Item →
    Except Error Unit
  | [] => .ok ()
  | item :: items => do
      check item
      checkAll check items

theorem checkAll_eq_ok {check : Item → Except Error Unit}
    {items : List Item} :
    checkAll check items = .ok () ↔ ∀ item ∈ items, check item = .ok () := by
  induction items with
  | nil => simp [checkAll]
  | cons item items ih =>
      cases h : check item <;> simp [checkAll, h, ih, bind, Except.bind]

end Susm.Foundation
