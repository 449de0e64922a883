import Mathlib.Data.List.Basic

/-!
# Readers of an announced value

A source counts its announcements.  A reader that is told of one looks at the
value as it is then and hands it on; announcements that come together are one
to the reader.  As long as every change is announced, a reader that has been
told everything has handed on the present value or is about to.
-/

namespace Susm.Foundation

universe u

/-- What a reader does next. -/
inductive Reading (Value : Type u) where
  | waiting
  | looking
  | holding (value : Value)

structure Reader (Value : Type u) where
  seen : Nat
  reading : Reading Value
  last : Option Value

variable {Value : Type u}

/-- Whether the next value that is handed on is present, if it is fixed. -/
def Reader.IsPresent (Shows : Value → Prop) (reader : Reader Value) : Prop :=
  match reader.reading with
  | .waiting => ∃ value, reader.last = some value ∧ Shows value
  | .looking => True
  | .holding value => Shows value

/-- A reader that is not present has not been told everything. -/
structure Reader.Informed (count : Nat) (Shows : Value → Prop)
    (reader : Reader Value) : Prop where
  told : reader.seen ≤ count
  present : reader.seen = count → reader.IsPresent Shows

namespace Reader.Informed

variable {count later : Nat} {Shows Still : Value → Prop}
  {reader : Reader Value} {value : Value} {last : Option Value}

theorem announce (informed : reader.Informed count Shows)
    (announced : count < later) : reader.Informed later Still :=
  ⟨Nat.le_trans informed.told (Nat.le_of_lt announced),
    fun h => absurd (h ▸ informed.told) (Nat.not_le.mpr announced)⟩

theorem keep (informed : reader.Informed count Shows)
    (keeps : ∀ value, Shows value → Still value) :
    reader.Informed count Still := by
  refine ⟨informed.told, fun h => ?_⟩
  have present := informed.present h
  unfold IsPresent at present ⊢
  split at present
  · obtain ⟨value, hlast, shows_value⟩ := present
    exact ⟨value, hlast, keeps value shows_value⟩
  · trivial
  · exact keeps _ present

theorem look (seen : Nat) (told : seen ≤ count) :
    Informed count Shows ⟨seen, .looking, last⟩ :=
  ⟨told, fun _ => trivial⟩

theorem take {seen : Nat} (told : seen ≤ count) (shows_value : Shows value) :
    Informed count Shows ⟨seen, .holding value, last⟩ :=
  ⟨told, fun _ => shows_value⟩

theorem handOn {seen : Nat}
    (informed : Informed count Shows ⟨seen, .holding value, last⟩) :
    Informed count Shows ⟨seen, .waiting, some value⟩ :=
  ⟨informed.told, fun h => ⟨value, rfl, informed.present h⟩⟩

end Reader.Informed

end Susm.Foundation
