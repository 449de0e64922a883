import Mathlib.Data.List.Forall2

/-!
# Prefix codes

A feed is what a program passes on, symbol by symbol, unless it stops on the
way.  Two feeds separate a condition when, whatever follows equal streams, the
condition holds and the same follows both.  Feeds in sequence separate the
conditions of all of them, so that a writer made of such feeds can be read back
without any mark between its parts.
-/

namespace Susm.Foundation

universe u v

/-- The symbols that were passed on; nothing when the program stopped. -/
def Feed (Symbol : Type u) := Option (List Symbol)

namespace Feed

variable {Symbol : Type u} {Value : Type v}

def of (symbols : List Symbol) : Feed Symbol := some symbols

def stopped : Feed Symbol := none

def append (first second : Feed Symbol) : Feed Symbol :=
  first.bind fun before => second.map fun after => before ++ after

instance : Append (Feed Symbol) := ⟨append⟩

def all : List (Feed Symbol) → Feed Symbol
  | [] => of []
  | first :: rest => first ++ all rest

variable {first second third fourth : Feed Symbol} {Same Other : Prop}

theorem append_eq_some_iff {symbols : List Symbol} :
    first ++ second = some symbols ↔
      ∃ before after, first = some before ∧ second = some after ∧
        before ++ after = symbols := by
  constructor
  · intro h
    obtain ⟨before, hfirst, h⟩ := Option.bind_eq_some_iff.mp h
    obtain ⟨after, hsecond, h⟩ := Option.map_eq_some_iff.mp h
    exact ⟨before, after, hfirst, hsecond, h⟩
  · rintro ⟨before, after, rfl, rfl, rfl⟩
    rfl

/-! ## What feeds tell apart -/

def Separates (first second : Feed Symbol) (Same : Prop) : Prop :=
  ∀ left right after rest, first = some left → second = some right →
    left ++ after = right ++ rest → Same ∧ after = rest

theorem Separates.mono (separates : Separates first second Same)
    (weaker : Same → Other) : Separates first second Other := by
  intro left right after rest hleft hright heq
  obtain ⟨same, hrest⟩ := separates left right after rest hleft hright heq
  exact ⟨weaker same, hrest⟩

theorem Separates.append (before : Separates first second Same)
    (after : Same → Separates third fourth Other) :
    Separates (first ++ third) (second ++ fourth) (Same ∧ Other) := by
  intro left right rest other hleft hright heq
  obtain ⟨left, left', hfirst, hthird, rfl⟩ := append_eq_some_iff.mp hleft
  obtain ⟨right, right', hsecond, hfourth, rfl⟩ :=
    append_eq_some_iff.mp hright
  rw [List.append_assoc, List.append_assoc] at heq
  obtain ⟨same, hrest⟩ := before _ _ _ _ hfirst hsecond heq
  obtain ⟨alike, hend⟩ := after same _ _ _ _ hthird hfourth hrest
  exact ⟨⟨same, alike⟩, hend⟩

theorem separates_of {left right : List Symbol}
    (length : left.length = right.length) :
    Separates (of left) (of right) (left = right) := by
  rintro _ _ after rest ⟨⟩ ⟨⟩ heq
  exact List.append_inj heq length

/-- The feed begins with the symbol, unless it stops. -/
def Begins (symbol : Symbol) (feed : Feed Symbol) : Prop :=
  ∀ symbols, feed = some symbols → symbols.head? = some symbol

theorem Begins.append {symbol : Symbol} (begins : Begins symbol first) :
    Begins symbol (first ++ second) := by
  intro symbols hsymbols
  obtain ⟨before, after, hfirst, -, rfl⟩ := append_eq_some_iff.mp hsymbols
  have head := begins before hfirst
  cases before with
  | nil => cases head
  | cons _ _ => exact head

theorem separates_heads {symbol other : Symbol} (begins : Begins symbol first)
    (beginsOther : Begins other second)
    (alike : symbol = other → Separates first second Same) :
    Separates first second Same := by
  intro left right after rest hleft hright heq
  have head := begins left hleft
  have headOther := beginsOther right hright
  cases left with
  | nil => cases head
  | cons _ left =>
      cases right with
      | nil => cases headOther
      | cons _ right =>
          cases head
          cases headOther
          exact alike (List.cons.inj heq).1 _ _ _ _ hleft hright heq

theorem separates_stopped : Separates stopped second Same := nofun

theorem separates_each {encode : Value → Feed Symbol}
    {Alike : Value → Value → Prop} {values others : List Value}
    (each : ∀ value other, Separates (encode value) (encode other)
      (Alike value other))
    (length : values.length = others.length) :
    Separates (all (values.map encode)) (all (others.map encode))
      (List.Forall₂ Alike values others) := by
  induction values generalizing others with
  | nil =>
      cases others with
      | nil => exact (separates_of rfl).mono fun _ => .nil
      | cons other others => cases length
  | cons value values ih =>
      cases others with
      | nil => cases length
      | cons other others =>
          refine (Separates.append (each value other) fun _ =>
            ih (Nat.succ.inj length)).mono ?_
          rintro ⟨first, rest⟩
          exact .cons first rest

theorem separates_all {encode : Value → Feed Symbol} {values others : List Value}
    (each : ∀ value other, Separates (encode value) (encode other)
      (value = other))
    (length : values.length = others.length) :
    Separates (all (values.map encode)) (all (others.map encode))
      (values = others) :=
  (separates_each each length).mono fun alike =>
    List.forall₂_eq_eq_eq ▸ alike

end Feed

open Feed

variable {Symbol : Type u} {Value : Type v}

def PrefixFree (encode : Value → Feed Symbol) : Prop :=
  ∀ value other, Separates (encode value) (encode other) (value = other)

end Susm.Foundation
