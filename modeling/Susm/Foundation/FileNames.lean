import Mathlib.Data.List.Infix
import Susm.Foundation.Splitting

/-!
# File names

The extension of a file name is what stands behind its last dot, unless that
dot is the first character.
-/

namespace Susm.Foundation

/-- The text in front of the last dot and the text behind it. -/
def splitLastDot (name : List Char) : Option (List Char × List Char) :=
  match splitOnce '.' name.reverse with
  | some (reversed, first :: rest) =>
      some ((first :: rest).reverse, reversed.reverse)
  | _ => none

def fileExtension (name : List Char) : Option (List Char) :=
  (splitLastDot name).map Prod.snd

/-- `Path::with_extension("")` on the last component. -/
def withoutExtension (name : List Char) : List Char :=
  ((splitLastDot name).map Prod.fst).getD name

theorem splitLastDot_append {stem extension : List Char} (hne : stem ≠ [])
    (absent : '.' ∉ extension) :
    splitLastDot (stem ++ '.' :: extension) = some (stem, extension) := by
  have hreverse : (stem ++ '.' :: extension).reverse =
      extension.reverse ++ '.' :: stem.reverse := by simp
  obtain ⟨first, rest, hstem⟩ := List.exists_cons_of_ne_nil
    (List.reverse_ne_nil_iff.mpr hne)
  rw [splitLastDot, hreverse, splitOnce_append (by simpa using absent), hstem]
  dsimp only
  rw [← hstem, List.reverse_reverse, List.reverse_reverse]

theorem fileExtension_append {stem extension : List Char} (hne : stem ≠ [])
    (absent : '.' ∉ extension) :
    fileExtension (stem ++ '.' :: extension) = some extension := by
  rw [fileExtension, splitLastDot_append hne absent, Option.map_some]

theorem withoutExtension_append {stem extension : List Char}
    (hne : stem ≠ []) (absent : '.' ∉ extension) :
    withoutExtension (stem ++ '.' :: extension) = stem := by
  rw [withoutExtension, splitLastDot_append hne absent, Option.map_some,
    Option.getD_some]

end Susm.Foundation
