import Mathlib.Data.List.Infix

/-!
# Append-only files of framed records

A writer appends the encodings of frames to a file; a write may stop after any
prefix.  A reader takes one frame after another off the front of the file and
stops at the first incomplete one.  `Layout` describes a file that such a
writer left behind, `Parses` what the reader gets from it.
-/

namespace Susm.Foundation.Framing

universe u v w

variable {Byte : Type u} {Frame : Type v} {Error : Type w}

/-- Take a frame off the front, find it incomplete, or reject the input. -/
abbrev Reader (Byte : Type u) (Frame : Type v) (Error : Type w) :=
  List Byte → Except Error (Option (Frame × List Byte))

inductive Parses (read : Reader Byte Frame Error) :
    List Byte → List Frame → List Byte → Prop
  | stop {tail : List Byte} (incomplete : read tail = .ok none) :
      Parses read tail [] tail
  | next {input rest tail : List Byte} {frame : Frame} {frames : List Frame}
      (head : read input = .ok (some (frame, rest)))
      (more : Parses read rest frames tail) :
      Parses read input (frame :: frames) tail

/-- The encoding is read back whole, and no strict prefix of it is. -/
structure Readable (read : Reader Byte Frame Error)
    (encode : Frame → List Byte) (frame : Frame) : Prop where
  whole : ∀ rest, read (encode frame ++ rest) = .ok (some (frame, rest))
  part : ∀ tail, tail <+: encode frame → tail ≠ encode frame →
    read tail = .ok none

theorem Parses.encoded {read : Reader Byte Frame Error}
    {encode : Frame → List Byte} {frames : List Frame} {tail : List Byte}
    (readable : ∀ frame ∈ frames, Readable read encode frame)
    (incomplete : read tail = .ok none) :
    Parses read (frames.flatMap encode ++ tail) frames tail := by
  induction frames with
  | nil => exact .stop incomplete
  | cons frame frames ih =>
      rw [List.flatMap_cons, List.append_assoc]
      refine .next ((readable frame List.mem_cons_self).whole _) (ih ?_)
      intro other hmem
      exact readable other (List.mem_cons_of_mem frame hmem)

/-- A strict prefix of the encoding of some frame. -/
def Torn (encode : Frame → List Byte) (good : Frame → Prop)
    (tail : List Byte) : Prop :=
  ∃ frame, good frame ∧ tail <+: encode frame ∧ tail ≠ encode frame

/-- The frames that were written whole, and what a torn write left of one. -/
structure Layout (encode : Frame → List Byte) (good : Frame → Prop)
    (file : List Byte) (written : List Frame) (tail : List Byte) : Prop where
  bytes : file = written.flatMap encode ++ tail
  frames : ∀ frame ∈ written, good frame
  torn : tail = [] ∨ Torn encode good tail

section Layout

variable {encode : Frame → List Byte} {good : Frame → Prop}
  {file tail : List Byte} {written : List Frame} {frame : Frame}

theorem Layout.empty : Layout encode good [] [] [] := by
  refine ⟨rfl, ?_, .inl rfl⟩
  intro frame hmem
  cases hmem

theorem Layout.write (layout : Layout encode good file written [])
    (hgood : good frame) :
    Layout encode good (file ++ encode frame) (written ++ [frame]) [] := by
  refine ⟨?_, ?_, .inl rfl⟩
  · simp [layout.bytes]
  · intro other hmem
    rcases List.mem_append.mp hmem with h | h
    · exact layout.frames other h
    · rw [List.mem_singleton.mp h]
      exact hgood

theorem Layout.tear (layout : Layout encode good file written [])
    (hgood : good frame) {count : Nat} (h : count < (encode frame).length) :
    Layout encode good (file ++ (encode frame).take count) written
      ((encode frame).take count) := by
  refine ⟨by simp [layout.bytes], layout.frames,
    .inr ⟨frame, hgood, List.take_prefix _ _, ?_⟩⟩
  intro heq
  have hlength := congrArg List.length heq
  rw [List.length_take] at hlength
  omega

def within (encode : Frame → List Byte) : Nat → List Frame → List Frame
  | _, [] => []
  | size, frame :: frames =>
      if (encode frame).length ≤ size then
        frame :: within encode (size - (encode frame).length) frames
      else []

theorem within_start (encode : Frame → List Byte) (size : Nat)
    (frames : List Frame) : within encode size frames <+: frames := by
  induction frames generalizing size with
  | nil => exact List.prefix_rfl
  | cons frame frames ih =>
      unfold within
      split
      · exact (List.prefix_cons_inj frame).mpr (ih _)
      · exact List.nil_prefix

theorem le_length_within (encode : Frame → List Byte) {size count : Nat}
    {frames : List Frame} (hcount : count ≤ frames.length)
    (hfits : ((frames.take count).flatMap encode).length ≤ size) :
    count ≤ (within encode size frames).length := by
  induction frames generalizing size count with
  | nil => simpa [within] using hcount
  | cons frame frames ih =>
      cases count with
      | zero => exact Nat.zero_le _
      | succ count =>
          rw [List.take_succ_cons, List.flatMap_cons, List.length_append]
            at hfits
          have hmore : count ≤
              (within encode (size - (encode frame).length) frames).length :=
            ih (Nat.le_of_succ_le_succ hcount) (by omega)
          rw [within, if_pos (by omega), List.length_cons]
          omega

/-- A file cut off anywhere is what lies in front of the cut, and the part of
the next frame that the cut leaves. -/
theorem take_flatMap (encode : Frame → List Byte) (size : Nat)
    (frames : List Frame) :
    ∃ tail, (frames.flatMap encode).take size =
        (within encode size frames).flatMap encode ++ tail ∧
      (tail = [] ∨ ∃ frame, within encode size frames ++ [frame] <+: frames ∧
        tail <+: encode frame ∧ tail ≠ encode frame) := by
  induction frames generalizing size with
  | nil => exact ⟨[], by simp [within], .inl rfl⟩
  | cons frame frames ih =>
      rw [List.flatMap_cons, List.take_append, within]
      split
      · rename_i hfits
        obtain ⟨tail, bytes, torn⟩ := ih (size - (encode frame).length)
        refine ⟨tail, ?_, torn.imp_right ?_⟩
        · rw [List.take_of_length_le hfits, bytes, List.flatMap_cons,
            List.append_assoc]
        · rintro ⟨next, hnext, hpart⟩
          exact ⟨next, (List.prefix_cons_inj frame).mpr hnext, hpart⟩
      · rename_i hshort
        have hnone : size - (encode frame).length = 0 := by omega
        refine ⟨(encode frame).take size, by simp [hnone], .inr ?_⟩
        refine ⟨frame, ?_, List.take_prefix _ _, ?_⟩
        · exact (List.prefix_cons_inj frame).mpr List.nil_prefix
        · intro heq
          have hlength := congrArg List.length heq
          rw [List.length_take] at hlength
          omega

theorem Layout.truncated {frames : List Frame}
    (hgood : ∀ frame ∈ frames, good frame) (size : Nat) :
    ∃ tail, Layout encode good ((frames.flatMap encode).take size)
      (within encode size frames) tail := by
  obtain ⟨tail, bytes, torn⟩ := take_flatMap encode size frames
  refine ⟨tail, bytes, ?_, torn.imp_right ?_⟩
  · exact fun frame hmem =>
      hgood frame ((within_start encode size frames).subset hmem)
  · rintro ⟨frame, hnext, hpart⟩
    exact ⟨frame, hgood frame (hnext.subset (by simp)), hpart⟩

theorem Layout.parses {read : Reader Byte Frame Error}
    (layout : Layout encode good file written tail)
    (readable : ∀ frame, good frame → Readable read encode frame)
    (empty : read [] = .ok none) : Parses read file written tail := by
  rw [layout.bytes]
  refine .encoded (fun frame hmem =>
    readable frame (layout.frames frame hmem)) ?_
  rcases layout.torn with rfl | ⟨frame, hgood, hstart, hne⟩
  · exact empty
  · exact (readable frame hgood).part tail hstart hne

end Layout

end Susm.Foundation.Framing
