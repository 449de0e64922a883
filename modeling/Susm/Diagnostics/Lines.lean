import Susm.Diagnostics.Draining

/-!
# Lines in segments

A segment is closed before a line would make it too long, so every closed one
is no longer than allowed, a single line apart.  Whatever fails, the segments
hold lines that the writer was to write, in order, and parts of long ones; when
nothing fails, they hold all of them.  Closed segments go only by retention.
-/

namespace Susm.Diagnostics

open Susm.Foundation

/-! ## One segment -/

theorem Piece.size_pos {piece : Piece} (line : 0 < piece.record.length)
    (whole : piece.isWhole = true) : 0 < piece.size := by
  cases piece with
  | whole record => exact line
  | cut record length => cases whole

theorem Piece.size_of_cut {piece : Piece} (cut : piece.isWhole = false) :
    piece.size = 0 := by
  cases piece with
  | whole record => cases cut
  | cut record length => rfl

theorem Access.leftOf_cases (access : Access) (record : Bytes) :
    access.leftOf record = [] ∨
      (bufferBytes ≤ record.length ∧
        access.leftOf record = [.cut record access.left]) := by
  unfold Access.leftOf
  split
  · rename_i h
    exact .inr ⟨h.1, rfl⟩
  · exact .inl rfl

namespace Disk

variable {access : Access} {disk next : Disk} {record : Bytes}
  {written : Written}

/-- What was written to the closed segments, removed ones too, and to the one
that is written to. -/
def contents (disk : Disk) : List Piece :=
  disk.closed.flatMap ClosedSegment.pieces ++
    if disk.segment.hasWriter then disk.segment.pieces else []

def records (disk : Disk) : List Bytes := disk.contents.map Piece.record

/-- Not longer than allowed, or a single line, apart from what was cut. -/
def Fits (pieces : List Piece) : Prop :=
  tally Piece.size pieces ≤ segmentBytes ∨
    pieces.countP Piece.isWhole ≤ 1

def Lines (pieces : List Piece) : Prop :=
  ∀ piece ∈ pieces, 0 < piece.record.length ∧
    (piece.isWhole = false → bufferBytes ≤ piece.record.length)

/-- A whole line, and not too many of them. -/
structure Sound (pieces : List Piece) : Prop where
  line : ∃ piece ∈ pieces, piece.isWhole = true
  fits : Fits pieces
  lines : Lines pieces

structure Whole (disk : Disk) : Prop where
  closed : ∀ segment ∈ disk.closed, Sound segment.pieces
  lines : Lines disk.segment.pieces
  counted : disk.segment.bytes =
    min (tally Piece.size disk.segment.pieces) (2 ^ 64 - 1)
  fits : Fits disk.segment.pieces

theorem lines_append {first second : List Piece} (hfirst : Lines first)
    (hsecond : Lines second) : Lines (first ++ second) :=
  List.forall_mem_append.mpr ⟨hfirst, hsecond⟩

theorem lines_leftOf (access : Access) (record : Bytes) :
    Lines (access.leftOf record) := by
  rcases access.leftOf_cases record with h | ⟨long, h⟩
  · rw [h]
    nofun
  · rw [h]
    refine List.forall_mem_singleton.mpr ⟨?_, fun _ => long⟩
    exact lt_of_lt_of_le (by decide) long

theorem size_leftOf (access : Access) (record : Bytes) :
    tally Piece.size (access.leftOf record) = 0 ∧
      (access.leftOf record).countP Piece.isWhole = 0 := by
  rcases access.leftOf_cases record with h | ⟨-, h⟩ <;> rw [h] <;>
    exact ⟨rfl, rfl⟩

theorem whole_opened {closed : List ClosedSegment}
    (held : ∀ segment ∈ closed, Sound segment.pieces) :
    Whole ⟨closed, .opened⟩ :=
  ⟨held, nofun, by simp [Segment.opened], .inr (by simp [Segment.opened])⟩

theorem Whole.empty_iff (whole : disk.Whole) :
    disk.segment.bytes = 0 ↔
      ∀ piece ∈ disk.segment.pieces, piece.isWhole = false := by
  rw [whole.counted]
  constructor
  · intro hzero piece hmem
    by_contra hwhole
    have hle := le_tally Piece.size hmem
    have hpos := Piece.size_pos (whole.lines piece hmem).1
      (Bool.eq_true_of_not_eq_false hwhole)
    omega
  · intro hcut
    have hzero : tally Piece.size disk.segment.pieces = 0 :=
      List.sum_eq_zero (List.forall_mem_map.mpr
        fun piece hmem => Piece.size_of_cut (hcut piece hmem))
    rw [hzero]
    rfl

/-! ### Names -/

theorem without_closed (names : List String) (disk : Disk) :
    ∀ segment ∈ (disk.without names).closed,
      ∃ before ∈ disk.closed, segment.name = before.name ∧
        segment.pieces = before.pieces ∧
        (segment.removed = true →
          before.removed = true ∨ before.name ∈ names) := by
  intro segment hmem
  obtain ⟨before, hbefore, rfl⟩ := List.mem_map.mp hmem
  refine ⟨before, hbefore, ?_⟩
  split
  · rename_i hname
    exact ⟨rfl, rfl, fun _ => .inr hname⟩
  · exact ⟨rfl, rfl, .inl⟩

@[simp] theorem without_pieces (names : List String) (disk : Disk) :
    (disk.without names).closed.flatMap ClosedSegment.pieces =
      disk.closed.flatMap ClosedSegment.pieces := by
  unfold without
  rw [List.flatMap_map]
  congr 1
  funext segment
  split <;> rfl

@[simp] theorem without_contents (names : List String) (disk : Disk) :
    (disk.without names).contents = disk.contents := by
  unfold contents
  rw [without_pieces]
  rfl

theorem Whole.without (whole : disk.Whole) (names : List String) :
    (disk.without names).Whole := by
  refine { whole with closed := fun segment hmem => ?_ }
  obtain ⟨before, hbefore, -, same, -⟩ := disk.without_closed names segment hmem
  rw [same]
  exact whole.closed before hbefore

/-! ### Accesses -/

theorem finish_whole (access : Access) (whole : disk.Whole) :
    (disk.finish access).2.Whole ∧
      (disk.finish access).2.contents.Sublist disk.contents := by
  unfold finish
  split
  · exact ⟨whole, List.Sublist.refl _⟩
  · rename_i hwriter
    rw [Bool.not_eq_true, Bool.not_eq_false'] at hwriter
    have taken : Whole
        { disk with segment := { disk.segment with hasWriter := false } } :=
      ⟨whole.closed, whole.lines, whole.counted, whole.fits⟩
    dsimp only
    split
    · exact ⟨taken, by simp [contents]⟩
    · rename_i hbytes
      split
      · refine ⟨{ taken with closed := ?_ }, ?_⟩
        · intro segment hmem
          rcases List.mem_append.mp hmem with hold | hnew
          · exact (taken.without [access.name]).closed segment hold
          · rw [List.mem_singleton.mp hnew]
            refine ⟨?_, whole.fits, whole.lines⟩
            by_contra hnone
            refine hbytes (whole.empty_iff.mpr fun piece hmem => ?_)
            exact Bool.eq_false_of_not_eq_true
              fun hwhole => hnone ⟨piece, hmem, hwhole⟩
        · simp [contents, close, hwriter]
      · exact ⟨taken, by simp [contents]⟩

theorem conclude_whole (access : Access) (whole : disk.Whole) :
    (disk.conclude access).Whole ∧
      (disk.conclude access).contents.Sublist disk.contents := by
  obtain ⟨finished, shorter⟩ := finish_whole access whole
  refine ⟨finished.without _, ?_⟩
  rw [conclude, retain, without_contents]
  exact shorter

theorem rotate_whole (access : Access) (whole : disk.Whole) :
    (disk.rotate access).2.Whole ∧
      (disk.rotate access).2.contents.Sublist disk.contents ∧
      ((disk.rotate access).1 = true →
        (disk.rotate access).2.segment = .opened) := by
  have finished := finish_whole access whole
  unfold rotate
  split
  · rename_i hfinish
    rw [hfinish] at finished
    exact ⟨finished.1, finished.2, nofun⟩
  · rename_i after hfinish
    rw [hfinish] at finished
    have retained : (after.retain access).Whole := finished.1.without _
    have shorter : (after.retain access).contents.Sublist disk.contents := by
      rw [retain, without_contents]
      exact finished.2
    split
    · exact ⟨retained, shorter, nofun⟩
    · split
      · refine ⟨whole_opened retained.closed, ?_, fun _ => rfl⟩
        refine List.Sublist.trans ?_ shorter
        simp [contents, Segment.opened]
      · exact ⟨retained, shorter, nofun⟩

theorem write_whole (access : Access) (whole : disk.Whole)
    (line : 0 < record.length)
    (room : disk.segment.pieces.countP Piece.isWhole = 0 ∨
      tally Piece.size disk.segment.pieces + record.length ≤ segmentBytes) :
    (disk.write access record).2.Whole ∧
      (disk.write access record).2.records.Sublist
        (disk.records ++ [record]) := by
  unfold write
  split
  · exact ⟨whole, List.sublist_append_left _ _⟩
  rename_i hwriter
  rw [Bool.not_eq_true, Bool.not_eq_false'] at hwriter
  split
  · refine ⟨⟨whole.closed, ?_, ?_, ?_⟩, ?_⟩
    · exact lines_append whole.lines
        (List.forall_mem_singleton.mpr ⟨line, nofun⟩)
    · have hcounted := whole.counted
      simp only [tally_append, tally_cons, tally_nil, saturatingAdd, Piece.size]
      omega
    · rcases room with hnone | hroom
      · refine .inr ?_
        rw [List.countP_append, hnone]
        rfl
      · refine .inl ?_
        simpa [Piece.size] using hroom
    · simp [records, contents, hwriter, Piece.record]
  · obtain ⟨hsize, hcount⟩ := size_leftOf access record
    refine ⟨⟨whole.closed, lines_append whole.lines (lines_leftOf _ _), ?_, ?_⟩,
      ?_⟩
    · rw [tally_append, hsize]
      exact whole.counted
    · unfold Fits
      rw [tally_append, hsize, List.countP_append, hcount]
      exact whole.fits
    · have left : ((access.leftOf record).map Piece.record).Sublist
          [record] := by
        rcases access.leftOf_cases record with h | ⟨-, h⟩
        · rw [h]
          exact List.nil_sublist _
        · rw [h]
          exact List.Sublist.refl _
      simp only [records, contents, hwriter, if_true, List.map_append,
        List.append_assoc]
      exact (List.Sublist.refl _).append ((List.Sublist.refl _).append left)

theorem room_of_keep (whole : disk.Whole)
    (keeps : disk.shouldRotate access record.length = false) :
    disk.segment.pieces.countP Piece.isWhole = 0 ∨
      tally Piece.size disk.segment.pieces + record.length ≤ segmentBytes := by
  by_cases hbytes : disk.segment.bytes = 0
  · refine .inl (List.countP_eq_zero.mpr fun piece hmem => ?_)
    rw [whole.empty_iff.mp hbytes piece hmem]
    exact Bool.false_ne_true
  · refine .inr ?_
    rw [shouldRotate, decide_eq_false_iff_not] at keeps
    have hshort : ¬segmentBytes <
        saturatingAdd (2 ^ 64) disk.segment.bytes record.length :=
      fun hlong => keeps ⟨hbytes, .inl hlong⟩
    have hcounted := whole.counted
    have hlimit : segmentBytes < 2 ^ 64 - 1 := by decide
    simp only [saturatingAdd] at hshort
    omega

theorem writeRecord_whole (whole : disk.Whole) (line : 0 < record.length)
    (wrote : disk.writeRecord access record = (written, next)) :
    next.Whole ∧ next.records.Sublist (disk.records ++ [record]) := by
  unfold writeRecord at wrote
  split at wrote
  · obtain ⟨rotated, shorter, fresh⟩ :=
      rotate_whole access whole
    have shorter := shorter.map Piece.record
    split at wrote
    · rename_i hrotate
      rw [hrotate] at rotated shorter
      cases wrote
      exact ⟨rotated, shorter.trans (List.sublist_append_left _ _)⟩
    · rename_i after hrotate
      rw [hrotate] at rotated shorter fresh
      have hempty : after.segment.pieces.countP Piece.isWhole = 0 := by
        rw [fresh rfl]
        rfl
      have result := write_whole access rotated line (.inl hempty)
      rw [wrote] at result
      exact ⟨result.1, result.2.trans (shorter.append_right _)⟩
  · rename_i hkeeps
    rw [Bool.not_eq_true] at hkeeps
    have result := write_whole access whole line
      (room_of_keep whole hkeeps)
    rw [wrote] at result
    exact result

theorem tick_whole (whole : disk.Whole)
    (ticked : disk.tick access = (written, next)) :
    next.Whole ∧ next.contents.Sublist disk.contents := by
  unfold tick at ticked
  split at ticked
  · cases ticked
    exact ⟨whole, List.Sublist.refl _⟩
  split at ticked
  · cases ticked
    exact ⟨whole, List.Sublist.refl _⟩
  split at ticked
  · have rotated := rotate_whole access whole
    cases ticked
    exact ⟨rotated.1, rotated.2.1⟩
  · cases ticked
    exact ⟨whole, List.Sublist.refl _⟩

/-! ### Without failures -/

/-- Nothing fails, retention removes only these files, and the segment gets a
name that no other one has. -/
structure Smooth (expired : List String) (disk : Disk) (access : Access) :
    Prop where
  finished : access.finished = true
  reopened : access.reopened = true
  written : access.written = true
  retained : access.retention.result.isOk = true
  removes : ∀ name ∈ access.retention.paths, name ∈ expired
  fresh : ∀ segment ∈ disk.closed, segment.name ≠ access.name

instance (expired : List String) (disk : Disk) (access : Access) :
    Decidable (disk.Smooth expired access) :=
  decidable_of_iff
    (access.finished = true ∧ access.reopened = true ∧
      access.written = true ∧ access.retention.result.isOk = true ∧
      (∀ name ∈ access.retention.paths, name ∈ expired) ∧
      ∀ segment ∈ disk.closed, segment.name ≠ access.name)
    ⟨fun ⟨finished, reopened, written, retained, removes, fresh⟩ =>
      ⟨finished, reopened, written, retained, removes, fresh⟩,
      fun ⟨finished, reopened, written, retained, removes, fresh⟩ =>
        ⟨finished, reopened, written, retained, removes, fresh⟩⟩

/-- Nothing is cut, and only these files were removed. -/
structure Kept (expired : List String) (disk : Disk) : Prop where
  whole : disk.Whole
  uncut : ∀ piece ∈ disk.contents, piece.isWhole = true
  removed : ∀ segment ∈ disk.closed, segment.removed = true →
    segment.name ∈ expired

variable {expired : List String}

theorem Kept.pieces (kept : disk.Kept expired)
    (writable : disk.segment.hasWriter = true) :
    ∀ piece ∈ disk.segment.pieces, piece.isWhole = true := by
  intro piece hmem
  refine kept.uncut piece (List.mem_append_right _ ?_)
  rw [writable]
  exact hmem

theorem Kept.without (kept : disk.Kept expired) {names : List String}
    (allowed : ∀ segment ∈ disk.closed, segment.name ∈ names →
      segment.name ∈ expired) :
    (disk.without names).Kept expired where
  whole := kept.whole.without names
  uncut := by
    rw [without_contents]
    exact kept.uncut
  removed segment hmem hremoved := by
    obtain ⟨before, hbefore, same, -, gone⟩ :=
      disk.without_closed names segment hmem
    rw [same]
    rcases gone hremoved with h | h
    · exact kept.removed before hbefore h
    · exact allowed before hbefore h

theorem finish_smooth (writable : disk.segment.hasWriter = true)
    (smooth : disk.Smooth expired access) (kept : disk.Kept expired) :
    (disk.finish access).1 = true ∧ (disk.finish access).2.Kept expired ∧
      (disk.finish access).2.contents = disk.contents ∧
      (disk.finish access).2.segment.hasWriter = false := by
  have whole := (finish_whole access kept.whole).1
  suffices h : (disk.finish access).1 = true ∧
      (disk.finish access).2.contents = disk.contents ∧
      (disk.finish access).2.segment.hasWriter = false ∧
      ∀ segment ∈ (disk.finish access).2.closed, segment.removed = true →
        segment.name ∈ expired by
    obtain ⟨ok, same, taken, removed⟩ := h
    refine ⟨ok, ⟨whole, ?_, removed⟩, same, taken⟩
    rw [same]
    exact kept.uncut
  unfold finish
  rw [if_neg (by simp [writable])]
  by_cases hbytes : disk.segment.bytes = 0
  · have hnil : disk.segment.pieces = [] := by
      refine List.eq_nil_iff_forall_not_mem.mpr fun piece hmem => ?_
      have hcut := kept.whole.empty_iff.mp hbytes piece hmem
      rw [kept.pieces writable piece hmem] at hcut
      cases hcut
    rw [if_pos hbytes]
    exact ⟨smooth.finished, by simp [contents, hnil], rfl, kept.removed⟩
  · rw [if_neg hbytes, if_pos smooth.finished]
    refine ⟨rfl, by simp [contents, close, writable], rfl, ?_⟩
    intro segment hmem hremoved
    rcases List.mem_append.mp hmem with hold | hnew
    · obtain ⟨before, hbefore, same, -, gone⟩ :=
        disk.without_closed [access.name] segment hold
      rw [same]
      rcases gone hremoved with h | h
      · exact kept.removed before hbefore h
      · exact absurd (List.mem_singleton.mp h) (smooth.fresh before hbefore)
    · rw [List.mem_singleton.mp hnew] at hremoved
      cases hremoved

theorem Kept.retain (kept : disk.Kept expired)
    (removes : ∀ name ∈ access.retention.paths, name ∈ expired) :
    (disk.retain access).Kept expired :=
  kept.without fun segment _ hname => removes segment.name hname

theorem conclude_smooth (writable : disk.segment.hasWriter = true)
    (smooth : disk.Smooth expired access) (kept : disk.Kept expired) :
    (disk.conclude access).Kept expired ∧
      (disk.conclude access).contents = disk.contents ∧
      (disk.conclude access).segment.hasWriter = false := by
  obtain ⟨-, finished, same, taken⟩ := finish_smooth writable smooth kept
  refine ⟨finished.retain smooth.removes, ?_, taken⟩
  rw [conclude, Disk.retain, without_contents, same]

/-- Everything that was there is there, and these lines. -/
structure Continues (expired : List String) (disk : Disk) (lines : List Bytes)
    (next : Disk) : Prop where
  kept : next.Kept expired
  writable : next.segment.hasWriter = true
  contents : next.contents = disk.contents ++ lines.map Piece.whole

theorem rotate_smooth (writable : disk.segment.hasWriter = true)
    (smooth : disk.Smooth expired access) (kept : disk.Kept expired) :
    ∃ next, disk.rotate access = (true, next) ∧
      next.segment = .opened ∧ disk.Continues expired [] next := by
  have rotated := rotate_whole access kept.whole
  obtain ⟨ok, finished, same, taken⟩ := finish_smooth writable smooth kept
  unfold rotate at rotated ⊢
  split
  · rename_i hfinish
    rw [hfinish] at ok
    cases ok
  · rename_i after hfinish
    rw [hfinish] at finished same taken
    have retained := finished.retain smooth.removes
    have ok : access.retention.result = .ok () := by
      have retained := smooth.retained
      cases hresult : access.retention.result with
      | ok => rfl
      | error error =>
          rw [hresult] at retained
          cases retained
    rw [ok]
    dsimp only
    rw [if_pos smooth.reopened]
    have contents : ({ after.retain access with segment := .opened } :
        Disk).contents = disk.contents := by
      rw [← same, Disk.contents, Disk.contents, taken, Disk.retain,
        without_pieces]
      rfl
    refine ⟨_, rfl, rfl, ⟨⟨whole_opened retained.whole.closed, ?_,
      retained.removed⟩, rfl, ?_⟩⟩
    · rw [contents]
      exact kept.uncut
    · rw [contents]
      exact (List.append_nil _).symm

theorem write_smooth (writable : disk.segment.hasWriter = true)
    (works : access.written = true) (kept : disk.Kept expired)
    (line : 0 < record.length)
    (room : disk.segment.pieces.countP Piece.isWhole = 0 ∨
      tally Piece.size disk.segment.pieces + record.length ≤ segmentBytes) :
    ∃ next, disk.write access record = (.done, next) ∧
      disk.Continues expired [record] next := by
  have whole := (write_whole access kept.whole line room).1
  unfold write at whole ⊢
  rw [if_neg (by simp [writable]), if_pos works] at whole ⊢
  have contents : Disk.contents
      { disk with
        segment :=
          { disk.segment with
            pieces := disk.segment.pieces ++ [.whole record]
            bytes := saturatingAdd (2 ^ 64) disk.segment.bytes
              record.length } } =
        disk.contents ++ [record].map Piece.whole := by
    simp [Disk.contents, writable]
  refine ⟨_, rfl, ⟨whole, ?_, kept.removed⟩, writable, contents⟩
  rw [contents]
  exact List.forall_mem_append.mpr
    ⟨kept.uncut, List.forall_mem_singleton.mpr rfl⟩

theorem writeRecord_smooth (writable : disk.segment.hasWriter = true)
    (smooth : disk.Smooth expired access) (kept : disk.Kept expired)
    (line : 0 < record.length) :
    ∃ next, disk.writeRecord access record = (.done, next) ∧
      disk.Continues expired [record] next := by
  unfold writeRecord
  split
  · obtain ⟨after, hrotate, hopened, rotated⟩ :=
      rotate_smooth writable smooth kept
    have hempty : after.segment.pieces.countP Piece.isWhole = 0 := by
      rw [hopened]
      rfl
    obtain ⟨next, hwrite, continued⟩ := write_smooth rotated.writable
      smooth.written rotated.kept line (.inl hempty)
    rw [hrotate]
    refine ⟨next, hwrite, { continued with contents := ?_ }⟩
    rw [continued.contents, rotated.contents, List.map_nil, List.append_nil]
  · rename_i hkeeps
    rw [Bool.not_eq_true] at hkeeps
    exact write_smooth writable smooth.written kept line
      (room_of_keep kept.whole hkeeps)

theorem tick_smooth (writable : disk.segment.hasWriter = true)
    (smooth : disk.Smooth expired access) (kept : disk.Kept expired) :
    ∃ next, disk.tick access = (.done, next) ∧
      disk.Continues expired [] next := by
  unfold tick
  rw [if_neg (by simp [writable]), if_neg (by simp [smooth.written])]
  split
  · obtain ⟨after, hrotate, -, rotated⟩ :=
      rotate_smooth writable smooth kept
    rw [hrotate]
    exact ⟨after, rfl, rotated⟩
  · exact ⟨disk, rfl, kept, writable, (List.append_nil _).symm⟩

end Disk

/-! ## All threads -/

namespace Setup

variable {setup : Setup} {bytes record : Bytes}

theorem normalizeRecord_pos (h : setup.normalizeRecord bytes = some record) :
    0 < record.length := by
  unfold normalizeRecord at h
  obtain ⟨value, -, h⟩ := Option.bind_eq_some_iff.mp h
  obtain ⟨fields, -, h⟩ := Option.bind_eq_some_iff.mp h
  cases h
  simp

theorem droppedRecord_pos (timestamp : String) (count : Nat) :
    0 < (setup.droppedRecord timestamp count).length := by
  simp [droppedRecord]

end Setup

namespace Pipeline

variable {setup : Setup} {access : Access} {state next stopped last : Pipeline}

/-- The lines that the writer was to write by now. -/
def lines (setup : Setup) (state : Pipeline) : List Bytes :=
  state.handled.filterMap (Handled.record setup)

structure Lined (setup : Setup) (state : Pipeline) : Prop where
  whole : state.disk.Whole
  sublist : state.disk.records.Sublist (state.lines setup)

theorem write_whole {record : Option Bytes} {written : Written} {disk : Disk}
    (whole : state.disk.Whole) (line : ∀ text ∈ record, 0 < text.length)
    (wrote : state.write access record = (written, disk)) :
    disk.Whole ∧ disk.records.Sublist
      (state.disk.records ++ record.toList) := by
  cases record with
  | none =>
      cases wrote
      exact ⟨whole, by simp⟩
  | some text => exact Disk.writeRecord_whole whole (line text rfl) wrote

theorem Lined.handle {record : Option Bytes} {written : Written} {disk : Disk}
    {handled : List Handled} (lined : state.Lined setup)
    (line : ∀ text ∈ record, 0 < text.length)
    (wrote : state.write access record = (written, disk))
    (same : next.disk = disk) (more : next.handled = state.handled ++ handled)
    (brings : handled.filterMap (Handled.record setup) = record.toList) :
    next.Lined setup := by
  obtain ⟨whole, sublist⟩ := write_whole lined.whole line wrote
  rw [← same] at whole sublist
  refine ⟨whole, ?_⟩
  rw [lines, more, List.filterMap_append, brings]
  exact sublist.trans (lined.sublist.append_right _)

theorem Lined.write (lined : state.Lined setup)
    (step : WriterStep setup access state next) : next.Lined setup := by
  cases step with
  | ticks phase done | tickFails phase done =>
      obtain ⟨whole, sublist⟩ := Disk.tick_whole lined.whole done
      exact ⟨whole, (sublist.map Piece.record).trans lined.sublist⟩
  | writesDropped phase wrote | losesDropped phase wrote
  | writesFinal phase wrote | losesFinal phase wrote =>
      refine lined.handle ?_ wrote rfl rfl rfl
      rintro text ⟨⟩
      exact Setup.droppedRecord_pos _ _
  | @writes bytes draining written disk phase wrote
  | @loses bytes draining written disk phase wrote =>
      refine lined.handle (fun text => Setup.normalizeRecord_pos) wrote rfl rfl ?_
      cases hrecord : setup.normalizeRecord bytes <;>
        simp [Handled.record, hrecord]
  | finishes phase =>
      obtain ⟨whole, sublist⟩ := Disk.conclude_whole access lined.whole
      exact ⟨whole, (sublist.map Piece.record).trans lined.sublist⟩
  | _ => exact ⟨lined.whole, lined.sublist⟩

theorem Lined.step {event : Event} (lined : state.Lined setup)
    (moved : state.step setup event = some next) : next.Lined setup := by
  cases event with
  | submit bytes | shutdown =>
      cases moved
      exact ⟨lined.whole, lined.sublist⟩
  | advance index spurious =>
      obtain ⟨submission, found, moved⟩ := Option.bind_eq_some_iff.mp moved
      obtain ⟨⟨queue, after⟩, advanced, rfl⟩ := Option.map_eq_some_iff.mp moved
      exact ⟨lined.whole, lined.sublist⟩
  | write timeout access => exact lined.write (stepWriter_step moved)

theorem lined_initial : initial.Lined setup :=
  ⟨Disk.whole_opened nofun, List.Sublist.refl _⟩

/-- Every closed segment holds a whole line and is not too long, and only long
lines are cut; on the disk are lines that were to be written, each once and in
their order, whatever fails. -/
theorem segments_whole
    (run : Runs (Pipeline.step setup) (fun _ _ => True) initial state) :
    (∀ segment ∈ state.disk.closed, Disk.Sound segment.pieces) ∧
      state.disk.records.Sublist (state.lines setup) := by
  have lined : state.Lined setup :=
    run.invariant (fun _ _ _ lined _ moved => lined.step moved) lined_initial
  exact ⟨lined.whole.closed, lined.sublist⟩

theorem segments_whole_drained :
    (∀ segment ∈ drainedPipeline.disk.closed, Disk.Sound segment.pieces) ∧
      drainedPipeline.disk.records.Sublist
        (drainedPipeline.lines sampleSetup) := by
  have stopped : queuedPipeline.step sampleSetup .shutdown =
      some stoppedPipeline := rfl
  exact segments_whole (((execute_runs execute_queuedEvents).tail trivial
    stopped).trans (execute_runs execute_drainEvents))

/-! ### Runs without failures -/

/-- The disk works whenever the writer uses it, and retention removes only
these files. -/
def Smooth (expired : List String) (state : Pipeline) : Event → Prop
  | .write _ access => state.disk.Smooth expired access
  | _ => True

instance (expired : List String) (state : Pipeline) (event : Event) :
    Decidable (state.Smooth expired event) :=
  match event with
  | .write _ access =>
      inferInstanceAs (Decidable (state.disk.Smooth expired access))
  | .submit _ | .advance _ _ | .shutdown => inferInstanceAs (Decidable True)

variable {expired : List String}

structure Smoothed (setup : Setup) (expired : List String) (state : Pipeline) :
    Prop where
  lined : state.Lined setup
  kept : state.disk.Kept expired
  writable : (∀ drained, state.writer ≠ .ended drained) →
    state.disk.segment.hasWriter = true
  goesOn : ∀ drained, state.writer = .ended drained →
    drained = true ∧ state.disk.segment.hasWriter = false
  complete : state.disk.contents = (state.lines setup).map Piece.whole

theorem write_smooth {record : Option Bytes} {written : Written} {disk : Disk}
    (kept : state.disk.Kept expired)
    (writable : state.disk.segment.hasWriter = true)
    (line : ∀ text ∈ record, 0 < text.length)
    (smooth : state.disk.Smooth expired access)
    (wrote : state.write access record = (written, disk)) :
    written = .done ∧ state.disk.Continues expired record.toList disk := by
  cases record with
  | none =>
      cases wrote
      exact ⟨rfl, kept, writable, (List.append_nil _).symm⟩
  | some text =>
      obtain ⟨after, hwrote, continued⟩ :=
        Disk.writeRecord_smooth writable smooth kept (line text rfl)
      cases hwrote.symm.trans wrote
      exact ⟨rfl, continued⟩

theorem Smoothed.handle {record : Option Bytes} {written : Written}
    {disk : Disk} {handled : List Handled}
    (smoothed : state.Smoothed setup expired) (lined : next.Lined setup)
    (running : ∀ drained, state.writer ≠ .ended drained)
    (line : ∀ text ∈ record, 0 < text.length)
    (smooth : state.disk.Smooth expired access)
    (wrote : state.write access record = (written, disk))
    (same : next.disk = disk) (goesOn : ∀ drained, next.writer ≠ .ended drained)
    (more : next.handled = state.handled ++ handled)
    (brings : handled.filterMap (Handled.record setup) = record.toList) :
    next.Smoothed setup expired := by
  obtain ⟨-, kept, writable, contents⟩ := write_smooth smoothed.kept
    (smoothed.writable running) line smooth wrote
  rw [← same] at kept writable contents
  refine ⟨lined, kept, fun _ => writable,
    fun drained ended => absurd ended (goesOn drained), ?_⟩
  rw [contents, smoothed.complete, lines, lines, more,
    List.filterMap_append, brings, List.map_append]

theorem Smoothed.write (smoothed : state.Smoothed setup expired)
    (smooth : state.disk.Smooth expired access)
    (step : WriterStep setup access state next) :
    next.Smoothed setup expired := by
  have after := smoothed.lined.write step
  have kept := smoothed.kept
  have running := step.running
  have writable := smoothed.writable running
  have reported : ∀ count, ∀ text ∈ some (setup.droppedRecord
      access.timestamp count), 0 < text.length := by
    rintro count text ⟨⟩
    exact Setup.droppedRecord_pos _ _
  have normalized : ∀ bytes, ∀ text ∈ setup.normalizeRecord bytes,
      0 < text.length := fun bytes text => Setup.normalizeRecord_pos
  cases step with
  | receives phase | drains phase | releases phase =>
      refine ⟨after, kept, fun _ => writable, ?_, smoothed.complete⟩
      grind
  | reports phase | finalReports phase =>
      refine ⟨after, kept, fun _ => writable, ?_, smoothed.complete⟩
      grind
  | checks phase | drained phase =>
      refine ⟨after, kept, fun _ => writable, ?_, smoothed.complete⟩
      grind [enter]
  | ticks phase done =>
      obtain ⟨disk, hticked, keptNext, hwriter, hcontents⟩ :=
        Disk.tick_smooth writable smooth kept
      cases hticked.symm.trans done
      refine ⟨after, keptNext, fun _ => hwriter, fun _ => nofun, ?_⟩
      rw [List.map_nil, List.append_nil] at hcontents
      exact hcontents.trans smoothed.complete
  | tickFails phase failed notDone =>
      obtain ⟨disk, hticked, -⟩ :=
        Disk.tick_smooth writable smooth kept
      cases hticked.symm.trans failed
      exact absurd rfl notDone
  | writesDropped phase wrote | writesFinal phase wrote =>
      exact smoothed.handle after running (reported _) smooth wrote rfl
        (by simp) rfl rfl
  | losesDropped phase wrote notDone =>
      exact absurd (write_smooth kept writable (reported _) smooth wrote).1
        notDone
  | loses phase wrote notDone =>
      exact absurd (write_smooth kept writable (normalized _) smooth wrote).1
        notDone
  | losesFinal phase wrote =>
      cases (write_smooth kept writable (reported _) smooth wrote).1
  | @writes bytes draining written disk phase wrote =>
      refine smoothed.handle after running (normalized bytes) smooth wrote rfl
        ?_ rfl ?_
      · cases draining <;> simp
      · cases hrecord : setup.normalizeRecord bytes <;>
          simp [Handled.record, hrecord]
  | finishes phase =>
      obtain ⟨keptNext, hcontents, taken⟩ :=
        Disk.conclude_smooth writable smooth kept
      refine ⟨after, keptNext, fun h => absurd rfl (h true), ?_,
        hcontents.trans smoothed.complete⟩
      rintro drained ⟨⟩
      exact ⟨rfl, taken⟩

theorem Smoothed.step {event : Event} (smoothed : state.Smoothed setup expired)
    (smooth : state.Smooth expired event)
    (moved : state.step setup event = some next) :
    next.Smoothed setup expired := by
  have lined := smoothed.lined.step moved
  cases event with
  | submit bytes | shutdown =>
      cases moved
      exact ⟨lined, smoothed.kept, smoothed.writable, smoothed.goesOn,
        smoothed.complete⟩
  | advance index spurious =>
      obtain ⟨submission, found, moved⟩ := Option.bind_eq_some_iff.mp moved
      obtain ⟨⟨queue, after⟩, advanced, rfl⟩ := Option.map_eq_some_iff.mp moved
      exact ⟨lined, smoothed.kept, smoothed.writable, smoothed.goesOn,
        smoothed.complete⟩
  | write timeout access => exact smoothed.write smooth (stepWriter_step moved)

theorem filterMap_sublist {Item Part : Type} {first second : Item → Option Part}
    (gives : ∀ item part, first item = some part → second item = some part)
    (items : List Item) :
    (items.filterMap first).Sublist (items.filterMap second) := by
  induction items with
  | nil => exact List.Sublist.refl _
  | cons item items ih =>
      cases hfirst : first item with
      | none =>
          rw [List.filterMap_cons_none hfirst]
          exact ih.trans ((List.sublist_cons_self item items).filterMap second)
      | some part =>
          rw [List.filterMap_cons_some hfirst,
            List.filterMap_cons_some (gives item part hfirst)]
          exact ih.cons_cons part

/-- As long as the disk works, it holds a line for everything that the writer
has handled. -/
theorem run_smoothed
    (run : Runs (Pipeline.step setup) (Smooth expired) initial state) :
    state.Smoothed setup expired :=
  run.invariant (fun _ _ _ smoothed smooth moved => smoothed.step smooth moved)
    ⟨lined_initial, ⟨Disk.whole_opened nofun, nofun, nofun⟩, fun _ => rfl,
      fun _ => nofun, rfl⟩

/-- When the disk works and the writer has ended, every line of what was
accepted before the flag was stored is whole in a segment, in this order, and
only segments that retention removes are no longer there. -/
theorem shutdown_writes
    (before : Runs (Pipeline.step setup) (Smooth expired) initial state)
    (clear : state.queue.shutdown = false)
    (moved : state.step setup .shutdown = some stopped)
    (after : Runs (Pipeline.step setup) (Smooth expired) stopped last)
    {drained : Bool} (ended : last.writer = .ended drained) :
    ((state.accepted.filterMap setup.normalizeRecord).map Piece.whole).Sublist
        (last.disk.closed.flatMap ClosedSegment.pieces) ∧
      ∀ segment ∈ last.disk.closed, segment.removed = true →
        segment.name ∈ expired := by
  have whole : Runs (Pipeline.step setup) (Smooth expired) initial last :=
    (before.tail (show state.Smooth expired .shutdown from trivial)
      moved).trans after
  have smoothed := run_smoothed whole
  obtain ⟨rfl, taken⟩ := smoothed.goesOn drained ended
  have drains := drains_of_shutdown (before.mono fun _ _ _ => trivial) clear
    moved (after.mono fun _ _ _ => trivial)
  have htaken := drains.handled (by rw [ended]; rfl)
  rw [drains.held (by rw [ended]; nofun)] at htaken
  refine ⟨?_, smoothed.kept.removed⟩
  have closed : last.disk.closed.flatMap ClosedSegment.pieces =
      last.disk.contents := by
    rw [Disk.contents, taken]
    exact (List.append_nil _).symm
  rw [closed, smoothed.complete]
  refine ((htaken.sublist.filterMap _).trans ?_).map _
  rw [lines, List.filterMap_filterMap]
  refine filterMap_sublist (fun handled line hline => ?_) _
  obtain ⟨bytes, hbytes, hrecord⟩ := Option.bind_eq_some_iff.mp hline
  cases handled with
  | message message =>
      cases hbytes
      exact hrecord
  | lost | dropped => cases hbytes

theorem shutdown_writes_queued :
    ((queuedPipeline.accepted.filterMap
        sampleSetup.normalizeRecord).map Piece.whole).Sublist
        (drainedPipeline.disk.closed.flatMap ClosedSegment.pieces) ∧
      ∀ segment ∈ drainedPipeline.disk.closed, segment.removed = true →
        segment.name ∈ [] := by
  have queued : executeAdmitted (Pipeline.step sampleSetup) (Smooth []) initial
      queuedEvents = some queuedPipeline := by decide +kernel
  have drained : executeAdmitted (Pipeline.step sampleSetup) (Smooth [])
      stoppedPipeline drainEvents = some drainedPipeline := by decide +kernel
  exact shutdown_writes (executeAdmitted_runs queued).2 rfl rfl
    (executeAdmitted_runs drained).2 rfl

end Pipeline

end Susm.Diagnostics
