import Susm.Controller.LogStream

/-!
# The files of segments that are written

Each file belongs to one segment and one step of its life, which says what is in
the file.  This holds however the writers and retention take turns.
-/

namespace Susm.Controller

open Susm.Foundation
open Susm.Protocol
open Susm.Supervisor

/-! ## Names -/

theorem writePadded_inj {width first second : Nat}
    (hfirst : first < 2 ^ 32) (hsecond : second < 2 ^ 32)
    (h : Decimal.writePadded width first = Decimal.writePadded width second) :
    first = second := by
  have hparse := Decimal.parse_writePadded hfirst width
  rw [h, Decimal.parse_writePadded hsecond width] at hparse
  exact (Option.some.inj hparse).symm

theorem attemptNumber_attemptName {attempt : Nat} (h : attempt < 2 ^ 32) :
    attemptNumber (attemptName attempt) = attempt := by
  unfold attemptNumber attemptName
  rw [String.toList_ofList,
    List.dropPrefix?_append_of_beq _ (beq_self_eq_true attemptPrefix),
    Option.bind_some, Decimal.parse_writePadded h, Option.getD_some]

theorem segmentStem_inj {first second : String} {one two : Nat}
    (hone : one < 2 ^ 32) (htwo : two < 2 ^ 32)
    (h : segmentStem first one = segmentStem second two) :
    first = second ∧ one = two := by
  have hsplit : ∀ (timestamp : String) (number : Nat),
      splitOnce '-' (segmentStem timestamp number).reverse =
        some ((Decimal.writePadded 6 number).reverse,
          timestamp.toList.reverse) := by
    intro timestamp number
    have hdigits : '-' ∉ (Decimal.writePadded 6 number).reverse := by
      intro hmem
      have hdigit := Decimal.isDigit_of_mem_writePadded
        (List.mem_reverse.mp hmem)
      exact absurd hdigit (by decide)
    rw [segmentStem, List.reverse_append, List.reverse_cons,
      List.append_assoc]
    exact splitOnce_append hdigits
  have heq := hsplit first one
  rw [h, hsplit second two, Option.some.injEq, Prod.mk.injEq,
    List.reverse_inj, List.reverse_inj] at heq
  exact ⟨String.toList_injective heq.2.symm,
    (writePadded_inj htwo hone heq.1).symm⟩

def FileKind.extension : FileKind → List Char
  | .opened => "open".toList
  | .finalized => "susm-journal".toList
  | .temporary => "tmp".toList
  | .compressed => "zst".toList

namespace LogTree

variable {tree : LogTree} {segment other : Segment} {kind another : FileKind}

theorem fileName_toList (tree : LogTree) (segment : Segment)
    (kind : FileKind) :
    ∃ stem, stem ≠ [] ∧
      (tree.fileName segment kind).toList = stem ++ '.' :: kind.extension := by
  rw [fileName, String.toList_ofList]
  cases kind with
  | opened => exact ⟨_, by simp [finalizedName], rfl⟩
  | finalized =>
      refine ⟨segmentStem segment.timestamp segment.number.toNat,
        by simp [segmentStem], ?_⟩
      rw [suffix, List.append_nil]
      rfl
  | temporary =>
      refine ⟨finalizedName segment.timestamp segment.number.toNat ++
        (".zst.".toList ++ Decimal.write (tree.processId segment)),
        by simp [finalizedName], ?_⟩
      rw [List.append_assoc]
      rfl
  | compressed => exact ⟨_, by simp [finalizedName], rfl⟩

theorem fileExtension_fileName (tree : LogTree) (segment : Segment)
    (kind : FileKind) :
    fileExtension (tree.fileName segment kind).toList =
      some kind.extension := by
  obtain ⟨stem, hne, hname⟩ := tree.fileName_toList segment kind
  rw [hname]
  exact fileExtension_append hne (by cases kind <;> decide)

theorem isJournalName_fileName (tree : LogTree) (segment : Segment)
    (kind : FileKind) : isJournalName (tree.fileName segment kind) = true := by
  have hname : (tree.fileName segment kind).toList =
      segmentStem segment.timestamp segment.number.toNat ++
        ".susm-journal".toList ++ tree.suffix segment kind :=
    String.toList_ofList
  unfold isJournalName
  exact decide_eq_true ⟨_, _, hname.symm⟩

theorem withoutExtension_temporary (tree : LogTree) (segment : Segment) :
    withoutExtension (withoutExtension (withoutExtension
      (tree.fileName segment .temporary).toList)) =
      finalizedName segment.timestamp segment.number.toNat := by
  have hne : finalizedName segment.timestamp segment.number.toNat ≠ [] := by
    simp [finalizedName]
  have hdigits : '.' ∉ Decimal.write (tree.processId segment) := by
    intro hmem
    exact absurd (Decimal.isDigit_of_mem_write hmem) (by decide)
  have hname : (tree.fileName segment .temporary).toList =
      (((finalizedName segment.timestamp segment.number.toNat ++
        '.' :: "zst".toList) ++
        '.' :: Decimal.write (tree.processId segment)) ++
        '.' :: "tmp".toList) := by
    rw [fileName, String.toList_ofList, List.append_assoc, List.append_assoc]
    rfl
  rw [hname, withoutExtension_append (by simp) (by decide),
    withoutExtension_append (by simp) hdigits,
    withoutExtension_append hne (by decide)]

theorem finalizedName_of_fileName
    (h : tree.fileName segment kind = tree.fileName other kind) :
    finalizedName segment.timestamp segment.number.toNat =
      finalizedName other.timestamp other.number.toNat := by
  cases kind with
  | temporary =>
      rw [← tree.withoutExtension_temporary segment, h,
        withoutExtension_temporary]
  | opened | finalized | compressed =>
      exact List.append_cancel_right (String.ofList_injective h)

theorem path_inj (h : tree.path segment kind = tree.path other another) :
    segment = other ∧ kind = another := by
  unfold path directory at h
  rw [List.append_assoc, List.append_assoc] at h
  have hnames := List.append_cancel_left h
  simp only [List.cons_append, List.nil_append, List.cons.injEq, and_true]
    at hnames
  obtain ⟨hexecution, hattempt, hname⟩ := hnames
  have hextension : kind.extension = another.extension := by
    have hextension := tree.fileExtension_fileName segment kind
    rw [hname, tree.fileExtension_fileName other another] at hextension
    exact (Option.some.inj hextension).symm
  have hkind : kind = another := by
    revert hextension
    cases kind <;> cases another <;> decide
  subst hkind
  refine ⟨?_, rfl⟩
  have hnumber : segment.attempt = other.attempt := by
    apply UInt32.toNat_inj.mp
    rw [← attemptNumber_attemptName segment.attempt.toNat_lt, hattempt,
      attemptNumber_attemptName other.attempt.toNat_lt]
  obtain ⟨htimestamp, hsegment⟩ := segmentStem_inj segment.number.toNat_lt
    other.number.toNat_lt
    (List.append_cancel_right (finalizedName_of_fileName hname))
  have hsegment := UInt32.toNat_inj.mp hsegment
  cases segment
  cases other
  simp_all

@[simp] theorem path_eq_iff :
    tree.path segment kind = tree.path segment another ↔ kind = another :=
  ⟨fun h => (path_inj h).2, fun h => by rw [h]⟩

theorem closing_eq (tree : LogTree) (segment : Segment) :
    tree.closing segment =
      [.syncAll (tree.path segment .opened),
        .rename (tree.path segment .opened) (tree.path segment .finalized),
        .openRead (tree.path segment .finalized),
        .create (tree.path segment .temporary),
        .copyEncode (tree.path segment .finalized)
          (tree.path segment .temporary),
        .syncAll (tree.path segment .temporary),
        .rename (tree.path segment .temporary)
          (tree.path segment .compressed),
        .removeFile (tree.path segment .finalized)] := by
  have hfinalized : finalizedPath (tree.path segment .opened) =
      tree.path segment .finalized := by
    have hopen := finalizedPath_open (tree.directory segment)
      segment.timestamp segment.number.toNat
    rw [path, path, fileName, fileName, suffix, suffix, List.append_nil]
    exact hopen
  have hcompressed : compressedPath (tree.path segment .finalized) =
      tree.path segment .compressed := by
    rw [compressedPath, appendedExtension, path, withName_append, path,
      fileName, String.toList_ofList, suffix, List.append_nil, fileName,
      suffix]
  have htemporary : temporaryPath (tree.processId segment)
      (tree.path segment .finalized) = tree.path segment .temporary := by
    rw [temporaryPath, appendedExtension, path, withName_append, path,
      fileName, String.toList_ofList, suffix, List.append_nil, fileName,
      suffix]
  simp only [closing, closingOps, hfinalized, hcompressed]
  simp only [machine, htemporary]

end LogTree

/-! ## Contents -/

namespace LogTree

variable (tree : LogTree) (segment : Segment)

def Holds : Stage → FileKind → List UInt8 → Prop
  | .writing size, .opened, content =>
      content = (tree.journal segment).take size
  | .writing _, _, _ => False
  | .closing count, .temporary, content =>
      LogState.copying < count →
        content = tree.zstd.encode (tree.journal segment)
  | .closing _, .compressed, content =>
      content = tree.zstd.encode (tree.journal segment)
  | .closing _, _, content => content = tree.journal segment

/-- So many bytes of the segment have left the buffer. -/
def available : Stage → Nat
  | .writing size => size
  | .closing _ => (tree.journal segment).length

/-- Each file belongs to a segment. -/
def Stored (state : LogState) : Prop :=
  ∀ path content, state.disk.lookup path = some content →
    ∃ segment stage kind, state.stages.lookup segment = some stage ∧
      path = tree.path segment kind ∧ tree.Holds segment stage kind content

end LogTree

/-- A step of a writer changes the files and the stage of one segment. -/
structure SegmentStep (tree : LogTree) (segment : Segment) (stage : Stage)
    (state next : LogState) : Prop where
  point : next.point = state.point
  closed : next.closed = state.closed
  seen : next.seen = state.seen
  delivered : next.delivered = state.delivered
  stages : ∀ other, next.stages.lookup other =
    if other = segment then some stage else state.stages.lookup other
  grows : ∀ old, state.stages.lookup segment = some old →
    tree.available segment old ≤ tree.available segment stage
  frame : ∀ path, (∀ kind, path ≠ tree.path segment kind) →
    next.disk.lookup path = state.disk.lookup path
  content : tree.Stored state → ∀ kind content,
    next.disk.lookup (tree.path segment kind) = some content →
      tree.Holds segment stage kind content

section Contents

variable {tree : LogTree} {state next : LogState} {segment : Segment}
  {stage : Stage} {kind : FileKind} {content bytes : List UInt8}

theorem LogTree.Stored.holds (stored : tree.Stored state)
    (hstage : state.stages.lookup segment = some stage)
    (h : state.disk.lookup (tree.path segment kind) = some content) :
    tree.Holds segment stage kind content := by
  obtain ⟨owner, current, name, howner, hpath, holds⟩ := stored _ _ h
  obtain ⟨rfl, rfl⟩ := LogTree.path_inj hpath
  rw [hstage] at howner
  cases howner
  exact holds

theorem LogTree.Stored.opened (stored : tree.Stored state)
    (h : state.disk.lookup (tree.path segment kind) = some content) :
    ∃ stage, state.stages.lookup segment = some stage := by
  obtain ⟨owner, current, name, howner, hpath, -⟩ := stored _ _ h
  obtain ⟨rfl, -⟩ := LogTree.path_inj hpath
  exact ⟨current, howner⟩

theorem SegmentStep.stored (step : SegmentStep tree segment stage state next)
    (stored : tree.Stored state) : tree.Stored next := by
  intro path content hcontent
  by_cases hown : ∃ kind, path = tree.path segment kind
  · obtain ⟨kind, rfl⟩ := hown
    refine ⟨segment, stage, kind, ?_, rfl,
      step.content stored kind content hcontent⟩
    rw [step.stages, if_pos rfl]
  · rw [step.frame path fun kind heq => hown ⟨kind, heq⟩] at hcontent
    obtain ⟨owner, current, kind, howner, hpath, holds⟩ :=
      stored path content hcontent
    refine ⟨owner, current, kind, ?_, hpath, holds⟩
    have hne : owner ≠ segment := by
      intro heq
      subst heq
      exact hown ⟨kind, hpath⟩
    rw [step.stages, if_neg hne, howner]

/-! ### Operations of the writers -/

theorem openSegment_step
    (h : state.openSegment tree segment = some next) :
    SegmentStep tree segment (.writing 0) state next := by
  unfold LogState.openSegment at h
  cases hnone : state.stages.lookup segment with
  | some stage => simp [hnone] at h
  | none =>
      rw [hnone, Disk.apply] at h
      split at h
      · rename_i happly
        split at happly
        · cases happly
        · cases happly
          cases h
          refine ⟨rfl, rfl, rfl, rfl, ?_, ?_, ?_, ?_⟩
          · exact fun other => Map.lookup_insert_eq _ _ _ _
          · intro old hold
            rw [hnone] at hold
            cases hold
          · intro path hother
            exact AList.lookup_insert_ne (hother .opened)
          · intro stored kind content hcontent
            rw [Map.lookup_insert_eq] at hcontent
            split at hcontent
            · rename_i hkind
              cases hcontent
              rw [LogTree.path_eq_iff.mp hkind]
              exact List.take_zero.symm
            · obtain ⟨stage, hstage⟩ := stored.opened hcontent
              rw [hnone] at hstage
              cases hstage
      · cases h

theorem write_step {size : Nat}
    (h : state.write tree segment size = some next) :
    SegmentStep tree segment (.writing size) state next := by
  unfold LogState.write at h
  cases hstage : state.stages.lookup segment with
  | none => simp [hstage] at h
  | some stage =>
      cases stage with
      | closing count => simp [hstage] at h
      | writing count =>
          simp only [hstage] at h
          split at h
          · rename_i hsize
            rw [Disk.apply] at h
            split at h
            · cases h
              refine ⟨rfl, rfl, rfl, rfl, ?_, ?_, ?_, ?_⟩
              · exact fun other => Map.lookup_insert_eq _ _ _ _
              · intro old hold
                rw [hstage] at hold
                cases hold
                exact hsize.1
              · intro path hother
                rw [Map.lookup_modify, if_neg (hother .opened)]
              · intro stored kind content hcontent
                rw [Map.lookup_modify] at hcontent
                split at hcontent
                · rename_i hkind
                  obtain rfl := LogTree.path_eq_iff.mp hkind
                  obtain ⟨old, hold, rfl⟩ :=
                    Option.map_eq_some_iff.mp hcontent
                  have holds : old = (tree.journal segment).take count :=
                    stored.holds hstage hold
                  have hfront : (tree.journal segment).take count =
                      ((tree.journal segment).take size).take count := by
                    rw [List.take_take, Nat.min_eq_left hsize.1]
                  rw [holds, hfront]
                  exact List.take_append_drop _ _
                · rename_i hkind
                  have holds := stored.holds hstage hcontent
                  cases kind with
                  | opened => exact absurd rfl hkind
                  | finalized | temporary | compressed => exact holds.elim
            · cases h
          · cases h

theorem finish_step (h : state.finish tree segment = some next) :
    SegmentStep tree segment (.closing 0) state next := by
  unfold LogState.finish at h
  split at h
  · rename_i hstage
    cases h
    refine ⟨rfl, rfl, rfl, rfl, ?_, ?_, fun _ _ => rfl, ?_⟩
    · exact fun other => Map.lookup_insert_eq _ _ _ _
    · intro old hold
      rw [hstage] at hold
      cases hold
      exact le_rfl
    · intro stored kind content hcontent
      have holds := stored.holds hstage hcontent
      cases kind with
      | opened =>
          rw [LogTree.Holds, List.take_length] at holds
          exact holds
      | finalized | temporary | compressed => exact holds.elim
  · cases h

theorem copy_step (h : state.copy tree segment bytes = some next) :
    SegmentStep tree segment (.closing LogState.copying) state next := by
  unfold LogState.copy at h
  split at h
  · rename_i hstage
    cases h
    refine ⟨rfl, rfl, rfl, rfl, ?_, ?_, ?_, ?_⟩
    · intro other
      split
      · rename_i heq
        rw [heq, hstage]
      · rfl
    · intro old hold
      rw [hstage] at hold
      cases hold
      exact le_rfl
    · intro path hother
      rw [Map.lookup_modify, if_neg (hother .temporary)]
    · intro stored kind content hcontent
      rw [Map.lookup_modify] at hcontent
      split at hcontent
      · rename_i hkind
        rw [LogTree.path_eq_iff.mp hkind]
        exact fun hlater => absurd hlater (lt_irrefl _)
      · exact stored.holds hstage hcontent
  · cases h

/-- The operations of `finish` by what they do to the files. -/
inductive FinishStep (tree : LogTree) (segment : Segment) (disk : Disk) :
    Nat → Disk → Prop where
  | keep {count : Nat} (h : count ≠ LogState.copying) :
      FinishStep tree segment disk count disk
  | rename {content : List UInt8}
      (h : disk.lookup (tree.path segment .opened) = some content) :
      FinishStep tree segment disk 1
        ((disk.erase (tree.path segment .opened)).insert
          (tree.path segment .finalized) content)
  | create : FinishStep tree segment disk 3
      (disk.insert (tree.path segment .temporary) [])
  | copy : FinishStep tree segment disk LogState.copying
      (disk.modify (tree.path segment .temporary) fun _ =>
        tree.zstd.encode (tree.journal segment))
  | replace {content : List UInt8}
      (h : disk.lookup (tree.path segment .temporary) = some content) :
      FinishStep tree segment disk 6
        ((disk.erase (tree.path segment .temporary)).insert
          (tree.path segment .compressed) content)
  | remove : FinishStep tree segment disk 7
      (disk.erase (tree.path segment .finalized))

theorem rename_cases {zstd : Zstd} {disk last : Disk} {source target : LogPath}
    (h : disk.apply zstd (.rename source target) = .ok last) :
    ∃ content, disk.lookup source = some content ∧
      last = (disk.erase source).insert target content := by
  rw [Disk.apply] at h
  split at h
  · rename_i content hsource
    cases h
    exact ⟨content, hsource, rfl⟩
  · cases h

theorem closeDisk_step {count : Nat} {disk : Disk}
    (h : state.closeDisk tree segment count = some disk) :
    FinishStep tree segment state.disk count disk := by
  rw [LogState.closeDisk, LogTree.closing_eq] at h
  have hok : ∀ {op : DiskOp},
      (state.disk.apply tree.zstd op).toOption = some disk →
      state.disk.apply tree.zstd op = .ok disk := by
    intro op happly
    cases hresult : state.disk.apply tree.zstd op with
    | error error => simp [hresult, Except.toOption] at happly
    | ok last =>
        rw [hresult] at happly
        cases happly
        rfl
  rcases count with _ | _ | _ | _ | _ | _ | _ | _ | count
  · cases hok h
    exact .keep (by decide)
  · obtain ⟨content, hcontent, rfl⟩ := rename_cases (hok h)
    exact .rename hcontent
  · have happly := hok h
    rw [Disk.apply] at happly
    split at happly
    · cases happly
      exact .keep (by decide)
    · cases happly
  · cases hok h
    exact .create
  · cases h
    exact .copy
  · cases hok h
    exact .keep (by decide)
  · obtain ⟨content, hcontent, rfl⟩ := rename_cases (hok h)
    exact .replace hcontent
  · have happly := hok h
    rw [Disk.apply] at happly
    split at happly
    · cases happly
      exact .remove
    · cases happly
  · simp at h

section FinishStep

variable {count : Nat} {disk last : Disk}

theorem FinishStep.frame (step : FinishStep tree segment disk count last)
    {path : LogPath} (hother : ∀ kind, path ≠ tree.path segment kind) :
    last.lookup path = disk.lookup path := by
  cases step with
  | keep => rfl
  | copy => simp [Map.lookup_modify, hother]
  | rename | create | replace | remove => simp [hother]

theorem FinishStep.holds (step : FinishStep tree segment disk count last)
    (before : ∀ kind content,
      disk.lookup (tree.path segment kind) = some content →
      tree.Holds segment (.closing count) kind content)
    {kind : FileKind} {content : List UInt8}
    (h : last.lookup (tree.path segment kind) = some content) :
    tree.Holds segment (.closing (count + 1)) kind content := by
  -- only the copy makes a temporary file complete
  have hkeeps : count ≠ LogState.copying →
      tree.Holds segment (.closing count) kind content →
      tree.Holds segment (.closing (count + 1)) kind content := by
    intro hcount hold
    cases kind with
    | temporary => exact fun hlater => hold (by omega)
    | opened | finalized | compressed => exact hold
  cases step with
  | keep hcount => exact hkeeps hcount (before kind content h)
  | rename hopened =>
      rw [Map.lookup_insert_eq] at h
      split at h
      · rename_i hkind
        cases h
        rw [LogTree.path_eq_iff.mp hkind]
        exact before .opened content hopened
      · rw [Map.lookup_erase_eq] at h
        split at h
        · cases h
        · exact hkeeps (by decide) (before kind content h)
  | create =>
      rw [Map.lookup_insert_eq] at h
      split at h
      · rename_i hkind
        rw [LogTree.path_eq_iff.mp hkind]
        exact fun hlater => absurd hlater (by decide)
      · exact hkeeps (by decide) (before kind content h)
  | copy =>
      rw [Map.lookup_modify] at h
      split at h
      · rename_i hkind
        obtain ⟨old, -, rfl⟩ := Option.map_eq_some_iff.mp h
        rw [LogTree.path_eq_iff.mp hkind]
        exact fun _ => rfl
      · rename_i hkind
        have hold := before kind content h
        cases kind with
        | temporary => exact absurd rfl hkind
        | opened | finalized | compressed => exact hold
  | replace htemporary =>
      rw [Map.lookup_insert_eq] at h
      split at h
      · rename_i hkind
        cases h
        rw [LogTree.path_eq_iff.mp hkind]
        exact before .temporary content htemporary (by decide)
      · rw [Map.lookup_erase_eq] at h
        split at h
        · cases h
        · exact hkeeps (by decide) (before kind content h)
  | remove =>
      rw [Map.lookup_erase_eq] at h
      split at h
      · cases h
      · exact hkeeps (by decide) (before kind content h)

end FinishStep

theorem close_step (h : state.close tree segment = some next) :
    ∃ count, SegmentStep tree segment (.closing (count + 1)) state next := by
  unfold LogState.close at h
  cases hstage : state.stages.lookup segment with
  | none => simp [hstage] at h
  | some stage =>
      cases stage with
      | writing size => simp [hstage] at h
      | closing count =>
          simp only [hstage] at h
          obtain ⟨disk, hdisk, rfl⟩ := Option.map_eq_some_iff.mp h
          have step := closeDisk_step hdisk
          refine ⟨count, rfl, rfl, rfl, rfl, ?_, ?_, ?_, ?_⟩
          · exact fun other => Map.lookup_insert_eq _ _ _ _
          · intro old hold
            rw [hstage] at hold
            cases hold
            exact le_rfl
          · exact fun path hother => step.frame hother
          · intro stored kind content hcontent
            exact step.holds (fun _ _ => stored.holds hstage) hcontent

/-! ### Steps that are none of the query -/

/-- The query goes on, and no segment loses what was written to it. -/
structure Quiet (tree : LogTree) (state next : LogState) : Prop where
  point : next.point = state.point
  seen : next.seen = state.seen
  delivered : next.delivered = state.delivered
  closed : state.closed = true → next.closed = true
  stored : tree.Stored state → tree.Stored next
  grows : ∀ segment stage, state.stages.lookup segment = some stage →
    ∃ later, next.stages.lookup segment = some later ∧
      tree.available segment stage ≤ tree.available segment later

theorem SegmentStep.quiet (step : SegmentStep tree segment stage state next) :
    Quiet tree state next where
  point := step.point
  seen := step.seen
  delivered := step.delivered
  closed hclosed := by rw [step.closed, hclosed]
  stored := step.stored
  grows other old hold := by
    rw [step.stages]
    by_cases heq : other = segment
    · subst heq
      exact ⟨stage, if_pos rfl, step.grows old hold⟩
    · exact ⟨old, by rw [if_neg heq, hold], le_rfl⟩

theorem retain_quiet {path : LogPath}
    (h : state.retain tree path = some next) : Quiet tree state next := by
  obtain ⟨disk, hdisk, rfl⟩ := Option.map_eq_some_iff.mp h
  refine ⟨rfl, rfl, rfl, id, ?_, fun _ stage hstage =>
    ⟨stage, hstage, le_rfl⟩⟩
  intro stored
  rw [Disk.apply] at hdisk
  split at hdisk
  · cases hdisk
    intro other content hcontent
    change (AList.erase path state.disk).lookup other = _ at hcontent
    rw [Map.lookup_erase_eq] at hcontent
    split at hcontent
    · cases hcontent
    · exact stored other content hcontent
  · cases hdisk

theorem quiet_of_step {request : ReadLogsRequest} {event : LogEvent}
    (hread : ∀ names, event ≠ .read names)
    (h : logStep tree request state event = some next) :
    Quiet tree state next := by
  cases event with
  | openSegment segment => exact (openSegment_step h).quiet
  | write segment size => exact (write_step h).quiet
  | finish segment => exact (finish_step h).quiet
  | copy segment bytes => exact (copy_step h).quiet
  | close segment =>
      obtain ⟨count, step⟩ := close_step h
      exact step.quiet
  | retain path => exact retain_quiet h
  | hangUp =>
      cases h
      exact ⟨rfl, rfl, rfl, fun _ => rfl, id, fun _ stage hstage =>
        ⟨stage, hstage, le_rfl⟩⟩
  | read names => exact absurd rfl (hread names)

/-! ### Decoding -/

theorem fileBytes_fileName (tree : LogTree) (segment : Segment)
    (kind : FileKind) (bytes : List UInt8) :
    fileBytes tree.zstd (tree.fileName segment kind) bytes =
      if kind = .compressed then tree.zstd.decode bytes else some bytes := by
  rw [fileBytes, LogTree.fileExtension_fileName, Option.any_some]
  congr 1
  cases kind <;> decide

theorem LogTree.Holds.readable (holds : tree.Holds segment stage kind content)
    (hkind : kind ≠ .temporary) :
    ∃ size, tree.available segment stage ≤ size ∧
      fileBytes tree.zstd (tree.fileName segment kind) content =
        some ((tree.journal segment).take size) := by
  rw [fileBytes_fileName]
  cases stage with
  | writing size =>
      cases kind with
      | opened => exact ⟨size, le_rfl, by rw [holds]; rfl⟩
      | finalized | temporary | compressed => exact holds.elim
  | closing count =>
      refine ⟨(tree.journal segment).length, le_rfl, ?_⟩
      rw [List.take_length]
      cases kind with
      | opened | finalized =>
          rw [holds]
          rfl
      | temporary => exact absurd rfl hkind
      | compressed =>
          rw [holds, if_pos rfl]
          exact tree.zstd.decode_encode _

theorem decodeJournal_journal (tree : LogTree) (segment : Segment)
    (size : Nat) :
    ∃ count,
      decodeJournal ((tree.journal segment).take size) segment.executionId
          segment.attempt.toNat = (tree.records segment).take count ∧
      ∀ whole, whole ≤ (tree.chunks segment).length →
        (((tree.chunks segment).take whole).flatMap
          (encodeEntry (tree.configuration segment))).length ≤ size →
        whole ≤ count := by
  obtain ⟨count, hcount, hread⟩ := decodeJournal_take
    (tree.workload_line segment) (tree.execution_line segment)
    (tree.chunks segment) size
  rw [List.map_take] at hread
  refine ⟨count, hread, fun whole hwhole hfits => ?_⟩
  exact (Framing.le_length_within _ hwhole hfits).trans hcount

end Contents

end Susm.Controller
